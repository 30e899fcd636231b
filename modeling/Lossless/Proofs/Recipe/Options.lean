import Lossless.Interchange.Recipes

/-!
# Options that are read back

A recipe says what its options are in two places. It describes them, with a name, a value and
whether they are required, and it reads them from data. Nothing makes the two agree but that they
were written to: a name or a default could be changed in one place alone. Here the descriptions are
taken for what they promise (`Lossless.Options.ReadBack`). A record that has the described values
under the described names makes the recipe again, in whatever order they come and whatever else is
in the record. If an option is left out that is not required it has its default then, and if one is
left out that is required there is no recipe, but the report that options do not fit.

`Lossless.Options.options_readBack` says that the promise is kept by all recipes that are read by
their fields.
-/

namespace Lossless

open Interchange

namespace Options

/-! ### Records for options -/

/-- The fields that give all of some options. -/
def fieldsOf (options : List OptionDescriptor) : List (String × Datum) :=
  options.map fun o => (o.name, o.value)

/-- A recipe `r` is read back from its options, and it is `rest` if the options that are not
required are left out. A record may have other fields, and in any order. -/
structure ReadBack {R : Type} (read : Datum → Option R) (options : List OptionDescriptor)
    (r rest : R) : Prop where
  /-- The record of the options is read as the recipe. -/
  whole : orOptions (read (.record (fieldsOf options))) = pure r
  /-- So is any record with the options in it. -/
  given {fields : List (String × Datum)}
    (h : ∀ o ∈ options, fields.lookup o.name = some o.value) :
    orOptions (read (.record fields)) = pure r
  /-- What is not required may be left out. -/
  leftOut {fields : List (String × Datum)}
    (hrequired : ∀ o ∈ options, o.required = true → fields.lookup o.name = some o.value)
    (hout : ∀ o ∈ options, o.required = false → fields.lookup o.name = none) :
    orOptions (read (.record fields)) = pure rest
  /-- Without an option that is required the data are refused, whatever they say of the others. -/
  refused {fields : List (String × Datum)} {o : OptionDescriptor} (ho : o ∈ options)
    (hrequired : o.required = true) (hout : fields.lookup o.name = none) :
    orOptions (read (.record fields)) = .refuse optionsReport

/-- Each option is found among the fields under its name. -/
theorem lookup_fieldsOf {options : List OptionDescriptor} (hnames : (options.map (·.name)).Nodup)
    {o : OptionDescriptor} (ho : o ∈ options) :
    (fieldsOf options).lookup o.name = some o.value := by
  induction options with
  | nil => cases ho
  | cons first rest ih =>
    rw [List.map_cons, List.nodup_cons] at hnames
    rw [fieldsOf, List.map_cons, Table.lookup_cons_eq]
    rcases List.mem_cons.mp ho with rfl | ho
    · rw [if_pos rfl]
    · have hne : o.name ≠ first.name := fun hname =>
        hnames.1 (hname ▸ List.mem_map_of_mem (f := (·.name)) ho)
      rw [if_neg hne]
      exact ih hnames.2 ho

/-- To read options back it is enough to say what is read from their fields. -/
theorem ReadBack.of_fields {R : Type} {read : Datum → Option R} {options : List OptionDescriptor}
    {r rest : R} (hnames : (options.map (·.name)).Nodup)
    (hgiven : ∀ fields, (∀ o ∈ options, fields.lookup o.name = some o.value) →
      read (.record fields) = some r)
    (hleftOut : ∀ fields, (∀ o ∈ options, o.required = true → fields.lookup o.name = some o.value) →
      (∀ o ∈ options, o.required = false → fields.lookup o.name = none) →
      read (.record fields) = some rest)
    (hrefused : ∀ fields, ∀ o ∈ options, o.required = true → fields.lookup o.name = none →
      read (.record fields) = none) :
    ReadBack read options r rest where
  whole := by rw [hgiven _ fun o ho => lookup_fieldsOf hnames ho, orOptions]
  given h := by rw [hgiven _ h, orOptions]
  leftOut hrequired hout := by rw [hleftOut _ hrequired hout, orOptions]
  refused ho hrequired hout := by rw [hrefused _ _ ho hrequired hout, orOptions]

/-! ### Values of options -/

/-- A position is read back from its number. -/
theorem index?_toNat (position : UInt64) : index? (.nat position.toNat) = some position := by
  have hrange : (0 : Int) ≤ position.toNat ∧ (position.toNat : Int) < UInt64.size :=
    ⟨Int.natCast_nonneg _, Int.ofNat_lt.mpr position.toNat_lt⟩
  rw [Datum.nat, index?, if_pos hrange, Int.toNat_natCast, UInt64.ofNat_toNat]

/-- The way to fall back is read from its word. -/
theorem choice?_word (f : Java.Fallback) :
    choice? Java.Fallback.words (.text f.word) = some f := by
  cases f <;> rfl

end Options

/-! ### The recipes -/

open Options

namespace DeleteArgument

/-- What a record is read as depends on three fields. -/
theorem ofDatum?_record (fields : List (String × Datum)) :
    ofDatum? (.record fields) = do
      let pattern ← fields.lookup "methodPattern"
      let index ← fields.lookup "argumentIndex"
      return {
        pattern := ← text? pattern
        index := ← index? index
        fallback :=
          ← orDefault .failClosed (choice? Java.Fallback.words) (fields.lookup "fallback") } := by
  simp only [ofDatum?, fields?, List.map_cons, List.map_nil]
  cases fields.lookup "methodPattern" <;> cases fields.lookup "argumentIndex" <;> rfl

theorem names_options (r : DeleteArgument) :
    r.options.map (·.name) = ["methodPattern", "argumentIndex", "fallback"] := rfl

/-- A deletion is read back from its options. -/
theorem readBack (r : DeleteArgument) :
    ReadBack ofDatum? r.options r { r with fallback := .failClosed } := by
  refine .of_fields (by rw [names_options]; decide) ?given ?leftOut ?refused
  case given =>
    intro fields h
    simp only [options, List.forall_mem_cons] at h
    obtain ⟨hpattern, hposition, hfallback, -⟩ := h
    rw [ofDatum?_record, hpattern, hposition, hfallback]
    simp [index?_toNat, choice?_word, text?, orDefault]
  case leftOut =>
    intro fields h hout
    simp only [options, List.forall_mem_cons, forall_const] at h hout
    rw [ofDatum?_record, h.1, h.2.1, hout.2.2.1]
    simp [index?_toNat, text?, orDefault]
  case refused =>
    intro fields o ho hrequired hout
    simp only [options, List.mem_cons, List.not_mem_nil, or_false] at ho
    obtain rfl | rfl | rfl := ho
    · rw [ofDatum?_record, hout, Option.bind_eq_bind, Option.bind_none]
    · rw [ofDatum?_record, hout]
      cases fields.lookup "methodPattern" <;> rfl
    · cases hrequired

end DeleteArgument

namespace FindCalls

theorem ofDatum?_record (fields : List (String × Datum)) :
    ofDatum? (.record fields) = do
      let pattern ← fields.lookup "methodPattern"
      return {
        pattern := ← text? pattern
        fallback :=
          ← orDefault .failClosed (choice? Java.Fallback.words) (fields.lookup "fallback") } := by
  simp only [ofDatum?, fields?, List.map_cons, List.map_nil]
  cases fields.lookup "methodPattern" <;> rfl

theorem names_options (r : FindCalls) :
    r.options.map (·.name) = ["methodPattern", "fallback"] := rfl

/-- So is a search. -/
theorem readBack (r : FindCalls) :
    ReadBack ofDatum? r.options r { r with fallback := .failClosed } := by
  refine .of_fields (by rw [names_options]; decide) ?given ?leftOut ?refused
  case given =>
    intro fields h
    simp only [options, List.forall_mem_cons] at h
    obtain ⟨hpattern, hfallback, -⟩ := h
    rw [ofDatum?_record, hpattern, hfallback]
    simp [choice?_word, text?, orDefault]
  case leftOut =>
    intro fields h hout
    simp only [options, List.forall_mem_cons, forall_const] at h hout
    rw [ofDatum?_record, h.1, hout.2.1]
    simp [text?, orDefault]
  case refused =>
    intro fields o ho hrequired hout
    simp only [options, List.mem_cons, List.not_mem_nil, or_false] at ho
    obtain rfl | rfl := ho
    · rw [ofDatum?_record, hout, Option.bind_eq_bind, Option.bind_none]
    · cases hrequired

end FindCalls

namespace ChangeProperty

theorem ofDatum?_record (fields : List (String × Datum)) :
    ofDatum? (.record fields) = do
      let key ← fields.lookup "key"
      let newValue ← fields.lookup "newValue"
      return { key := ← text? key, newValue := ← text? newValue } := by
  simp only [ofDatum?, fields?, List.map_cons, List.map_nil]
  cases fields.lookup "key" <;> cases fields.lookup "newValue" <;> rfl

theorem names_options (r : ChangeProperty) :
    r.options.map (·.name) = ["key", "newValue"] := rfl

/-- Nothing may be left out here. -/
theorem readBack (r : ChangeProperty) : ReadBack ofDatum? r.options r r := by
  have hgiven : ∀ fields, (∀ o ∈ r.options, fields.lookup o.name = some o.value) →
      ofDatum? (.record fields) = some r := by
    intro fields h
    simp only [options, List.forall_mem_cons] at h
    rw [ofDatum?_record, h.1, h.2.1]
    rfl
  refine .of_fields (by rw [names_options]; decide) hgiven ?leftOut ?refused
  case leftOut =>
    intro fields h _
    refine hgiven fields fun o ho => h o ho ?_
    simp only [options, List.mem_cons, List.not_mem_nil, or_false] at ho
    obtain rfl | rfl := ho <;> rfl
  case refused =>
    intro fields o ho _ hout
    simp only [options, List.mem_cons, List.not_mem_nil, or_false] at ho
    obtain rfl | rfl := ho
    · rw [ofDatum?_record, hout, Option.bind_eq_bind, Option.bind_none]
    · rw [ofDatum?_record, hout]
      cases fields.lookup "key" <;> rfl

end ChangeProperty

/-! ### Together -/

namespace Options

/-- **What recipes say of their options is what they are read from**, whatever the values are. Only
how calls without attribution are treated may be left out. -/
theorem options_readBack :
    (∀ r : DeleteArgument,
        ReadBack DeleteArgument.ofDatum? r.options r { r with fallback := default }) ∧
      (∀ r : FindCalls,
        ReadBack FindCalls.ofDatum? r.options r { r with fallback := default }) ∧
      ∀ r : ChangeProperty, ReadBack ChangeProperty.ofDatum? r.options r r :=
  ⟨DeleteArgument.readBack, FindCalls.readBack, ChangeProperty.readBack⟩

end Options

end Lossless
