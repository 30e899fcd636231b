/-!
# Sorted tables

Entries with a text for a key, in the order of their keys, none of which is repeated: so
two tables are equal if they give every key the same value
(`Lossless.Table.ext_lookup`). `Lossless.Table.insert` keeps it so.
-/

namespace Lossless.Table

variable {β : Type}

/-- Do entries stand in the order of their keys, none of which is repeated? -/
abbrev IsSorted (entries : List (String × β)) : Prop := entries.Pairwise fun a b => a.1 < b.1

/-- Puts an entry in its place, instead of any entry with the same key. -/
def insert (key : String) (value : β) : List (String × β) → List (String × β)
  | [] => [(key, value)]
  | (k, v) :: rest =>
    if key < k then (key, value) :: (k, v) :: rest
    else if key = k then (key, value) :: rest
    else (k, v) :: insert key value rest

/-- Drops the entry with a key. -/
def erase (key : String) (entries : List (String × β)) : List (String × β) :=
  entries.filter (·.1 ≠ key)

/-- The table with the given entries; of two with one key the later counts. -/
def ofList (entries : List (String × β)) : List (String × β) :=
  entries.foldl (fun es e => insert e.1 e.2 es) []

/-! ### Order -/

theorem mem_insert {key : String} {value : β} {e : String × β} {es : List (String × β)}
    (h : e ∈ insert key value es) : e.1 = key ∨ e ∈ es := by
  induction es with
  | nil => exact .inl (congrArg Prod.fst (List.mem_singleton.1 h))
  | cons x es ih =>
    simp only [insert] at h
    split at h
    · rcases List.mem_cons.1 h with rfl | h
      · exact .inl rfl
      · exact .inr h
    · split at h
      · rcases List.mem_cons.1 h with rfl | h
        · exact .inl rfl
        · exact .inr (List.mem_cons_of_mem _ h)
      · rcases List.mem_cons.1 h with rfl | h
        · exact .inr List.mem_cons_self
        · exact (ih h).imp_right (List.mem_cons_of_mem _)

/-- Inserting keeps a table sorted. -/
theorem isSorted_insert (key : String) (value : β) {es : List (String × β)} (h : IsSorted es) :
    IsSorted (insert key value es) := by
  induction es with
  | nil => exact List.pairwise_singleton ..
  | cons x es ih =>
    have hx := List.pairwise_cons.1 h
    simp only [insert]
    split
    · next hlt =>
      refine List.pairwise_cons.2 ⟨fun e he => ?_, h⟩
      rcases List.mem_cons.1 he with rfl | he
      · exact hlt
      · exact String.lt_trans hlt (hx.1 e he)
    · next hlt =>
      split
      · next heq =>
        subst heq
        exact List.pairwise_cons.2 ⟨fun e he => hx.1 e he, hx.2⟩
      · next hne =>
        refine List.pairwise_cons.2 ⟨fun e he => ?_, ih hx.2⟩
        rcases mem_insert he with rfl | he
        · exact Std.lt_of_le_of_ne (String.not_lt.1 hlt) (Ne.symm hne)
        · exact hx.1 e he

/-- Erasing keeps a table sorted. -/
theorem isSorted_erase (key : String) {es : List (String × β)} (h : IsSorted es) :
    IsSorted (erase key es) :=
  h.sublist List.filter_sublist

/-! ### Look-up -/

theorem lookup_cons_eq (k : String) (e : String × β) (es : List (String × β)) :
    List.lookup k (e :: es) = if k = e.1 then some e.2 else es.lookup k := by
  rw [List.lookup_cons]
  by_cases h : k = e.1
  · rw [beq_iff_eq.2 h, if_pos h]
  · rw [beq_eq_false_iff_ne.2 h, if_neg h]

/-- The value that was put in is found again, and nothing else changes. -/
theorem lookup_insert (key : String) (value : β) (k : String) (es : List (String × β)) :
    (insert key value es).lookup k = if k = key then some value else es.lookup k := by
  induction es with
  | nil => exact lookup_cons_eq k (key, value) []
  | cons x es ih =>
    simp only [insert]
    split
    · exact lookup_cons_eq k (key, value) _
    · split
      · next heq => subst heq; simp only [lookup_cons_eq]; split <;> rfl
      · next hne =>
        simp only [lookup_cons_eq, ih]
        by_cases hk : k = x.1
        · have hkey : k ≠ key := fun h => hne (h.symm.trans hk)
          simp only [if_pos hk, if_neg hkey]
        · simp only [if_neg hk]

/-- An entry that was dropped is not found, and nothing else changes. -/
theorem lookup_erase (key k : String) (es : List (String × β)) :
    (erase key es).lookup k = if k = key then none else es.lookup k := by
  induction es with
  | nil => simp only [erase, List.filter_nil, List.lookup_nil, ite_self]
  | cons e es ih =>
    by_cases he : e.1 = key
    · rw [erase, List.filter_cons_of_neg (by simpa using he)]
      refine ih.trans ?_
      by_cases hk : k = key
      · rw [if_pos hk, if_pos hk]
      · rw [if_neg hk, if_neg hk, lookup_cons_eq, if_neg (fun h => hk (h.trans he))]
    · rw [erase, List.filter_cons_of_pos (by simpa using he), lookup_cons_eq, lookup_cons_eq]
      by_cases hk : k = e.1
      · rw [if_pos hk, if_pos hk, if_neg (fun h => he (hk.symm.trans h))]
      · rw [if_neg hk, if_neg hk]
        exact ih

/-- A key below all the others is not in the table. -/
theorem lookup_eq_none_of_lt {k : String} {es : List (String × β)} (h : ∀ e ∈ es, k < e.1) :
    es.lookup k = none := by
  refine List.lookup_eq_none_iff.2 fun e he => ?_
  have := h e he
  simp only [bne_iff_ne, ne_eq]
  rintro rfl
  exact String.lt_irrefl _ this

theorem lookup_cons_eq_none {k : String} {e : String × β} {es : List (String × β)}
    (h : IsSorted (e :: es)) (hk : k < e.1) : (e :: es).lookup k = none := by
  refine lookup_eq_none_of_lt fun x hx => ?_
  rcases List.mem_cons.1 hx with rfl | hx
  · exact hk
  · exact String.lt_trans hk ((List.pairwise_cons.1 h).1 x hx)

/-- Tables are equal if they give every key the same value. -/
theorem ext_lookup {es fs : List (String × β)} (he : IsSorted es) (hf : IsSorted fs)
    (h : ∀ k, es.lookup k = fs.lookup k) : es = fs := by
  induction es generalizing fs with
  | nil =>
    cases fs with
    | nil => rfl
    | cons f fs =>
      have := h f.1
      rw [List.lookup_nil, List.lookup_cons_self] at this
      cases this
  | cons e es ih =>
    cases fs with
    | nil =>
      have := h e.1
      rw [List.lookup_nil, List.lookup_cons_self] at this
      cases this
    | cons f fs =>
      have hk : e.1 = f.1 := by
        by_cases hlt : e.1 < f.1
        · have := h e.1
          rw [List.lookup_cons_self, lookup_cons_eq_none hf hlt] at this
          cases this
        · by_cases hgt : f.1 < e.1
          · have := h f.1
            rw [List.lookup_cons_self, lookup_cons_eq_none he hgt] at this
            cases this
          · exact String.le_antisymm (String.not_lt.1 hgt) (String.not_lt.1 hlt)
      have hv : e.2 = f.2 := by
        have := h e.1
        rw [List.lookup_cons_self, hk, List.lookup_cons_self] at this
        exact Option.some.inj this
      have he' := List.pairwise_cons.1 he
      have hf' := List.pairwise_cons.1 hf
      have hes : es = fs := ih he'.2 hf'.2 fun k => by
        by_cases hke : k = e.1
        · rw [hke, lookup_eq_none_of_lt he'.1, hk, lookup_eq_none_of_lt hf'.1]
        · have := h k
          rwa [lookup_cons_eq, lookup_cons_eq, if_neg hke, if_neg (hk ▸ hke)] at this
      rw [hes, Prod.ext hk hv]

end Lossless.Table
