import Mathlib.Data.List.TakeWhile
import Lossless.Text.Blank
import Lossless.Text.Split
import Lossless.Text.WordChar

/-!
# Blanks and separators around pieces

A text that is put together from pieces can be taken apart again if no piece holds what
separates them: cutting at a separator undoes joining (`Lossless.Text.splitAt_joinWith`), and
trimming takes off just the blanks that were put around a piece
(`Lossless.Text.trim_blanks_append`). Names are such pieces, since no character of a name is a
blank (`Lossless.Text.isWordChar_of_isBlank`).
-/

namespace Lossless.Text

/-! ### Characters -/

/-- All blanks. -/
def blanks : List Char :=
  ['\t', '\n', '\x0b', '\x0c', '\r', ' ', '\u0085', '\u00a0', '\u1680', '\u2000', '\u2001',
    '\u2002', '\u2003', '\u2004', '\u2005', '\u2006', '\u2007', '\u2008', '\u2009', '\u200a',
    '\u2028', '\u2029', '\u202f', '\u205f', '\u3000']

theorem mem_blanks_of_isBlank {c : Char} (h : isBlank c = true) : c ∈ blanks := by
  have hcode : c.toNat ∈ blanks.map Char.toNat := by
    simp [isBlank] at h
    simp [blanks]
    omega
  obtain ⟨d, hd, hcd⟩ := List.mem_map.mp hcode
  rwa [← Char.toNat_inj.mp hcd]

/-- No word character is a blank. -/
theorem isWordChar_of_isBlank {c : Char} (h : isBlank c = true) : isWordChar c = false := by
  have hall : blanks.all (!isWordChar ·) = true := by decide +kernel
  simpa using List.all_eq_true.mp hall c (mem_blanks_of_isBlank h)

/-- A character that is no blank does not stand in a text of blanks. -/
theorem not_mem_of_blank {c : Char} (hc : isBlank c = false) {s : List Char}
    (h : ∀ d ∈ s, isBlank d = true) : c ∉ s := fun hmem => by
  rw [h c hmem] at hc
  cases hc

/-- A text of word characters and of some other characters. -/
def MadeOf (others s : List Char) : Prop := ∀ c ∈ s, isWordChar c = true ∨ c ∈ others

instance (others s : List Char) : Decidable (MadeOf others s) :=
  decidable_of_iff (s.all fun c => isWordChar c || others.contains c) (by simp [MadeOf])

theorem MadeOf.append {others s t : List Char} (hs : MadeOf others s) (ht : MadeOf others t) :
    MadeOf others (s ++ t) :=
  List.forall_mem_append.mpr ⟨hs, ht⟩

/-- A character that is neither a word character nor one of the others does not stand in the text.
-/
theorem MadeOf.not_mem {others s : List Char} (h : MadeOf others s) {c : Char}
    (hword : isWordChar c = false) (hc : c ∉ others) : c ∉ s := by
  intro hmem
  rcases h c hmem with hyes | hmem
  · rw [hword] at hyes
    cases hyes
  · exact hc hmem

/-- A text made of word characters and of others that are no blanks has no blank in it. -/
theorem MadeOf.not_blank {others s : List Char} (h : MadeOf others s)
    (hothers : others.all (!isBlank ·) = true) : ∀ c ∈ s, isBlank c = false := by
  intro c hc
  rw [Bool.eq_false_iff]
  intro hblank
  refine h.not_mem (isWordChar_of_isBlank hblank) (fun hmem => ?_) hc
  have hother := List.all_eq_true.mp hothers c hmem
  rw [hblank] at hother
  cases hother

/-! ### Trimming -/

section While

variable {α : Type} {p q : α → Bool}

theorem dropWhile_takeWhile_of_imp (h : ∀ a, p a = true → q a = true) (s : List α) :
    (s.takeWhile q).dropWhile p = (s.dropWhile p).takeWhile q := by
  induction s with
  | nil => rfl
  | cons a s ih =>
    cases hp : p a with
    | true => rw [List.takeWhile_cons_of_pos (h a hp), List.dropWhile_cons_of_pos hp,
        List.dropWhile_cons_of_pos hp, ih]
    | false =>
      have hp : ¬p a = true := by simp [hp]
      rw [List.dropWhile_cons_of_neg hp]
      by_cases hq : q a = true
      · rw [List.takeWhile_cons_of_pos hq, List.dropWhile_cons_of_neg hp]
      · rw [List.takeWhile_cons_of_neg hq, List.dropWhile_nil]

theorem dropWhile_dropWhile_of_imp (h : ∀ a, p a = true → q a = true) (s : List α) :
    (s.dropWhile p).dropWhile q = s.dropWhile q := by
  induction s with
  | nil => rfl
  | cons a s ih =>
    by_cases hp : p a = true
    · rw [List.dropWhile_cons_of_pos hp, List.dropWhile_cons_of_pos (h a hp), ih]
    · rw [List.dropWhile_cons_of_neg hp]

/-- What is left starts where the predicate first fails. -/
theorem eq_false_of_dropWhile_eq_cons {a : α} {s t : List α} (h : s.dropWhile p = a :: t) :
    p a = false := by
  have hhead := List.head?_dropWhile_not p s
  rwa [h] at hhead

/-- Where a text goes on with a character that fails, taking stops in front of it. -/
theorem takeWhile_append_cons {s : List α} (hs : ∀ a ∈ s, p a = true) {b : α} (hb : p b = false)
    (t : List α) : (s ++ b :: t).takeWhile p = s := by
  rw [List.takeWhile_append_of_pos hs, List.takeWhile_cons_of_neg (by simp [hb]), List.append_nil]

/-- And dropping leaves that character and all behind it. -/
theorem dropWhile_append_cons {s : List α} (hs : ∀ a ∈ s, p a = true) {b : α} (hb : p b = false)
    (t : List α) : (s ++ b :: t).dropWhile p = b :: t := by
  rw [List.dropWhile_append_of_pos hs, List.dropWhile_cons_of_neg (by simp [hb])]

end While

/-- Trimming takes blanks away at both ends, and nothing else. -/
theorem exists_trim (s : List Char) : ∃ before after, s = before ++ trim s ++ after ∧
    (∀ c ∈ before, isBlank c = true) ∧ ∀ c ∈ after, isBlank c = true := by
  refine ⟨s.takeWhile isBlank, ((trimStart s).reverse.takeWhile isBlank).reverse, ?_,
    fun _ => List.mem_takeWhile_imp, fun _ hc => List.mem_takeWhile_imp (List.mem_reverse.mp hc)⟩
  have hend : trim s ++ ((trimStart s).reverse.takeWhile isBlank).reverse = trimStart s := by
    rw [trim, trimEnd, ← List.reverse_append, List.takeWhile_append_dropWhile,
      List.reverse_reverse]
  rw [List.append_assoc, hend, trimStart, List.takeWhile_append_dropWhile]

/-- A character of the trimmed text is one of the text. -/
theorem mem_of_mem_trim {s : List Char} {c : Char} (h : c ∈ trim s) : c ∈ s := by
  obtain ⟨before, after, hs, -, -⟩ := exists_trim s
  rw [hs]
  exact List.mem_append_left after (List.mem_append_right before h)

theorem dropWhile_isBlank_eq_self {s : List Char} (h : ∀ c ∈ s, isBlank c = false) :
    s.dropWhile isBlank = s := by
  cases s with
  | nil => rfl
  | cons c s => exact List.dropWhile_cons_of_neg (by simp [h c List.mem_cons_self])

/-- Blanks around a piece are trimmed. -/
theorem trim_blanks_append {before s after : List Char} (hbefore : ∀ c ∈ before, isBlank c = true)
    (hs : ∀ c ∈ s, isBlank c = false) (hafter : ∀ c ∈ after, isBlank c = true) :
    trim (before ++ s ++ after) = s := by
  have hstart : trimStart (before ++ s ++ after) = (s ++ after).dropWhile isBlank := by
    rw [trimStart, List.append_assoc, List.dropWhile_append_of_pos hbefore]
  rw [trim, hstart]
  cases s with
  | nil => rw [List.nil_append, List.dropWhile_eq_nil_iff.mpr hafter, trimEnd]; rfl
  | cons c s =>
    have hc : isBlank c = false := hs c List.mem_cons_self
    rw [List.cons_append, List.dropWhile_cons_of_neg (by simp [hc]), ← List.cons_append, trimEnd,
      List.reverse_append,
      List.dropWhile_append_of_pos fun a ha => hafter a (List.mem_reverse.mp ha),
      dropWhile_isBlank_eq_self fun a ha => hs a (List.mem_reverse.mp ha), List.reverse_reverse]

/-! ### Cutting -/

variable {separator : Char}

/-- A text without the separator is a single piece. -/
theorem splitAt_of_not_mem {s : List Char} (h : separator ∉ s) : splitAt separator s = [s] := by
  induction s with
  | nil => rfl
  | cons c s ih =>
    obtain ⟨hc, hs⟩ := not_or.mp (List.mem_cons.not.mp h)
    rw [splitAt, if_neg (Ne.symm hc), ih hs]

/-- The first piece ends at the first separator, and the others are the pieces of the rest. -/
theorem splitAt_append_cons {s : List Char} (h : separator ∉ s) (t : List Char) :
    splitAt separator (s ++ separator :: t) = s :: splitAt separator t := by
  induction s with
  | nil => rw [List.nil_append, splitAt, if_pos rfl]
  | cons c s ih =>
    obtain ⟨hc, hs⟩ := not_or.mp (List.mem_cons.not.mp h)
    rw [List.cons_append, splitAt, if_neg (Ne.symm hc), ih hs]

/-- No piece has the separator in it. -/
theorem not_mem_of_mem_splitAt {s piece : List Char} (h : piece ∈ splitAt separator s) :
    separator ∉ piece := by
  induction s generalizing piece with
  | nil => simp_all [splitAt]
  | cons c s ih =>
    rw [splitAt] at h
    split at h
    · rcases List.mem_cons.mp h with rfl | h
      · exact List.not_mem_nil
      · exact ih h
    · next hc =>
      cases hsplit : splitAt separator s with
      | nil => exact absurd hsplit (splitAt_ne_nil _ _)
      | cons first rest =>
        rw [hsplit] at h ih
        rcases List.mem_cons.mp h with rfl | h
        · rw [List.mem_cons, not_or]
          exact ⟨Ne.symm hc, ih List.mem_cons_self⟩
        · exact ih (List.mem_cons_of_mem _ h)

/-- A text with the separator in it has at least two pieces. -/
theorem exists_splitAt_of_mem {s : List Char} (h : separator ∈ s) :
    ∃ first second rest, splitAt separator s = first :: second :: rest := by
  match hsplit : splitAt separator s with
  | [] => exact absurd hsplit (splitAt_ne_nil _ _)
  | [piece] =>
    -- one piece is the whole text, and no piece holds the separator
    have hjoin := joinWith_splitAt separator s
    rw [hsplit] at hjoin
    obtain rfl : piece = s := hjoin
    exact absurd h (not_mem_of_mem_splitAt (hsplit ▸ List.mem_singleton_self piece))
  | first :: second :: rest => exact ⟨first, second, rest, rfl⟩

/-- Joined pieces are the first one and behind it each of the others with a separator in front. -/
theorem joinWith_cons (piece : List Char) (rest : List (List Char)) :
    joinWith separator (piece :: rest) = piece ++ rest.flatMap (separator :: ·) := by
  induction rest generalizing piece with
  | nil => exact (List.append_nil _).symm
  | cons next rest ih =>
    rw [joinWith, ih, List.flatMap_cons, List.cons_append]
    exact List.cons_ne_nil _ _

/-- A character of a piece is one of the joined text. -/
theorem mem_joinWith {pieces : List (List Char)} {piece : List Char} {c : Char}
    (hpiece : piece ∈ pieces) (hc : c ∈ piece) : c ∈ joinWith separator pieces := by
  induction pieces with
  | nil => cases hpiece
  | cons first rest ih =>
    cases rest with
    | nil =>
      obtain rfl := List.mem_singleton.mp hpiece
      exact hc
    | cons second rest =>
      rw [joinWith, List.mem_append]
      rcases List.mem_cons.mp hpiece with rfl | hpiece
      · exact .inl hc
      · exact .inr (List.mem_cons_of_mem _ (ih hpiece))
      · exact List.cons_ne_nil _ _

/-- A character of the joined text is the separator or one of a piece. -/
theorem mem_of_mem_joinWith {pieces : List (List Char)} {c : Char}
    (h : c ∈ joinWith separator pieces) : c = separator ∨ ∃ piece ∈ pieces, c ∈ piece := by
  induction pieces with
  | nil => cases h
  | cons first rest ih =>
    cases rest with
    | nil => exact .inr ⟨first, List.mem_cons_self, h⟩
    | cons second rest =>
      rw [joinWith, List.mem_append, List.mem_cons] at h
      · rcases h with h | rfl | h
        · exact .inr ⟨first, List.mem_cons_self, h⟩
        · exact .inl rfl
        · exact (ih h).imp_right fun ⟨piece, hpiece, hc⟩ =>
            ⟨piece, List.mem_cons_of_mem _ hpiece, hc⟩
      · exact List.cons_ne_nil _ _

/-- A character of a piece is one of the text that was split. -/
theorem mem_of_mem_splitAt {s piece : List Char} {c : Char} (hpiece : piece ∈ splitAt separator s)
    (hc : c ∈ piece) : c ∈ s :=
  joinWith_splitAt separator s ▸ mem_joinWith hpiece hc

/-- Cutting undoes joining. -/
theorem splitAt_joinWith {pieces : List (List Char)} (hne : pieces ≠ [])
    (h : ∀ piece ∈ pieces, separator ∉ piece) :
    splitAt separator (joinWith separator pieces) = pieces := by
  induction pieces with
  | nil => exact absurd rfl hne
  | cons piece rest ih =>
    obtain ⟨hpiece, hrest⟩ := List.forall_mem_cons.mp h
    cases rest with
    | nil => exact splitAt_of_not_mem hpiece
    | cons piece' rest =>
      rw [joinWith, splitAt_append_cons hpiece, ih (List.cons_ne_nil _ _) hrest]
      exact List.cons_ne_nil _ _

end Lossless.Text
