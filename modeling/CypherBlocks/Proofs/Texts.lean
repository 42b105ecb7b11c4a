import CypherBlocks.Cypher.Condition
import Mathlib.Data.List.Basic
import Mathlib.Data.List.TakeWhile

/-!
# Texts, blank ones and usable entries

A text is blank exactly when nothing is left of it without its outer blanks, so the usable entries
of a list are the entries that are not blank.
-/

namespace CypherBlocks

namespace Text

/-- A text stands for itself where it is put into another one. -/
@[simp] theorem toString_eq_self (s : String) : toString s = s := rfl

/-- A run of characters of one class ends where the rest begins, unless the rest begins with another
of them. -/
theorem takeWhile_append_of_head {p : Char → Bool} {cs rest : List Char}
    (hcs : ∀ c ∈ cs, p c = true) (hrest : ∀ c ∈ rest.head?, p c = false) :
    (cs ++ rest).takeWhile p = cs ∧ (cs ++ rest).dropWhile p = rest := by
  rw [List.takeWhile_append_of_pos hcs, List.dropWhile_append_of_pos hcs]
  cases rest with
  | nil => simp
  | cons c rest =>
    have hc := hrest c rfl
    simp [hc]

/-- Between the places where a list is split, what it is split at does not occur. -/
theorem not_mem_of_mem_splitOn {α : Type} [DecidableEq α] {a : α} {xs l : List α}
    (h : l ∈ xs.splitOn a) : a ∉ l := by
  induction xs generalizing l with
  | nil =>
    rw [List.splitOn_nil, List.mem_singleton] at h
    simp [h]
  | cons x xs ih =>
    rw [List.splitOn_cons_eq_if_modifyHead] at h
    split at h
    · rcases List.mem_cons.mp h with rfl | h
      · exact List.not_mem_nil
      · exact ih h
    · rename_i hx
      obtain ⟨first, rest, hsplit⟩ := List.exists_cons_of_ne_nil (List.splitOn_ne_nil a xs)
      rw [hsplit] at h ih
      rcases List.mem_cons.mp h with rfl | h
      · have hne : a ≠ x := fun heq => hx (by simp [heq])
        exact fun hmem => (List.mem_cons.mp hmem).elim hne (ih List.mem_cons_self)
      · exact ih (List.mem_cons_of_mem first h)

/-- What a text begins with can be taken from it. -/
@[simp] theorem dropPrefix?_append (cs rest : List Char) :
    (cs ++ rest).dropPrefix? cs = some rest :=
  List.dropPrefix?_append_of_beq rest BEq.rfl

/-- Dropping blanks from the front leaves only blanks when there is nothing else. -/
theorem all_dropWhile (p : Char → Bool) (cs : List Char) : (cs.dropWhile p).all p = cs.all p := by
  conv => rhs; rw [← List.takeWhile_append_dropWhile (p := p) (l := cs)]
  rw [List.all_append, List.all_takeWhile, Bool.true_and]

theorem toList_trim (s : String) :
    (trim s).toList = ((s.toList.dropWhile isBlankChar).reverse.dropWhile isBlankChar).reverse := by
  simp [trim, trimLeft, trimRight]

/-- Dropping characters that do not matter does not change whether one that does is there. -/
theorem any_dropWhile {p q : Char → Bool} (h : ∀ c, q c = true → p c = false) (cs : List Char) :
    (cs.dropWhile q).any p = cs.any p := by
  have htake : (cs.takeWhile q).any p = false := by
    rw [List.any_eq_false]
    intro c hc
    have hq : q c = true := List.all_eq_true.mp List.all_takeWhile c hc
    rw [h c hq]
    exact Bool.false_ne_true
  conv => rhs; rw [← List.takeWhile_append_dropWhile (p := q) (l := cs)]
  rw [List.any_append, htake, Bool.false_or]

theorem any_trim {p : Char → Bool} (h : ∀ c, isBlankChar c = true → p c = false) (s : String) :
    (trim s).toList.any p = s.toList.any p := by
  rw [toList_trim, List.any_reverse, any_dropWhile h, List.any_reverse, any_dropWhile h]

/-- Nothing is left of a text without its outer blanks exactly if it is blank. -/
theorem isEmpty_trim (s : String) : (trim s).isEmpty = isBlank s := by
  rw [Bool.eq_iff_iff, String.isEmpty_iff, ← String.toList_eq_nil_iff, toList_trim,
    List.reverse_eq_nil_iff, List.dropWhile_eq_nil_iff, isBlank, ← all_dropWhile, List.all_eq_true]
  simp only [List.mem_reverse]

end Text

namespace Cypher

theorem isLetterOrDigit_of_isPlainName {s : String} (h : isPlainName s = true) :
    ∀ c ∈ s.toList, isLetterOrDigit c = true := by
  unfold isPlainName at h
  split at h
  · rename_i c rest heq
    rw [Bool.and_eq_true, List.all_eq_true] at h
    rw [heq]
    refine List.forall_mem_cons.mpr ⟨?_, h.2⟩
    rw [isLetterOrDigit, h.1, Bool.true_or]
  · cases h

/-- No character of a regular expression is blank. -/
theorem isPattern_trim (s : String) : isPattern (Text.trim s) = isPattern s := by
  refine Text.any_trim (fun c hc => ?_) s
  rw [decide_eq_false_iff_not]
  intro hmem
  have hnone : metaCharacters.any Text.isBlankChar = false := by decide
  rw [List.any_eq_true.mpr ⟨c, hmem, hc⟩] at hnone
  cases hnone

/-- The usable entries are those that are not blank, trimmed. -/
theorem usable_eq (ss : List String) :
    usable ss = (ss.filter fun s => !Text.isBlank s).map Text.trim := by
  unfold usable
  induction ss with
  | nil => rfl
  | cons s rest ih =>
    rw [List.map_cons, List.filter_cons, List.filter_cons, Text.isEmpty_trim, ih]
    split <;> rfl

theorem usable_ne_nil_iff {ss : List String} :
    usable ss ≠ [] ↔ ∃ s ∈ ss, Text.isBlank s = false := by
  simp [usable_eq, List.filter_eq_nil_iff]

theorem comparisons_ne_nil_iff (property : String) {terms : List String} :
    comparisons property terms ≠ [] ↔ ∃ s ∈ terms, Text.isBlank s = false := by
  rw [← usable_ne_nil_iff]
  simp [comparisons]

/-- The property that is compared. -/
def Comparison.property : Comparison → String
  | .equal p _ | .resembles p _ | .contains p _ | .atLeast p _ => p

theorem property_ofTerm (property term : String) :
    (Comparison.ofTerm property term).property = property := by
  unfold Comparison.ofTerm
  split <;> rfl

theorem property_of_mem_comparisons {property : String} {terms : List String} {c : Comparison}
    (h : c ∈ comparisons property terms) : c.property = property := by
  obtain ⟨term, -, rfl⟩ := List.mem_map.mp h
  exact property_ofTerm property term

end Cypher

end CypherBlocks
