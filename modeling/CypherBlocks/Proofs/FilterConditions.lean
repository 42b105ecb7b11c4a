import CypherBlocks.Proofs.ByteTerms
import CypherBlocks.Proofs.Digits
import CypherBlocks.Proofs.Emission
import Mathlib.Data.List.Forall2

/-!
# Reading the condition of a filter

A condition is made of tests, with AND, OR and parentheses between them.  AND binds tighter than OR,
a string literal is read as a whole, and whatever stands in it is part of the value.  The variable
whose properties are tested is read either as a plain name or, since a filter knows which variable
it is about, as that one; so conditions can be read whatever the characters of the variable.

The condition of a filter is read as its alternatives and, perhaps, the least confidence.
-/

namespace CypherBlocks.Cypher

/-! ## 1. Tests and formulas -/

inductive Relation where
  | equal | resembles | contains | atLeast
  deriving Repr, DecidableEq

def Relation.text : Relation → String
  | .equal => " = "
  | .resembles => " =~ "
  | .contains => " CONTAINS "
  | .atLeast => " >= "

/-- One comparison as it is read: the property, and the text or the number that it is compared
with. -/
structure Test where
  operand : String
  relation : Relation
  value : String
  deriving Repr, DecidableEq

/-- The least value is a number and stands as it is; all else stands in quotes. -/
def Test.valueText (t : Test) : String := if t.relation = .atLeast then t.value else quote t.value

def Test.text (t : Test) : String := t.operand ++ t.relation.text ++ t.valueText

def Comparison.test : Comparison → Test
  | .equal p v => ⟨p, .equal, v⟩
  | .resembles p v => ⟨p, .resembles, v⟩
  | .contains p v => ⟨s!"toLower({p})", .contains, Text.lower v⟩
  | .atLeast p x => ⟨p, .atLeast, x.text⟩

theorem Comparison.text_eq (c : Comparison) : c.text = c.test.text := by
  cases c <;> simp [text, test, Test.text, Test.valueText, Relation.text, ← String.toList_inj]

inductive Formula where
  | test (t : Test)
  | both (f g : Formula)
  | either (f g : Formula)
  deriving Repr, DecidableEq

namespace Formula

/-- The tests of a formula, from left to right. -/
def tests : Formula → List Test
  | .test t => [t]
  | .both f g => f.tests ++ g.tests
  | .either f g => f.tests ++ g.tests

def holds (truth : Test → Prop) : Formula → Prop
  | .test t => truth t
  | .both f g => f.holds truth ∧ g.holds truth
  | .either f g => f.holds truth ∨ g.holds truth

/-- One or more formulas in a row. -/
def joinAll (join : Formula → Formula → Formula) (f : Formula) : List Formula → Formula
  | [] => f
  | g :: more => join f (joinAll join g more)

theorem tests_joinAll {join : Formula → Formula → Formula}
    (hjoin : ∀ f g, (join f g).tests = f.tests ++ g.tests) (f : Formula) (fs : List Formula) :
    (joinAll join f fs).tests = (f :: fs).flatMap tests := by
  induction fs generalizing f with
  | nil => simp [joinAll]
  | cons g more ih =>
    rw [joinAll, hjoin, ih]
    rfl

variable {truth : Test → Prop}

theorem holds_joinAll_both (f : Formula) (fs : List Formula) :
    (joinAll .both f fs).holds truth ↔ ∀ g ∈ f :: fs, g.holds truth := by
  induction fs generalizing f with
  | nil => simp [joinAll]
  | cons g more ih => simp [joinAll, holds, ih]

theorem holds_joinAll_either (f : Formula) (fs : List Formula) :
    (joinAll .either f fs).holds truth ↔ ∃ g ∈ f :: fs, g.holds truth := by
  induction fs generalizing f with
  | nil => simp [joinAll]
  | cons g more ih => simp [joinAll, holds, ih]

end Formula

/-! ## 2. The reader -/

/-- Reads something from the front of a text, and gives what is left. -/
abbrev Reads (α : Type) := List Char → Option (α × List Char)

/-- Reads a name without backticks. -/
def plainName? : Reads String := fun cs =>
  if isPlainName (String.ofList (cs.takeWhile isLetterOrDigit)) then
    some (String.ofList (cs.takeWhile isLetterOrDigit), cs.dropWhile isLetterOrDigit)
  else none

/-- Reads a variable that is known. -/
def knownName? (v : String) : Reads String := fun cs => (cs.dropPrefix? v.toList).map (v, ·)

/-- Reads the rest of a string literal: a backslash stands before a backslash and before a quote
only. -/
def unquoted? : Reads (List Char)
  | [] => none
  | '\'' :: rest => some ([], rest)
  | '\\' :: '\\' :: rest => (unquoted? rest).map fun r => ('\\' :: r.1, r.2)
  | '\\' :: '\'' :: rest => (unquoted? rest).map fun r => ('\'' :: r.1, r.2)
  | '\\' :: _ => none
  | c :: rest => (unquoted? rest).map fun r => (c :: r.1, r.2)

def literal? : Reads String
  | '\'' :: rest => (unquoted? rest).map fun r => (String.ofList r.1, r.2)
  | _ => none

/-- Reads digits, and perhaps a point and more digits. -/
def decimal? : Reads String := fun cs =>
  match cs.takeWhile Char.isDigit, cs.dropWhile Char.isDigit with
  | [], _ => none
  | whole, '.' :: rest =>
    if rest.takeWhile Char.isDigit = [] then none
    else some (String.ofList (whole ++ '.' :: rest.takeWhile Char.isDigit),
      rest.dropWhile Char.isDigit)
  | whole, rest => some (String.ofList whole, rest)

def relation? : Reads Relation := fun cs =>
  [Relation.equal, .resembles, .contains, .atLeast].findSome? fun r =>
    (cs.dropPrefix? r.text.toList).map (r, ·)

def value? (r : Relation) : Reads String := if r = .atLeast then decimal? else literal?

/-- Reads a test of a property. -/
def test? (node? : Reads String) : Reads Test := fun cs => do
  let node ← node? cs
  let key ← plainName? (← node.2.dropPrefix? ['.'])
  let relation ← relation? key.2
  let value ← value? relation.1 relation.2
  return (⟨property node.1 key.1, relation.1, value.1⟩, value.2)

/-- Reads one item and, after each separator, one more. -/
def joined? (separator : String) (join : Formula → Formula → Formula) (item? : Reads Formula) :
    Nat → Reads Formula
  | 0, _ => none
  | n + 1, cs => do
    let first ← item? cs
    match first.2.dropPrefix? separator.toList with
    | none => return first
    | some rest => (joined? separator join item? n rest).map fun r => (join first.1 r.1, r.2)

/-- Reads a test, or what `inner?` reads in parentheses. -/
def unit? (node? : Reads String) (inner? : Reads Formula) : Reads Formula := fun cs =>
  match test? node? cs with
  | some (t, rest) => some (.test t, rest)
  | none =>
    match cs with
    | '(' :: cs =>
      match inner? cs with
      | some (f, ')' :: rest) => some (f, rest)
      | _ => none
    | _ => none

/-- Reads alternatives, each of them a conjunction of units, with parentheses up to a given
depth. -/
def disjunction? (node? : Reads String) : Nat → Reads Formula
  | 0, _ => none
  | depth + 1, cs =>
    joined? " OR " .either (joined? " AND " .both (unit? node? (disjunction? node? depth))
      (cs.length + 1)) (cs.length + 1) cs

/-- Reads a whole condition; parentheses cannot be deeper than it is long. -/
def readCondition? (node? : Reads String) (s : String) : Option Formula :=
  match disjunction? node? (s.length + 2) s.toList with
  | some (f, []) => some f
  | _ => none

/-! ## 3. Reading one test -/

theorem plainName?_name {s : String} (hs : isPlainName s = true) {rest : List Char}
    (hrest : ∀ c ∈ rest.head?, isLetterOrDigit c = false) :
    plainName? (s.toList ++ rest) = some (s, rest) := by
  obtain ⟨htake, hdrop⟩ := Text.takeWhile_append_of_head (isLetterOrDigit_of_isPlainName hs) hrest
  rw [plainName?, htake, hdrop, String.ofList_toList, if_pos hs]

theorem unquoted?_escaped (cs rest : List Char) :
    unquoted? (cs.flatMap escapeChar ++ '\'' :: rest) = some (cs, rest) := by
  induction cs with
  | nil => rfl
  | cons c cs ih =>
    rw [List.flatMap_cons, List.append_assoc]
    by_cases hslash : c = '\\'
    · subst hslash
      simp [escapeChar, unquoted?, ih]
    · by_cases hquote : c = '\''
      · subst hquote
        simp [escapeChar, unquoted?, ih]
      · simp [escapeChar, unquoted?, hslash, hquote, ih]

theorem literal?_quote (s : String) (rest : List Char) :
    literal? ((quote s).toList ++ rest) = some (s, rest) := by
  rw [quote, String.toList_ofList, List.append_assoc]
  simp [literal?, unquoted?_escaped]

/-- What may follow a test: the end, a blank or a parenthesis. -/
def EndsTest (rest : List Char) : Prop := ∀ c ∈ rest.head?, c = ' ' ∨ c = ')'

theorem decimal?_point {whole fraction rest : List Char} (hwhole : whole ≠ [])
    (hdigits : ∀ c ∈ whole ++ fraction, c.isDigit = true) (hrest : EndsTest rest) :
    decimal? ((whole ++ if fraction = [] then [] else '.' :: fraction) ++ rest) =
      some (String.ofList (whole ++ if fraction = [] then [] else '.' :: fraction), rest) := by
  obtain ⟨hwholeDigits, hfraction⟩ := List.forall_mem_append.mp hdigits
  have hend : ∀ c ∈ rest.head?, c.isDigit = false := by
    intro c hc
    rcases hrest c hc with rfl | rfl <;> rfl
  obtain ⟨d, ds, rfl⟩ := List.exists_cons_of_ne_nil hwhole
  -- a number without digits behind the point has no point, and none can follow it
  by_cases hnone : fraction = []
  · obtain ⟨htake, hdrop⟩ := Text.takeWhile_append_of_head hwholeDigits hend
    rw [if_pos hnone, List.append_nil, decimal?, htake, hdrop]
    cases rest with
    | nil => rfl
    | cons c tail =>
      have hc : c ≠ '.' := by
        rintro rfl
        simpa using hrest '.' rfl
      simp [hc]
  · have hpoint : ∀ c ∈ ('.' :: (fraction ++ rest)).head?, c.isDigit = false := by
      intro c hc
      cases hc
      rfl
    obtain ⟨htake, hdrop⟩ := Text.takeWhile_append_of_head hwholeDigits hpoint
    obtain ⟨htake', hdrop'⟩ := Text.takeWhile_append_of_head hfraction hend
    rw [← List.cons_append] at htake hdrop
    rw [if_neg hnone, List.append_assoc, decimal?, htake, hdrop]
    simp [htake', hdrop', hnone]

theorem relation?_text (r : Relation) (rest : List Char) :
    relation? (r.text.toList ++ rest) = some (r, rest) := by
  cases r <;> simp [relation?, Relation.text, List.dropPrefix?]

/-- How a variable is read where its properties are tested: as far as the point, and not across a
parenthesis. -/
structure ReadsNode (node? : Reads String) (v : String) : Prop where
  reads : ∀ rest, node? (v.toList ++ '.' :: rest) = some (v, '.' :: rest)
  stops : ∀ rest r, node? ('(' :: (v.toList ++ '.' :: rest)) = some r → r.2.head? ≠ some '.'

theorem takeWhile_point (v cs ds : List Char) :
    (v ++ '.' :: cs).takeWhile (· ≠ '.') = (v ++ '.' :: ds).takeWhile (· ≠ '.') := by
  induction v with
  | nil => rfl
  | cons c v ih =>
    rw [List.cons_append, List.cons_append, List.takeWhile_cons, List.takeWhile_cons, ih]

theorem readsNode_knownName (v : String) : ReadsNode (knownName? v) v where
  reads rest := by rw [knownName?, Text.dropPrefix?_append, Option.map_some]
  stops rest r h hpoint := by
    obtain ⟨after, hafter, rfl⟩ := Option.map_eq_some_iff.mp h
    obtain ⟨v', hv, heq⟩ := List.dropPrefix?_eq_some_iff.mp hafter
    cases eq_of_beq heq
    obtain ⟨tail, rfl⟩ : ∃ tail, after = '.' :: tail := by
      simpa [List.head?_eq_some_iff] using hpoint
    -- the first point would be at two places
    have hlength : (('(' :: (v.toList ++ '.' :: rest)).takeWhile (· ≠ '.')).length =
        ((v.toList ++ '.' :: tail).takeWhile (· ≠ '.')).length := by rw [hv]
    rw [List.takeWhile_cons_of_pos (by decide), List.length_cons, takeWhile_point _ rest tail]
      at hlength
    omega

theorem readsNode_plainName {v : String} (hv : isPlainName v = true) : ReadsNode plainName? v where
  reads rest := plainName?_name hv (by simp; decide)
  stops rest r h := by
    cases h

/-- A test whose operand is a property of a variable, and whose number is a decimal. -/
structure Test.IsOf (v : String) (t : Test) : Prop where
  operand : ∃ key, isPlainName key = true ∧ t.operand = property v key
  decimal : t.relation = .atLeast → ∃ whole fraction, whole ≠ [] ∧
    (∀ c ∈ whole ++ fraction, c.isDigit = true) ∧ t.value.toList = whole ++ if fraction = [] then []
    else '.' :: fraction

variable {node? : Reads String} {v : String}

theorem value?_text {t : Test} (ht : t.IsOf v) {rest : List Char} (hrest : EndsTest rest) :
    value? t.relation (t.valueText.toList ++ rest) = some (t.value, rest) := by
  unfold value? Test.valueText
  by_cases hnumber : t.relation = .atLeast
  · obtain ⟨whole, fraction, hwhole, hdigits, hchars⟩ := ht.decimal hnumber
    rw [if_pos hnumber, if_pos hnumber, hchars, decimal?_point hwhole hdigits hrest, ← hchars,
      String.ofList_toList]
  · rw [if_neg hnumber, if_neg hnumber, literal?_quote]

theorem Test.toList_text (t : Test) :
    t.text.toList = t.operand.toList ++ (t.relation.text.toList ++ t.valueText.toList) := by
  rw [Test.text, String.toList_append, String.toList_append, List.append_assoc]

theorem toList_property (node name : String) :
    (property node name).toList = node.toList ++ '.' :: name.toList := by
  simp [property]

theorem Relation.head_text (r : Relation) (rest : List Char) :
    ∀ c ∈ (r.text.toList ++ rest).head?, isLetterOrDigit c = false := by
  intro c hc
  cases r <;> cases hc <;> decide

theorem test?_text (hnode : ReadsNode node? v) {t : Test} (ht : t.IsOf v) {rest : List Char}
    (hrest : EndsTest rest) : test? node? (t.text.toList ++ rest) = some (t, rest) := by
  obtain ⟨key, hkey, hoperand⟩ := ht.operand
  have hpoint : ∀ cs : List Char, ('.' :: cs).dropPrefix? ['.'] = some cs :=
    Text.dropPrefix?_append ['.']
  have hchars : t.text.toList ++ rest = v.toList ++ '.' ::
      (key.toList ++ (t.relation.text.toList ++ (t.valueText.toList ++ rest))) := by
    rw [t.toList_text, hoperand, toList_property]
    simp only [List.append_assoc, List.cons_append]
  rw [hchars, test?, hnode.reads]
  simp only [Option.bind_eq_bind, Option.bind_some, hpoint,
    plainName?_name hkey (t.relation.head_text _), relation?_text, value?_text ht hrest, ← hoperand]
  rfl

theorem test?_parenthesis (hnode : ReadsNode node? v) (rest : List Char) :
    test? node? ('(' :: (v.toList ++ '.' :: rest)) = none := by
  unfold test?
  cases h : node? ('(' :: (v.toList ++ '.' :: rest)) with
  | none => rfl
  | some r =>
    have hnone : r.2.dropPrefix? ['.'] = none := by
      rw [Option.eq_none_iff_forall_not_mem]
      intro after hafter
      obtain ⟨point, hr, heq⟩ := List.dropPrefix?_eq_some_iff.mp hafter
      cases eq_of_beq heq
      exact hnode.stops rest r h (by rw [hr]; rfl)
    simp [hnone]

/-! ## 4. Reading conditions -/

theorem length_le_intercalate (separator : List Char) (hne : separator ≠ [])
    (xs : List (List Char)) : xs.length ≤ (separator.intercalate xs).length + 1 := by
  have hpos : 0 < separator.length := List.length_pos_iff.mpr hne
  induction xs with
  | nil => simp
  | cons x more ih =>
    by_cases hlast : more = []
    · simp [hlast]
    · rw [List.intercalate_cons_of_ne_nil hlast]
      simp only [List.length_append, List.length_cons]
      omega

/-- Items in a row are read back if each of them is read back before a separator and before the
end. -/
theorem joined?_items {α : Type} {separator : String} {join : Formula → Formula → Formula}
    {item? : Reads Formula} {formula : α → Formula} {chars : α → List Char}
    {Ends : List Char → Prop} {x : α} {xs : List α}
    (hitem : ∀ a ∈ x :: xs, ∀ rest, Ends rest → item? (chars a ++ rest) = some (formula a, rest))
    (hseparator : ∀ cs, Ends (separator.toList ++ cs)) {rest : List Char} (hrest : Ends rest)
    (hstop : rest.dropPrefix? separator.toList = none) {n : Nat} (hn : xs.length ≤ n) :
    joined? separator join item? (n + 1)
      (separator.toList.intercalate ((x :: xs).map chars) ++ rest) =
      some (.joinAll join (formula x) (xs.map formula), rest) := by
  -- by induction on the items that follow; each of them costs one unit of fuel
  induction xs generalizing x n with
  | nil =>
    have hx := hitem x List.mem_cons_self rest hrest
    simp [joined?, hx, hstop, Formula.joinAll]
  | cons y more ih =>
    obtain ⟨hx, hmore⟩ := List.forall_mem_cons.mp hitem
    cases n with
    | zero => cases hn
    | succ n =>
      have hread := ih hmore (Nat.le_of_succ_le_succ hn)
      rw [List.map_cons, List.intercalate_cons_of_ne_nil (by simp), List.append_assoc,
        List.append_assoc, joined?, hx _ (hseparator _)]
      simp only [Option.bind_eq_bind, Option.bind_some, Text.dropPrefix?_append, hread,
        Option.map_some]
      rfl

/-- Comparisons of which one has to hold; there is at least one. -/
structure Alternatives where
  first : Comparison
  others : List Comparison

namespace Alternatives

def toList (a : Alternatives) : List Comparison := a.first :: a.others

def formula (a : Alternatives) : Formula :=
  .joinAll .either (.test a.first.test) (a.others.map fun c => .test c.test)

def IsOf (v : String) (a : Alternatives) : Prop := ∀ c ∈ a.toList, c.test.IsOf v

end Alternatives

/-- What may follow a conjunction. -/
def EndsConjunction (rest : List Char) : Prop :=
  EndsTest rest ∧ rest.dropPrefix? " AND ".toList = none

variable {inner? : Reads Formula}

theorem unit?_test (hnode : ReadsNode node? v) {c : Comparison} (hc : c.test.IsOf v)
    {rest : List Char} (hrest : EndsTest rest) :
    unit? node? inner? (c.text.toList ++ rest) = some (.test c.test, rest) := by
  simp only [unit?, c.text_eq, test?_text hnode hc hrest]

theorem endsTest_and (cs : List Char) : EndsTest (" AND ".toList ++ cs) := by
  intro c hc
  cases hc
  exact .inl rfl

theorem endsConjunction_or (cs : List Char) : EndsConjunction (" OR ".toList ++ cs) := by
  refine ⟨fun c hc => ?_, by simp [List.dropPrefix?]⟩
  cases hc
  exact .inl rfl

/-- Alternatives are read back up to the parenthesis after them. -/
theorem disjunction?_alternatives (hnode : ReadsNode node? v) {a : Alternatives} (ha : a.IsOf v)
    (depth : Nat) (rest : List Char) :
    disjunction? node? (depth + 1)
      ((String.intercalate " OR " (a.toList.map Comparison.text)).toList ++ ')' :: rest) =
      some (a.formula, ')' :: rest) := by
  have hend : EndsConjunction (')' :: rest) := by
    refine ⟨fun c hc => ?_, by simp [List.dropPrefix?]⟩
    cases hc
    exact .inr rfl
  -- each alternative is read as a conjunction of one test
  have hitem : ∀ n, ∀ c ∈ a.first :: a.others, ∀ rest, EndsConjunction rest →
      joined? " AND " .both (unit? node? (disjunction? node? depth)) (n + 1)
        (c.text.toList ++ rest) = some (.test c.test, rest) := by
    intro n c hc rest hrest
    have hunit : ∀ d ∈ [c], ∀ rest, EndsTest rest →
        unit? node? (disjunction? node? depth) (d.text.toList ++ rest) =
          some (.test d.test, rest) := by
      intro d hd rest hrest
      cases List.mem_singleton.mp hd
      exact unit?_test hnode (ha c hc) hrest
    have hread : joined? " AND " .both (unit? node? (disjunction? node? depth)) (n + 1)
        (" AND ".toList.intercalate ([c].map fun d => d.text.toList) ++ rest) =
          some (.joinAll .both (.test c.test) [], rest) :=
      joined?_items hunit endsTest_and hrest.1 hrest.2 (Nat.zero_le n)
    simpa [Formula.joinAll] using hread
  rw [disjunction?, String.toList_intercalate, List.map_map]
  refine joined?_items (hitem _) endsConjunction_or hend (by simp [List.dropPrefix?]) ?_
  have hlength :=
    length_le_intercalate " OR ".toList (by simp) (a.toList.map (String.toList ∘ Comparison.text))
  simp only [Alternatives.toList, List.length_map, List.length_cons, List.length_append]
    at hlength ⊢
  omega

theorem Comparison.exists_toList_text {c : Comparison} (hc : c.test.IsOf v) :
    ∃ tail, c.text.toList = v.toList ++ '.' :: tail := by
  obtain ⟨key, -, hoperand⟩ := hc.operand
  rw [c.text_eq, Test.toList_text, hoperand, toList_property, List.append_assoc]
  exact ⟨_, rfl⟩

/-- Alternatives are read back as one unit. -/
theorem unit?_alternatives (hnode : ReadsNode node? v) {a : Alternatives} (ha : a.IsOf v)
    (depth : Nat) {rest : List Char} (hrest : EndsTest rest) :
    unit? node? (disjunction? node? (depth + 1)) ((alternativesText a.toList).toList ++ rest) =
      some (a.formula, rest) := by
  have hinner := disjunction?_alternatives hnode ha depth rest
  obtain ⟨c, others⟩ := a
  have hc : c.test.IsOf v := ha c List.mem_cons_self
  cases others with
  | nil => exact unit?_test hnode hc hrest
  | cons d more =>
    obtain ⟨tail, htail⟩ := Comparison.exists_toList_text hc
    have hchars : (alternativesText (Alternatives.mk c (d :: more)).toList).toList ++ rest =
        '(' ::
          ((String.intercalate " OR "
          ((Alternatives.mk c (d :: more)).toList.map Comparison.text)).toList ++ ')' :: rest) := by
      simp [alternativesText, Alternatives.toList]
    -- inside stands the variable of a test, so that the parenthesis is not taken for the beginning
    -- of one
    have hfirst : ∃ tail,
        (String.intercalate " OR "
        ((Alternatives.mk c (d :: more)).toList.map Comparison.text)).toList ++ ')' :: rest =
        v.toList ++ '.' :: tail := by
      rw [String.toList_intercalate, Alternatives.toList, List.map_cons, List.map_cons,
        List.intercalate_cons_of_ne_nil (by simp), htail, List.append_assoc, List.append_assoc,
        List.append_assoc]
      exact ⟨_, rfl⟩
    obtain ⟨tail, htail⟩ := hfirst
    rw [htail] at hinner
    rw [hchars, htail, unit?, test?_parenthesis hnode]
    simp only [hinner]

/-- A condition is read back as its alternatives. -/
theorem readCondition?_conjunctionText (hnode : ReadsNode node? v) {a : Alternatives}
    {as : List Alternatives} (h : ∀ b ∈ a :: as, b.IsOf v) :
    readCondition? node? (conjunctionText ((a :: as).map Alternatives.toList)) =
      some (.joinAll .both a.formula (as.map Alternatives.formula)) := by
  generalize hs : conjunctionText ((a :: as).map Alternatives.toList) = s
  have hchars : s.toList = " AND ".toList.intercalate ((a :: as).map fun b =>
      (alternativesText b.toList).toList) := by
    rw [← hs, conjunctionText, String.toList_intercalate, List.map_map, List.map_map]
    rfl
  have hunit : ∀ b ∈ a :: as, ∀ rest, EndsTest rest →
      unit? node? (disjunction? node? (s.length + 1)) ((alternativesText b.toList).toList ++ rest) =
        some (b.formula, rest) :=
    fun b hb rest hrest => unit?_alternatives hnode (h b hb) s.length hrest
  have hfew : as.length ≤ s.toList.length := by
    have hlength := length_le_intercalate " AND ".toList (by simp) ((a :: as).map fun b =>
      (alternativesText b.toList).toList)
    rw [← hchars, List.length_map, List.length_cons] at hlength
    omega
  have hconjunction : joined? " AND " .both (unit? node? (disjunction? node? (s.length + 1)))
      (s.toList.length + 1) s.toList = some (.joinAll .both a.formula (as.map Alternatives.formula),
      []) := by
    have hend : EndsTest [] := by simp [EndsTest]
    have hread : joined? " AND " .both (unit? node? (disjunction? node? (s.length + 1)))
        (s.toList.length + 1) (" AND ".toList.intercalate ((a :: as).map fun b =>
        (alternativesText b.toList).toList) ++ []) =
        some (.joinAll .both a.formula (as.map Alternatives.formula), []) :=
      joined?_items hunit endsTest_and hend rfl hfew
    rwa [List.append_nil, ← hchars] at hread
  -- there is nothing after the only conjunction
  rw [readCondition?, disjunction?, joined?, hconjunction]
  rfl

/-- The tests of a condition are its comparisons, in their order, and it holds if of all
alternatives one does. -/
theorem formula_conjunction (a : Alternatives) (as : List Alternatives) :
    (Formula.joinAll .both a.formula (as.map Alternatives.formula)).tests =
        ((a :: as).map Alternatives.toList).flatten.map Comparison.test ∧
      ∀ truth, (Formula.joinAll .both a.formula (as.map Alternatives.formula)).holds truth ↔
        ∀ cs ∈ (a :: as).map Alternatives.toList, ∃ c ∈ cs, truth c.test := by
  have htests : ∀ b : Alternatives, b.formula.tests = b.toList.map Comparison.test := by
    intro b
    rw [Alternatives.formula, Formula.tests_joinAll (fun _ _ => rfl), Alternatives.toList,
      List.map_cons, List.flatMap_cons, List.flatMap_map, List.map_eq_flatMap]
    rfl
  have hholds : ∀ (b : Alternatives) truth, b.formula.holds truth ↔ ∃ c ∈ b.toList,
      truth c.test := by
    intro b truth
    rw [Alternatives.formula, Formula.holds_joinAll_either, Alternatives.toList]
    simp [Formula.holds]
  constructor
  · rw [Formula.tests_joinAll (fun _ _ => rfl), ← List.map_cons, List.flatMap_map]
    simp [htests, List.map_flatten, List.flatMap_def, Function.comp_def]
  · intro truth
    rw [Formula.holds_joinAll_both, ← List.map_cons]
    simp [hholds]

end CypherBlocks.Cypher

namespace CypherBlocks

open Cypher (Alternatives Comparison Formula HasSign Names Test UsableBytes isPattern isPlainName
  knownName? plainName? property readCondition? usable)

/-! ## 5. Filters -/

/-- What a filter of entities asks for: one of some terms in a property, and a least confidence. -/
structure Sought where
  key : String
  terms : List String
  least : Double

/-- A filter by type does not ask for a confidence. -/
def Params.sought? : Params → Option Sought
  | .ontologyFilter types => some ⟨"ontology_type", types, .zero⟩
  | .nodeFilter p => some ⟨"label", p.labels, p.minConfidence⟩
  | _ => none

namespace Sought

/-- How a term is tested. -/
def termTest (q : Sought) (v term : String) : Test :=
  ⟨property v q.key, if isPattern term then .resembles else .equal, term⟩

def confidenceTest (q : Sought) (v : String) : Test :=
  ⟨property v "confidence", .atLeast, q.least.text⟩

def conditions (q : Sought) (v : String) : List (List Comparison) :=
  (if usable q.terms = [] then [] else [Cypher.comparisons (property v q.key) q.terms]) ++
    confidenceConditions v q.least

/-- The key of a property is plain, and the least confidence is a number. -/
structure IsSound (q : Sought) : Prop where
  plain : isPlainName q.key = true
  finite : q.least.isFinite = true

end Sought

variable {input : EmitInput} {names names' : Names} {p : Params} {o : Output} {q : Sought}

theorem labelConditions_eq (v : String) (labels : List String) :
    labelConditions v labels = if usable labels = [] then []
      else [Cypher.comparisons (property v "label") labels] := by
  unfold labelConditions Cypher.comparisons
  split <;> simp_all

/-- A filter that is accepted keeps what meets its conditions, and it has some. -/
theorem Emits.sought (h : Emits input names p o names') (hq : p.sought? = some q) :
    ∃ v, input.binding = some v ∧ o = filtered input v (q.conditions v) ∧ q.conditions v ≠ [] ∧
      q.IsSound := by
  cases h <;> cases hq
  case ontologyFilter types v hbound hne =>
    have husable : usable types ≠ [] := by simpa [Cypher.comparisons] using hne
    have hnumber : confidenceConditions v Double.zero = [] := rfl
    refine ⟨v, hbound, ?_, ?_, ⟨(by decide : isPlainName "ontology_type" = true), rfl⟩⟩ <;>
      simp [Sought.conditions, husable, hnumber]
  case nodeFilter p v hbound hfinite hne =>
    rw [labelConditions_eq] at hne ⊢
    exact ⟨v, hbound, rfl, hne, ⟨(by decide : isPlainName "label" = true), hfinite⟩⟩

theorem Double.toList_text_of_isPositive {x : Double} (hfinite : x.isFinite = true)
    (hpositive : x.isPositive = true) :
    ∃ whole fraction : List Char, whole ≠ [] ∧ (∀ c ∈ whole ++ fraction, c.isDigit = true) ∧
      x.text.toList = whole ++ if fraction = [] then [] else '.' :: fraction := by
  cases x with
  | nan => cases hfinite
  | infinite neg => cases hfinite
  | finite neg m e =>
    obtain ⟨hneg, hm⟩ : neg = false ∧ m ≠ 0 := by simpa [isPositive] using hpositive
    refine ⟨(shortest m e).wholeDigits, (shortest m e).fractionDigits,
      (shortest m e).wholeDigits_ne_nil, (isDecimal_shortest m e).isDigit, ?_⟩
    rw [← Decimal.toList_text]
    simp [text, hneg, hm]

namespace Sought

theorem test_ofTerm (q : Sought) (v term : String) :
    (Comparison.ofTerm (property v q.key) term).test = q.termTest v term := by
  unfold Comparison.ofTerm termTest
  split <;> rfl

theorem test_atLeast (q : Sought) (v : String) :
    (Comparison.atLeast (property v "confidence") q.least).test = q.confidenceTest v := rfl

/-- All comparisons of a filter are of properties of one variable. -/
theorem IsSound.isOf (h : q.IsSound) (v : String) :
    ∀ cs ∈ q.conditions v, ∀ c ∈ cs, c.test.IsOf v := by
  intro cs hcs c hc
  rcases List.mem_append.mp hcs with hterms | hleast
  · split at hterms
    · cases hterms
    · cases List.mem_singleton.mp hterms
      obtain ⟨term, -, rfl⟩ := List.mem_map.mp hc
      rw [test_ofTerm]
      refine ⟨⟨q.key, h.plain, rfl⟩, fun hnumber => ?_⟩
      unfold termTest at hnumber
      split at hnumber <;> cases hnumber
  · unfold confidenceConditions at hleast
    split at hleast
    · rename_i hpositive
      cases List.mem_singleton.mp hleast
      cases List.mem_singleton.mp hc
      exact ⟨⟨"confidence", by decide, rfl⟩, fun _ =>
        Double.toList_text_of_isPositive h.finite hpositive⟩
    · cases hleast

theorem ne_nil_of_mem_conditions {v : String} : ∀ cs ∈ q.conditions v, cs ≠ [] := by
  intro cs hcs
  unfold conditions confidenceConditions at hcs
  rcases List.mem_append.mp hcs with hterms | hleast
  · split at hterms
    · cases hterms
    · rename_i hne
      cases List.mem_singleton.mp hterms
      simpa [Cypher.comparisons] using hne
  · split at hleast
    · cases List.mem_singleton.mp hleast
      simp
    · cases hleast

theorem tests_conditions (q : Sought) (v : String) : (q.conditions v).flatten.map Comparison.test =
    (usable q.terms).map (q.termTest v) ++ if q.least.isPositive then
      [q.confidenceTest v] else [] := by
  have hterms : (Cypher.comparisons (property v q.key) q.terms).map Comparison.test =
      (usable q.terms).map (q.termTest v) := by
    rw [Cypher.comparisons, List.map_map]
    exact List.map_congr_left fun term _ => q.test_ofTerm v term
  unfold conditions confidenceConditions
  by_cases hnone : usable q.terms = [] <;> by_cases hleast : q.least.isPositive = true <;>
    simp [hnone, hleast, hterms, test_atLeast]

theorem holds_conditions (q : Sought) (v : String) (truth : Test → Prop) :
    (∀ cs ∈ q.conditions v, ∃ c ∈ cs, truth c.test) ↔
    (usable q.terms = [] ∨ ∃ term ∈ usable q.terms, truth (q.termTest v term)) ∧
      (q.least.isPositive = false ∨ truth (q.confidenceTest v)) := by
  have hterms : (∃ c ∈ Cypher.comparisons (property v q.key) q.terms, truth c.test) ↔
      ∃ term ∈ usable q.terms, truth (q.termTest v term) := by
    simp [Cypher.comparisons, test_ofTerm]
  unfold conditions confidenceConditions
  by_cases hnone : usable q.terms = [] <;> by_cases hleast : q.least.isPositive = true <;>
    simp [hnone, hleast, hterms, test_atLeast]

end Sought

/-- Lists that are not empty are alternatives. -/
theorem exists_alternatives {conditions : List (List Comparison)} (hne : conditions ≠ [])
    (h : ∀ cs ∈ conditions, cs ≠ []) : ∃ a as, conditions = (a :: as).map Alternatives.toList := by
  induction conditions with
  | nil => exact absurd rfl hne
  | cons cs rest ih =>
    obtain ⟨hcs, hrest⟩ := List.forall_mem_cons.mp h
    obtain ⟨c, others, rfl⟩ := List.exists_cons_of_ne_nil hcs
    by_cases hlast : rest = []
    · exact ⟨⟨c, others⟩, [], by rw [hlast]; rfl⟩
    · obtain ⟨a, as, ha⟩ := ih hlast hrest
      exact ⟨⟨c, others⟩, a :: as, by rw [ha]; rfl⟩

theorem text_filtered (input : EmitInput) (v : String) (conditions : List (List Comparison)) :
    (filtered input v conditions).text =
      "WITH " ++ String.intercalate ", " (carried input.scope v) ++ "\nWHERE " ++
        Cypher.conjunctionText conditions := by
  have hlines : (filtered input v conditions).text =
      "WITH " ++ String.intercalate ", " (carried input.scope v) ++ "\n" ++
        ("WHERE " ++ Cypher.conjunctionText conditions) := by
    change String.intercalate "\n" [_, _] = _
    rw [String.intercalate_cons_cons, String.intercalate_singleton]
    rfl
  have hwhere : "\nWHERE " = "\n" ++ "WHERE " := rfl
  rw [hlines, hwhere]
  simp only [String.append_assoc]

/-- How a term that is given as bytes is tested: as a regular expression if it has a sign of one,
and against what the bytes say. -/
structure Sought.TestsBytes (q : Sought) (v : String) (term : List UInt8) (t : Test) : Prop where
  operand : t.operand = property v q.key
  relation : t.relation = .resembles ∧ HasSign term ∨ t.relation = .equal ∧ ¬HasSign term
  value : Text.Says term t.value.toList

theorem Sought.testsBytes_iff {v : String} {term : List UInt8} {t : Test} :
    q.TestsBytes v term t ↔ t = q.termTest v (Text.decode term) := by
  have hsign : isPattern (Text.decode term) = true ↔ HasSign term :=
    Cypher.isPattern_decode_iff
  constructor
  · rintro ⟨hoperand, hrelation, hvalue⟩
    obtain ⟨operand, relation, value⟩ := t
    obtain rfl : operand = property v q.key := hoperand
    obtain rfl : value = Text.decode term := String.toList_inj.mp (Text.says_iff.mp hvalue)
    unfold termTest
    rcases hrelation with ⟨rfl, h⟩ | ⟨rfl, h⟩
    · rw [if_pos (hsign.mpr h)]
    · rw [if_neg (mt hsign.mp h)]
  · rintro rfl
    refine ⟨rfl, ?_, Text.says_iff.mpr rfl⟩
    unfold termTest
    split
    · exact .inl ⟨rfl, hsign.mp ‹_›⟩
    · exact .inr ⟨rfl, mt hsign.mpr ‹_›⟩

theorem Sought.forall₂_testsBytes_iff {v : String} {kept : List (List UInt8)} {tests : List Test} :
    List.Forall₂ (q.TestsBytes v) kept tests ↔
      tests = (kept.map Text.decode).map (q.termTest v) := by
  have heach : List.Forall₂ (q.TestsBytes v) kept tests ↔
      List.Forall₂ (fun term t => q.termTest v (Text.decode term) = t) kept tests :=
    ⟨.imp fun _ _ h => (testsBytes_iff.mp h).symm, .imp fun _ _ h => testsBytes_iff.mpr h.symm⟩
  rw [heach, ← List.forall₂_map_left_iff (R := Eq), List.forall₂_eq_eq_eq, List.map_map, eq_comm]
  rfl

/-- The condition of a filter that is accepted is read back, as a conjunction of alternatives, with
a reader that knows the variable and, if that is a plain name, also with one that does not.  It
tests each usable term, in their order, and then the confidence if that has to be positive; and it
holds if one of the terms does, or there is none, and the confidence does, or it does not matter. -/
theorem filter_conditions_read_back {b : Block} (hb : b.params = some p) (hq : p.sought? = some q)
    {terms : List (List UInt8)} (hterms : q.terms = terms.map Text.decode)
    (he : emit b input names = .ok (o, names')) :
    ∃ (v condition : String) (f : Formula) (kept : List (List UInt8)) (tests : List Test),
      input.binding = some v ∧
      o.text = "WITH " ++ String.intercalate ", " (carried input.scope v) ++
        "\nWHERE " ++ condition ∧
      readCondition? (knownName? v) condition = some f ∧
      (isPlainName v = true → readCondition? plainName? condition = some f) ∧
      UsableBytes terms kept ∧ List.Forall₂ (q.TestsBytes v) kept tests ∧
      f.tests = tests ++ (if q.least.isPositive then [q.confidenceTest v] else []) ∧
      ∀ truth, f.holds truth ↔ (kept = [] ∨ ∃ t ∈ tests, truth t) ∧
        (q.least.isPositive = false ∨ truth (q.confidenceTest v)) := by
  obtain ⟨_, hp, hemits⟩ := emit_eq_ok_iff.mp he
  cases hb.symm.trans hp
  obtain ⟨v, hbound, rfl, hne, hsound⟩ := hemits.sought hq
  -- a condition without alternatives would be no text that can be read
  obtain ⟨a, as, hconditions⟩ := exists_alternatives hne Sought.ne_nil_of_mem_conditions
  have hof : ∀ x ∈ a :: as, x.IsOf v := fun x hx =>
    hsound.isOf v _ (hconditions ▸ List.mem_map_of_mem hx)
  obtain ⟨htests, hholds⟩ := Cypher.formula_conjunction a as
  rw [← hconditions] at htests hholds
  obtain ⟨kept, hkept⟩ := Cypher.exists_usableBytes terms
  have husable : usable q.terms = kept.map Text.decode := hterms ▸ hkept.decode_eq
  refine ⟨v, Cypher.conjunctionText (q.conditions v), _, kept,
    (kept.map Text.decode).map (q.termTest v), hbound, text_filtered input v _, ?_,
    fun hplain => ?_, hkept, Sought.forall₂_testsBytes_iff.mpr rfl,
    htests.trans ((q.tests_conditions v).trans ?_),
    fun truth => ((hholds truth).trans (q.holds_conditions v truth)).trans ?_⟩
  · rw [hconditions]
    exact Cypher.readCondition?_conjunctionText (Cypher.readsNode_knownName v) hof
  · rw [hconditions]
    exact Cypher.readCondition?_conjunctionText (Cypher.readsNode_plainName hplain) hof
  · rw [husable]
  · rw [husable]
    simp

/-- Labels that look like the rest of a condition, a blank one, and one with a byte that belongs to
no character. -/
def trickyTerms : List (List UInt8) :=
  [Text.bytes "it's", Text.bytes " x' OR label = 'y ", Text.bytes "\t", Text.bytes "(a) AND b\\",
    [0x61, 0xff, 0x20]]

/-- A filter by these labels with a least confidence of one half. -/
def trickyFilter : NodeFilter :=
  ⟨trickyTerms.map Text.decode, .finite false 4503599627370496 (-53)⟩

theorem usable_trickyFilter :
    usable trickyFilter.labels = ["it's", "x' OR label = 'y", "(a) AND b\\", "a\ufffd"] := by
  decide +kernel

theorem trickyFilter_reads_back :
    ∃ o names' condition f,
      emit ⟨"f", "", some (.nodeFilter trickyFilter)⟩ ⟨some "n1", false, ["n0"]⟩ Names.fresh =
        .ok (o, names') ∧
      o.text = "WITH n0, n1\nWHERE " ++ condition ∧ readCondition? plainName? condition = some f ∧
      f.tests = [⟨"n1.label", .equal, "it's"⟩, ⟨"n1.label", .equal, "x' OR label = 'y"⟩,
        ⟨"n1.label", .resembles, "(a) AND b\\"⟩, ⟨"n1.label", .equal, "a\ufffd"⟩,
        ⟨"n1.confidence", .atLeast, "0.5"⟩] ∧
      ∀ truth, f.holds truth ↔ (truth ⟨"n1.label", .equal, "it's"⟩ ∨
        truth ⟨"n1.label", .equal, "x' OR label = 'y"⟩ ∨
        truth ⟨"n1.label", .resembles, "(a) AND b\\"⟩ ∨ truth ⟨"n1.label", .equal, "a\ufffd"⟩) ∧
        truth ⟨"n1.confidence", .atLeast, "0.5"⟩ := by
  have hpositive : trickyFilter.minConfidence.isPositive = true := rfl
  have hconfidence : confidenceConditions "n1" trickyFilter.minConfidence ≠ [] := by
    rw [confidenceConditions, if_pos hpositive]
    exact List.cons_ne_nil _ _
  have he : ∃ o, emit ⟨"f", "", some (.nodeFilter trickyFilter)⟩ ⟨some "n1", false, ["n0"]⟩
      Names.fresh = .ok (o, Names.fresh) :=
    ⟨_, emit_eq_ok_iff.mpr ⟨_, rfl, .nodeFilter rfl rfl
      (List.append_ne_nil_of_right_ne_nil _ hconfidence)⟩⟩
  obtain ⟨o, he⟩ := he
  obtain ⟨v, condition, f, kept, tests, hbound, htext, -, hread, hkept, hbytes, htests, hholds⟩ :=
    filter_conditions_read_back rfl rfl rfl he
  cases hbound
  -- the blank label is dropped, and the byte that belongs to no character is replaced
  have hlabels : kept.map Text.decode = ["it's", "x' OR label = 'y", "(a) AND b\\", "a\ufffd"] :=
    hkept.decode_eq.symm.trans usable_trickyFilter
  have hpattern : isPattern "(a) AND b\\" = true ∧ isPattern "it's" = false ∧
      isPattern "x' OR label = 'y" = false ∧ isPattern "a\ufffd" = false := by decide +kernel
  have hproperty : property "n1" "label" = "n1.label" := by decide
  rw [Sought.forall₂_testsBytes_iff, hlabels] at hbytes
  obtain rfl : tests = [⟨"n1.label", .equal, "it's"⟩, ⟨"n1.label", .equal, "x' OR label = 'y"⟩,
      ⟨"n1.label", .resembles, "(a) AND b\\"⟩, ⟨"n1.label", .equal, "a\ufffd"⟩] := by
    simp [hbytes, Sought.termTest, hpattern, hproperty]
  have hsome : kept ≠ [] := by
    rintro rfl
    cases hlabels
  have hleast : Sought.confidenceTest ⟨"label", trickyFilter.labels, trickyFilter.minConfidence⟩
      "n1" = ⟨"n1.confidence", .atLeast, "0.5"⟩ := by decide +kernel
  refine ⟨o, _, condition, f, he, htext, hread (by decide), ?_, fun truth =>
    (hholds truth).trans ?_⟩
  · rw [htests, hleast, if_pos hpositive]
    rfl
  · simp [hsome, hpositive, hleast]

end CypherBlocks
