import CypherBlocks.Proofs.QuerySegments
import CypherBlocks.Proofs.Scope

/-!
# Reading the pattern of a walk

The relationship types of a pattern are names with bars between them.  A name is a plain identifier,
or it stands in backticks with every backtick in it doubled, and so the names can be told apart
whatever their characters.

The pattern of a walk is read from its end.  What stands before the types is the variable that the
walk starts from, and that one may have any characters at all; the names of the types read the same
backwards.
-/

namespace CypherBlocks.Cypher

/-! ## 1. Words -/

/-- Reads the rest of a word in backticks: up to a backtick that is not doubled. -/
def backticked? : List Char → Option (List Char × List Char)
  | [] => none
  | '\x60' :: '\x60' :: rest => (backticked? rest).map fun r => ('\x60' :: r.1, r.2)
  | '\x60' :: rest => some ([], rest)
  | c :: rest => (backticked? rest).map fun r => (c :: r.1, r.2)

/-- Reads a word: in backticks, or as many letters and digits as there are if they make a plain
word. -/
def word? (plain : List Char → Bool) : List Char → Option (List Char × List Char)
  | '\x60' :: rest => backticked? rest
  | cs =>
    if plain (cs.takeWhile isLetterOrDigit) then
      some (cs.takeWhile isLetterOrDigit, cs.dropWhile isLetterOrDigit) else none

theorem length_backticked? {cs w rest : List Char} (h : backticked? cs = some (w, rest)) :
    rest.length < cs.length := by
  fun_induction backticked? cs generalizing w rest with
  | case1 => cases h
  | case2 tail ih =>
    obtain ⟨r, hr, heq⟩ := Option.map_eq_some_iff.mp h
    have hlength := ih hr
    cases heq
    simp only [List.length_cons]
    omega
  | case3 tail =>
    cases h
    exact Nat.lt_succ_self _
  | case4 c tail _ _ ih =>
    obtain ⟨r, hr, heq⟩ := Option.map_eq_some_iff.mp h
    have hlength := ih hr
    cases heq
    simp only [List.length_cons]
    omega

theorem length_word? {plain : List Char → Bool} {cs w rest : List Char}
    (h : word? plain cs = some (w, rest)) : rest.length ≤ cs.length := by
  unfold word? at h
  split at h
  · have hlength := length_backticked? h
    simp only [List.length_cons]
    omega
  · split at h
    · cases h
      exact (List.dropWhile_sublist _).length_le
    · cases h

/-- Reads one word and, after each bar, one more. -/
def words? (plain : List Char → Bool) (cs : List Char) : Option (List (List Char) × List Char) :=
  match _h : word? plain cs with
  | some (w, '|' :: rest) => (words? plain rest).map fun r => (w :: r.1, r.2)
  | some (w, rest) => some ([w], rest)
  | none => none
termination_by cs.length
decreasing_by
  have hlength := length_word? _h
  simp only [List.length_cons] at hlength
  omega

/-- A word as it is written. -/
def spelled (plain : List Char → Bool) (w : List Char) : List Char :=
  if plain w then w else '\x60' :: w.flatMap escapeBacktick ++ ['\x60']

/-- What may follow a word: nothing that would make it longer. -/
def EndsWord (rest : List Char) : Prop := ∀ c ∈ rest.head?, isLetterOrDigit c = false ∧ c ≠ '\x60'

theorem backticked?_escaped (w : List Char) {rest : List Char} (h : rest.head? ≠ some '\x60') :
    backticked? (w.flatMap escapeBacktick ++ '\x60' :: rest) = some (w, rest) := by
  induction w with
  | nil =>
    cases rest with
    | nil => rfl
    | cons c tail =>
      have hc : c ≠ '\x60' := by simpa using h
      simp [backticked?, hc]
  | cons c w ih =>
    rw [List.flatMap_cons, List.append_assoc]
    by_cases hc : c = '\x60'
    · rw [escapeBacktick, if_pos hc, hc]
      simp [backticked?, ih]
    · rw [escapeBacktick, if_neg hc]
      simp [backticked?, hc, ih]

/-- A word that is written is read back. -/
theorem word?_spelled {plain : List Char → Bool} {w : List Char}
    (hplain : plain w = true → ∀ c ∈ w, isLetterOrDigit c = true) {rest : List Char}
    (hrest : EndsWord rest) : word? plain (spelled plain w ++ rest) = some (w, rest) := by
  by_cases hw : plain w = true
  · have htick : ∀ tail, w ++ rest ≠ '\x60' :: tail := by
      intro tail heq
      cases w with
      | nil =>
        cases heq
        exact (hrest '\x60' rfl).2 rfl
      | cons c w =>
        have hc := hplain hw c List.mem_cons_self
        cases heq
        exact absurd hc (by decide)
    obtain ⟨htake, hdrop⟩ := Text.takeWhile_append_of_head (hplain hw) fun c hc => (hrest c hc).1
    rw [spelled, if_pos hw, word?.eq_2 _ _ htick, htake, hdrop, if_pos hw]
  · have htick : rest.head? ≠ some '\x60' := fun heq => (hrest '\x60' heq).2 rfl
    rw [spelled, if_neg hw, List.append_assoc]
    exact backticked?_escaped w htick

/-- Words with bars between them are read back. -/
theorem words?_spelled {plain : List Char → Bool} {ws : List (List Char)} (hne : ws ≠ [])
    (hplain : ∀ w ∈ ws, plain w = true → ∀ c ∈ w, isLetterOrDigit c = true) {rest : List Char}
    (hrest : EndsWord rest) (hbar : rest.head? ≠ some '|') :
    words? plain (['|'].intercalate (ws.map (spelled plain)) ++ rest) = some (ws, rest) := by
  induction ws with
  | nil => exact absurd rfl hne
  | cons w more ih =>
    obtain ⟨hw, hmore⟩ := List.forall_mem_cons.mp hplain
    -- the last word ends where the rest begins, any other one at the bar after it
    by_cases hlast : more = []
    · rw [hlast, List.map_singleton, List.intercalate_singleton, words?, word?_spelled hw hrest]
      cases rest with
      | nil => rfl
      | cons c tail =>
        have hc : c ≠ '|' := by simpa using hbar
        simp [hc]
    · have hnext : EndsWord ('|' :: (['|'].intercalate (more.map (spelled plain)) ++ rest)) := by
        intro c hc
        cases hc
        decide
      rw [List.map_cons, List.intercalate_cons_of_ne_nil (by simpa using hlast), List.append_assoc,
        List.append_assoc, words?, List.singleton_append, word?_spelled hw hnext]
      simp only [ih hlast hmore, Option.map_some]

/-! ## 2. Relationship types -/

/-- Letters and digits that are a plain name. -/
def plainWord (w : List Char) : Bool := isPlainName (String.ofList w)

/-- The same, read backwards. -/
def plainWordBack (w : List Char) : Bool := plainWord w.reverse

theorem isLetterOrDigit_of_plainWord {w : List Char} (h : plainWord w = true) :
    ∀ c ∈ w, isLetterOrDigit c = true := by
  simpa using isLetterOrDigit_of_isPlainName h

theorem toList_nameText (s : String) : (nameText s).toList = spelled plainWord s.toList := by
  unfold nameText spelled plainWord
  rw [String.ofList_toList]
  split
  · rfl
  · rw [String.toList_ofList]

/-- A name reads the same backwards, since doubled backticks do. -/
theorem reverse_toList_nameText (s : String) :
    (nameText s).toList.reverse = spelled plainWordBack s.toList.reverse := by
  have hescape : List.reverse ∘ escapeBacktick = escapeBacktick := by
    funext c
    simp only [Function.comp_apply, escapeBacktick]
    split <;> rfl
  rw [toList_nameText]
  unfold spelled plainWordBack
  rw [List.reverse_reverse]
  split
  · rfl
  · rw [List.reverse_append, List.reverse_singleton, List.reverse_cons,
      List.reverse_flatMap, hescape]
    rfl

/-- Reads the types of a relationship: after a colon, names with bars between them. -/
def readTypes? : List Char → Option (List String × List Char)
  | ':' :: cs => (words? plainWord cs).map fun r => (r.1.map String.ofList, r.2)
  | cs => some ([], cs)

/-- What may follow the types of a relationship. -/
def EndsTypes (rest : List Char) : Prop :=
  EndsWord rest ∧ rest.head? ≠ some '|' ∧ rest.head? ≠ some ':'

theorem relationshipTypes_eq_empty_iff {types : List String} :
    relationshipTypes types = "" ↔ usable types = [] := by
  unfold relationshipTypes
  split
  · simp_all
  · rename_i hne
    refine ⟨fun h => ?_, fun h => absurd h hne⟩
    simpa using congrArg String.toList h

theorem toList_relationshipTypes {types : List String} (hne : usable types ≠ []) :
    (relationshipTypes types).toList = ':' :: ['|'].intercalate
      (((usable types).map String.toList).map (spelled plainWord)) := by
  unfold relationshipTypes
  split
  · rename_i hnil
    exact absurd hnil hne
  · have hnames : (usable types).map (String.toList ∘ nameText) =
        (usable types).map (spelled plainWord ∘ String.toList) :=
      List.map_congr_left fun s _ => toList_nameText s
    rw [String.toList_append, String.toList_intercalate, List.map_map, List.map_map, hnames]
    rfl

/-- The types of a relationship are read back, without the blank ones and without the blanks around
them. -/
theorem readTypes?_relationshipTypes (types : List String) {rest : List Char}
    (hrest : EndsTypes rest) :
    readTypes? ((relationshipTypes types).toList ++ rest) = some (usable types, rest) := by
  by_cases hne : usable types = []
  · rw [relationshipTypes_eq_empty_iff.mpr hne, hne]
    change readTypes? rest = _
    cases rest with
    | nil => rfl
    | cons c tail =>
      have hc : c ≠ ':' := by simpa using hrest.2.2
      simp [readTypes?, hc]
  · have hwords : words? plainWord
        (['|'].intercalate (((usable types).map String.toList).map (spelled plainWord)) ++ rest) =
        some ((usable types).map String.toList, rest) :=
      words?_spelled (by simpa using hne) (fun w _ h => isLetterOrDigit_of_plainWord h)
        hrest.1 hrest.2.1
    rw [toList_relationshipTypes hne, List.cons_append, readTypes?, hwords,
      Option.map_some, List.map_map]
    congr 2
    exact (List.map_congr_left fun s _ => String.ofList_toList).trans (List.map_id _)

/-! ## 3. A walk, read from its end -/

theorem intercalate_concat_of_ne_nil (separator : List Char) {xs : List (List Char)}
    (hne : xs ≠ []) (x : List Char) :
    separator.intercalate (xs ++ [x]) = separator.intercalate xs ++ separator ++ x := by
  induction xs with
  | nil => exact absurd rfl hne
  | cons y more ih =>
    by_cases hlast : more = []
    · simp [hlast]
    · rw [List.cons_append, List.intercalate_cons_of_ne_nil (by simp), ih hlast,
        List.intercalate_cons_of_ne_nil hlast]
      simp only [List.append_assoc]

theorem reverse_intercalate (c : Char) (xs : List (List Char)) :
    ([c].intercalate xs).reverse = [c].intercalate (xs.reverse.map List.reverse) := by
  induction xs with
  | nil => rfl
  | cons x more ih =>
    by_cases hlast : more = []
    · simp [hlast]
    · rw [List.intercalate_cons_of_ne_nil hlast, List.reverse_append, List.reverse_append, ih,
        List.reverse_singleton, List.reverse_cons, List.map_append, List.map_singleton,
        intercalate_concat_of_ne_nil _ (by simpa using hlast), ← List.append_assoc]

/-- Reads the types backwards, with the colon before them. -/
def typesBack? (cs : List Char) : Option (List String × List Char) :=
  match words? plainWordBack cs with
  | some (ws, ':' :: rest) => some (ws.reverse.map fun w => String.ofList w.reverse, rest)
  | some _ => none
  | none => some ([], cs)

theorem typesBack?_relationshipTypes (types : List String) (rest : List Char) :
    typesBack? ((relationshipTypes types).toList.reverse ++ '[' :: rest) = some (usable types,
      '[' :: rest) := by
  by_cases hne : usable types = []
  · have hnone : words? plainWordBack ('[' :: rest) = none := by
      rw [words?]
      rfl
    rw [relationshipTypes_eq_empty_iff.mpr hne, hne]
    change typesBack? ('[' :: rest) = _
    rw [typesBack?, hnone]
  · have hcolon : EndsWord (':' :: '[' :: rest) := by
      intro c hc
      cases hc
      decide
    -- backwards the names come in the opposite order, and each is spelled backwards
    have hwords : words? plainWordBack
        (['|'].intercalate (((usable types).reverse.map fun s => s.toList.reverse).map
        (spelled plainWordBack)) ++ ':' :: '[' :: rest) = some ((usable types).reverse.map fun s =>
        s.toList.reverse, ':' :: '[' :: rest) :=
      words?_spelled (by simpa using hne) (fun w _ h c hc =>
        isLetterOrDigit_of_plainWord h c (List.mem_reverse.mpr hc)) hcolon (by simp)
    have hnames : (usable types).reverse.map ((List.reverse ∘ spelled plainWord) ∘ String.toList) =
        (usable types).reverse.map (spelled plainWordBack ∘ fun s => s.toList.reverse) :=
      List.map_congr_left fun s _ => by
        rw [Function.comp_apply, Function.comp_apply, ← toList_nameText, reverse_toList_nameText]
        rfl
    have hback : (usable types).map ((fun w => String.ofList w.reverse) ∘ fun s =>
        s.toList.reverse) = usable types := by
      simp [Function.comp_def]
    rw [List.map_map, ← hnames] at hwords
    rw [toList_relationshipTypes hne, List.reverse_cons, reverse_intercalate, List.append_assoc,
      List.singleton_append, ← List.map_reverse, ← List.map_reverse, List.map_map, List.map_map,
      typesBack?, hwords]
    simp only [← List.map_reverse, List.reverse_reverse, List.map_map, hback]

/-- Reads a whole number backwards. -/
def numberBack? (cs : List Char) : Option (Nat × List Char) :=
  if cs.takeWhile Char.isDigit = [] then none
  else some (Nat.ofDigitChars 10 (cs.takeWhile Char.isDigit).reverse 0, cs.dropWhile Char.isDigit)

theorem numberBack?_toDigits (n : Nat) {rest : List Char}
    (hrest : ∀ c ∈ rest.head?, c.isDigit = false) :
    numberBack? ((Nat.toDigits 10 n).reverse ++ rest) = some (n, rest) := by
  have hdigits : ∀ c ∈ (Nat.toDigits 10 n).reverse, c.isDigit = true := fun c hc =>
    Nat.isDigit_of_mem_toDigits (by decide) (by decide) (List.mem_reverse.mp hc)
  have hne : (Nat.toDigits 10 n).reverse ≠ [] := by simp
  obtain ⟨htake, hdrop⟩ := Text.takeWhile_append_of_head hdigits hrest
  rw [numberBack?, htake, hdrop, if_neg hne, List.reverse_reverse, Nat.ofDigitChars_ten_toDigits]

/-- Reads what opens a relationship backwards, and whether it is the head of an arrow. -/
def openingBack? : List Char → Option (Bool × List Char)
  | '[' :: '-' :: '<' :: ')' :: cs => some (true, cs)
  | '[' :: '-' :: ')' :: cs => some (false, cs)
  | _ => none

/-- Reads what closes a relationship backwards, and whether it is the head of an arrow. -/
def closingBack? : List Char → Option (Bool × List Char)
  | '(' :: '>' :: '-' :: ']' :: cs => some (true, cs)
  | '(' :: '-' :: ']' :: cs => some (false, cs)
  | _ => none

/-- The arrow with the given heads. -/
def arrowWith? : (left right : Bool) → Option Arrow
  | false, false => some .undirected
  | false, true => some .outgoing
  | true, false => some .incoming
  | true, true => none

theorem openingBack?_sides (arrow : Arrow) (rest : List Char) :
    openingBack? (arrow.sides.1.toList.reverse ++ ')' :: rest) =
      some (decide (arrow = .incoming), rest) := by
  cases arrow <;> rfl

theorem closingBack?_sides (arrow : Arrow) (rest : List Char) :
    closingBack? ('(' :: (arrow.sides.2.toList.reverse ++ rest)) =
      some (decide (arrow = .outgoing), rest) := by
  cases arrow <;> rfl

theorem arrowWith?_heads (arrow : Arrow) :
    arrowWith? (decide (arrow = .incoming)) (decide (arrow = .outgoing)) = some arrow := by
  cases arrow <;> rfl

/-- Reads the pattern of a walk backwards, without the parenthesis at its start. -/
def patternBack? (path : String) (cs : List Char) : Option Clause := do
  let cs ← cs.dropPrefix? [')']
  let closing ← closingBack? (cs.dropWhile (· ≠ '('))
  let depth ← numberBack? closing.2
  let types ← typesBack? (← depth.2.dropPrefix? "*1..".toList.reverse)
  let opening ← openingBack? types.2
  let arrow ← arrowWith? opening.1 closing.1
  return .matchPath path (String.ofList opening.2.reverse) types.1 depth.1 arrow
    (String.ofList (cs.takeWhile (· ≠ '(')).reverse)

/-- Reads the clause of a walk: the variable of the path, and then the pattern from its end. -/
def readPath? (s : String) : Option Clause := do
  let cs ← s.toList.dropPrefix? "MATCH ".toList
  let pattern ← (cs.dropWhile (· ≠ ' ')).dropPrefix? " = (".toList
  patternBack? (String.ofList (cs.takeWhile (· ≠ ' '))) pattern.reverse

/-- The characters of a pattern after the parenthesis at its start. -/
def patternChars (source : String) (types : List String) (depth : Nat) (arrow : Arrow)
    (target : String) : List Char :=
  source.toList ++
    ([')'] ++ (arrow.sides.1.toList ++
    ((relationshipTypes types).toList ++ ("*1..".toList ++ (Nat.toDigits 10 depth ++
    (arrow.sides.2.toList ++ (['('] ++ (target.toList ++ [')']))))))))

theorem toList_text_matchPath (path source : String) (types : List String) (depth : Nat)
    (arrow : Arrow) (target : String) :
    (Clause.matchPath path source types depth arrow target).text.toList =
      "MATCH ".toList ++
        (path.toList ++ (" = (".toList ++ patternChars source types depth arrow target)) := by
  have hone : (Int.repr 1).toList = ['1'] := by decide
  have hdepth : (Int.repr depth).toList = Nat.toDigits 10 depth := String.toList_ofList
  cases arrow <;> simp [Clause.text, relationship, patternChars, Arrow.sides,
    Clause.fewestHops, hone, hdepth]

theorem patternBack?_patternChars (path source : String) (types : List String) (depth : Nat)
    (arrow : Arrow) {target : String} (htarget : '(' ∉ target.toList) :
    patternBack? path (patternChars source types depth arrow target).reverse =
      some (.matchPath path source (usable types) depth arrow target) := by
  have hopening := openingBack?_sides arrow source.toList.reverse
  generalize hbefore : arrow.sides.1.toList.reverse ++ ')' :: source.toList.reverse =
    before at hopening
  have htypes : ∃ tail, before = '[' :: tail := by
    rw [← hbefore]
    cases arrow <;> exact ⟨_, rfl⟩
  obtain ⟨tail, rfl⟩ := htypes
  -- read from its end, the pattern is the target, a side of the arrow, the depth, the types, the
  -- other side and the source
  have hchars : (patternChars source types depth arrow target).reverse =
      [')'] ++ (target.toList.reverse ++ '(' ::
        (arrow.sides.2.toList.reverse ++ ((Nat.toDigits 10 depth).reverse ++
        ("*1..".toList.reverse ++ ((relationshipTypes types).toList.reverse ++ '[' ::
          tail))))) := by
    rw [← hbefore]
    simp [patternChars]
  have hname : ∀ c ∈ target.toList.reverse, decide (c ≠ '(') = true := by
    intro c hc
    exact decide_eq_true fun h => htarget (h ▸ List.mem_reverse.mp hc)
  have hbracket : ∀ cs : List Char, ∀ c ∈ ('(' :: cs).head?, decide (c ≠ '(') = false := by
    intro cs c hc
    cases hc
    rfl
  obtain ⟨htake, hdrop⟩ := Text.takeWhile_append_of_head hname (hbracket _)
  have hdot :
      ∀ c ∈ ("*1..".toList.reverse ++ ((relationshipTypes types).toList.reverse ++ '[' ::
      tail)).head?, c.isDigit = false := by
    intro c hc
    cases hc
    rfl
  rw [hchars, patternBack?, Text.dropPrefix?_append, Option.bind_eq_bind, Option.bind_some, htake,
    hdrop, closingBack?_sides]
  simp only [Option.bind_eq_bind, Option.bind_some, numberBack?_toDigits depth hdot,
    Text.dropPrefix?_append, typesBack?_relationshipTypes, hopening, arrowWith?_heads,
    List.reverse_reverse, String.ofList_toList]
  rfl

/-- The clause of a walk is read back, whatever its types and whatever variable it starts from. -/
theorem readPath?_text {path target : String} (hpath : ' ' ∉ path.toList)
    (htarget : '(' ∉ target.toList) (source : String) (types : List String) (depth : Nat)
    (arrow : Arrow) :
    readPath? (Clause.matchPath path source types depth arrow target).text =
      some (.matchPath path source (usable types) depth arrow target) := by
  have hname : ∀ c ∈ path.toList, decide (c ≠ ' ') = true :=
    fun c hc => decide_eq_true fun h => hpath (h ▸ hc)
  have hblank : ∀ c ∈ (" = (".toList ++ patternChars source types depth arrow target).head?,
      decide (c ≠ ' ') = false := by
    intro c hc
    cases hc
    rfl
  obtain ⟨htake, hdrop⟩ := Text.takeWhile_append_of_head hname hblank
  rw [readPath?, toList_text_matchPath, Text.dropPrefix?_append, Option.bind_eq_bind,
    Option.bind_some, htake, hdrop, Text.dropPrefix?_append, Option.bind_some, String.ofList_toList,
    patternBack?_patternChars path source types depth arrow htarget]

/-- The direction that an arrow stands for. -/
def Arrow.sense : Arrow → String
  | .undirected => "both"
  | .outgoing => "out"
  | .incoming => "in"

theorem Arrow.sense_inj {a b : Arrow} : a.sense = b.sense ↔ a = b := by
  cases a <;> cases b <;> decide

theorem relationshipTypes_congr {ss ts : List String} (h : usable ss = usable ts) :
    relationshipTypes ss = relationshipTypes ts := by
  rw [relationshipTypes, relationshipTypes, h]

end CypherBlocks.Cypher

namespace CypherBlocks

open Cypher (Arrow Clause Names readPath? readTypes? relationshipTypes usable)

/-! ## 4. Neighborhoods -/

/-- The direction in which a neighborhood is followed; none stands for both. -/
def Neighborhood.sense (p : Neighborhood) : String :=
  if p.direction = "" then "both" else p.direction

variable {input : EmitInput} {names names' : Names} {p : Neighborhood} {o : Output}

theorem sense_of_arrowOf? {arrow : Arrow} (h : arrowOf? p.direction = some arrow) :
    p.sense = arrow.sense := by
  unfold arrowOf? at h
  unfold Neighborhood.sense
  split at h <;> cases h <;> simp_all [Arrow.sense]

/-- A neighborhood is one clause, and it tells of the variables that are new in it. -/
theorem Emits.neighborhood_eq (h : Emits input names (.neighborhood p) o names') :
    ∃ (source : String) (arrow : Arrow) (depth : Nat), input.binding = some source ∧
      p.sense = arrow.sense ∧ p.depth = depth ∧
      o = ⟨[.matchPath names.path source p.relationshipTypes depth arrow names.entity],
        some names.entity, some names.path, none⟩ := by
  cases h with
  | @neighborhood _ source arrow hbound hleast _ harrow _ =>
    obtain ⟨depth, hdepth⟩ :=
      Int.eq_ofNat_of_zero_le (Int.le_trans (by decide : (0 : Int) ≤ fewestHops) hleast)
    exact ⟨source, arrow, depth, hbound, sense_of_arrowOf? harrow, hdepth, by rw [hdepth]⟩

theorem Cypher.Names.readPath?_walk (names : Names) (source : String) (types : List String)
    (depth : Nat) (arrow : Arrow) :
    readPath? (Clause.matchPath names.path source types depth arrow names.entity).text =
      some (.matchPath names.path source (usable types) depth arrow names.entity) := by
  refine Cypher.readPath?_text ?_ ?_ source types depth arrow
  · exact names.path_eq ▸ Cypher.not_mem_numbered (by decide) (by decide) _
  · exact names.entity_eq ▸ Cypher.not_mem_numbered (by decide) (by decide) _

theorem Output.text_singleton (c : Clause) (binding path : Option String) (cap : Option Int) :
    (Output.mk [c] binding path cap).text = c.text :=
  String.intercalate_singleton (s := "\n") (t := c.text)

theorem Cypher.Names.path_inj {names taken : Names} : names.path = taken.path ↔ names = taken := by
  refine ⟨fun h => ?_, fun h => h ▸ rfl⟩
  rw [names.path_eq, taken.path_eq, Cypher.numbered_inj] at h
  cases names
  cases taken
  simpa [Names.number] using h

/-- The text of a walk tells everything about it but blank types and the blanks around the
others. -/
theorem Cypher.Names.text_walk_inj {names taken : Names} {source source' : String}
    {types types' : List String} {depth depth' : Nat} {arrow arrow' : Arrow} :
    (Clause.matchPath names.path source types depth arrow names.entity).text =
        (Clause.matchPath taken.path source' types' depth' arrow' taken.entity).text ↔
      source = source' ∧ names = taken ∧ usable types = usable types' ∧ depth = depth' ∧
        arrow = arrow' := by
  constructor
  · intro h
    have hread := congrArg readPath? h
    rw [names.readPath?_walk, taken.readPath?_walk] at hread
    simp only [Option.some.injEq, Clause.matchPath.injEq, Int.natCast_inj] at hread
    obtain ⟨hpath, hsource, htypes, hdepth, harrow, -⟩ := hread
    exact ⟨hsource, Names.path_inj.mp hpath, htypes, hdepth, harrow⟩
  · rintro ⟨rfl, rfl, htypes, rfl, rfl⟩
    simp only [Clause.text, Cypher.relationshipTypes_congr htypes]

/-- The types of a relationship are read back from their text.  So is the clause of every
neighborhood that is accepted: the variables of its path and of the entities it finds, the variable
it starts from, its usable types, its depth and its direction.  Two neighborhoods have the same text
exactly if they agree on all of these. -/
theorem neighborhoods_read_back :
    (∀ types, readTypes? (relationshipTypes types).toList = some (usable types, []) ∧
      (relationshipTypes types = "" ↔ usable types = [])) ∧
    (∀ (b : Block) (p : Neighborhood) (input : EmitInput) (names names' : Names) (o : Output),
      b.params = some (.neighborhood p) → emit b input names = .ok (o, names') →
      ∃ (path source target : String) (arrow : Arrow), o.path = some path ∧
        input.binding = some source ∧ o.binding = some target ∧
        arrow.sense = p.sense ∧
          readPath? o.text = some (.matchPath path source (usable p.relationshipTypes) p.depth
          arrow target)) ∧
    ∀ (b c : Block) (p q : Neighborhood) (input other : EmitInput)
      (names names' taken taken' : Names) (o o' : Output),
      b.params = some (.neighborhood p) → emit b input names = .ok (o, names') →
      c.params = some (.neighborhood q) → emit c other taken = .ok (o', taken') →
      (o.text = o'.text ↔ input.binding = other.binding ∧ names = taken ∧
        usable p.relationshipTypes = usable q.relationshipTypes ∧
        p.depth = q.depth ∧ p.sense = q.sense) := by
  refine ⟨fun types => ⟨?_, Cypher.relationshipTypes_eq_empty_iff⟩, ?_, ?_⟩
  · have hend : Cypher.EndsTypes [] := by simp [Cypher.EndsTypes, Cypher.EndsWord]
    simpa using Cypher.readTypes?_relationshipTypes types hend
  · intro b p input names names' o hb he
    obtain ⟨_, hp, hemits⟩ := emit_eq_ok_iff.mp he
    cases hb.symm.trans hp
    obtain ⟨source, arrow, depth, hbound, hsense, hdepth, rfl⟩ := hemits.neighborhood_eq
    refine ⟨names.path, source, names.entity, arrow, rfl, hbound, rfl, hsense.symm, ?_⟩
    rw [Output.text_singleton, names.readPath?_walk, hdepth]
  · intro b c p q input other names names' taken taken' o o' hb he hc he'
    obtain ⟨_, hp, hemits⟩ := emit_eq_ok_iff.mp he
    obtain ⟨_, hq, hemits'⟩ := emit_eq_ok_iff.mp he'
    cases hb.symm.trans hp
    cases hc.symm.trans hq
    obtain ⟨source, arrow, depth, hbound, hsense, hdepth, rfl⟩ := hemits.neighborhood_eq
    obtain ⟨source', arrow', depth', hbound', hsense', hdepth', rfl⟩ := hemits'.neighborhood_eq
    -- the number behind the names stands in the text, and with it all the names do
    rw [Output.text_singleton, Output.text_singleton, Cypher.Names.text_walk_inj, hbound, hbound',
      hdepth, hdepth', hsense, hsense', Option.some_inj, Cypher.Arrow.sense_inj, Int.natCast_inj]

/-- A walk whose second type looks like the rest of a pattern. -/
def bracketedWalk : Block :=
  ⟨"walk", "", some (.neighborhood ⟨"", 3, ["KNOWS", " a|\x60:b*1..2]->(x)\n-[", " "],
    ["active"], []⟩)⟩

/-- The same walk with its direction spelled out. -/
def bracketedWalkBoth : Block :=
  ⟨"again", "", some (.neighborhood ⟨"both", 3, ["\tKNOWS", "a|\x60:b*1..2]->(x)\n-["], [], []⟩)⟩

/-- The second type is cut at its bar. -/
def splitWalk : Block :=
  ⟨"split", "", some (.neighborhood ⟨"both", 3, ["KNOWS", "a", "\x60:b*1..2]->(x)\n-["], [], []⟩)⟩

theorem bracketedWalk_reads_back :
    ∃ o o' o'' names', emit bracketedWalk ⟨some "n)-[", false, []⟩ Names.fresh = .ok (o, names') ∧
      emit bracketedWalkBoth ⟨some "n)-[", false, ["x"]⟩ Names.fresh = .ok (o', names') ∧
      emit splitWalk ⟨some "n)-[", false, []⟩ Names.fresh = .ok (o'', names') ∧
      readPath? o.text = some (.matchPath "p1" "n)-[" ["KNOWS", "a|\x60:b*1..2]->(x)\n-["] 3
        .undirected "n1") ∧
      o.text = o'.text ∧ o.text ≠ o''.text := by
  obtain ⟨-, hread, hsame⟩ := neighborhoods_read_back
  have he : ∃ o, emit bracketedWalk ⟨some "n)-[", false, []⟩ Names.fresh = .ok (o, ⟨1⟩) ∧
      o.path = some "p1" ∧ o.binding = some "n1" :=
    ⟨_, rfl, by decide, by decide⟩
  have he' : ∃ o, emit bracketedWalkBoth ⟨some "n)-[", false, ["x"]⟩ Names.fresh = .ok (o, ⟨1⟩) :=
    ⟨_, rfl⟩
  have he'' : ∃ o, emit splitWalk ⟨some "n)-[", false, []⟩ Names.fresh = .ok (o, ⟨1⟩) := ⟨_, rfl⟩
  obtain ⟨o, he, hpath, hbinding⟩ := he
  obtain ⟨o', he'⟩ := he'
  obtain ⟨o'', he''⟩ := he''
  refine ⟨o, o', o'', _, he, he', he'', ?_, ?_, ?_⟩
  · have husable : usable ["KNOWS", " a|\x60:b*1..2]->(x)\n-[", " "] = ["KNOWS",
        "a|\x60:b*1..2]->(x)\n-["] := by
      decide +kernel
    obtain ⟨path, source, target, arrow, hpath', hsource, htarget, hsense, hclause⟩ :=
      hread _ _ _ _ _ _ rfl he
    have harrow : arrow = .undirected := Cypher.Arrow.sense_inj.mp hsense
    cases hpath.symm.trans hpath'
    cases hbinding.symm.trans htarget
    cases hsource
    rw [hclause, husable, harrow]
  · rw [hsame _ _ _ _ _ _ _ _ _ _ _ _ rfl he rfl he']
    decide +kernel
  · rw [Ne, hsame _ _ _ _ _ _ _ _ _ _ _ _ rfl he rfl he'']
    decide +kernel

end CypherBlocks
