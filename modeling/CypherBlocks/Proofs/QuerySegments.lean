import CypherBlocks.Proofs.QueryReader
import CypherBlocks.Proofs.Texts

/-!
# Clauses as segments

The text of every clause but a note is a legible list of segments.  Its literals are the values that
the clause compares with, and its names are the relationship types that need backticks.
-/

namespace CypherBlocks.Cypher

/-! ## 1. Code -/

instance (s : String) : Decidable (IsCode s) :=
  -- over the characters of the text, not over all characters
  List.decidableBAll (fun c => c ≠ '\'' ∧ c ≠ '\x60' ∧ c ≠ '/') s.toList

@[simp] theorem isCode_append {s t : String} : IsCode (s ++ t) ↔ IsCode s ∧ IsCode t := by
  unfold IsCode
  rw [String.toList_append, List.forall_mem_append]

/-- A character that stands in a number. -/
def IsNumeralChar (c : Char) : Prop := c.isDigit = true ∨ c = '.' ∨ c = '-'

theorem isCode_of_isNumeralChar {s : String} (h : ∀ c ∈ s.toList, IsNumeralChar c) : IsCode s := by
  intro c hc
  rcases h c hc with hdigit | rfl | rfl
  · refine ⟨?_, ?_, ?_⟩ <;> rintro rfl <;> revert hdigit <;> decide
  · decide
  · decide

theorem isNumeralChar_nat (n : Nat) : ∀ c ∈ (toString n).toList, IsNumeralChar c := by
  intro c hc
  rw [Nat.toString_eq_ofList_toDigits, String.toList_ofList] at hc
  exact .inl (Nat.isDigit_of_mem_toDigits (by omega) (by omega) hc)

theorem isNumeralChar_int (n : Int) : ∀ c ∈ (toString n).toList, IsNumeralChar c := by
  cases n with
  | ofNat n => exact isNumeralChar_nat n
  | negSucc n =>
    change ∀ c ∈ ("-" ++ toString (n + 1)).toList, IsNumeralChar c
    rw [String.toList_append]
    exact List.forall_mem_append.mpr ⟨by simp [IsNumeralChar], isNumeralChar_nat _⟩

theorem isNumeralChar_decimal {d : Decimal} (h : d.IsDecimal) :
    ∀ c ∈ d.text.toList, IsNumeralChar c := by
  intro c hc
  have hdigits := h.isDigit
  rw [d.toList_text, List.mem_append] at hc
  rcases hc with hc | hc
  · exact .inl (hdigits c (List.mem_append_left _ hc))
  · split at hc
    · cases hc
    · rcases List.mem_cons.mp hc with rfl | hc
      · exact .inr (.inl rfl)
      · exact .inl (hdigits c (List.mem_append_right _ hc))

theorem isNumeralChar_double {x : Double} (h : x.isFinite = true) :
    ∀ c ∈ x.text.toList, IsNumeralChar c := by
  cases x with
  | finite neg m e =>
    unfold Double.text
    rw [String.toList_append]
    refine List.forall_mem_append.mpr ⟨?_, ?_⟩
    · cases neg <;> simp [IsNumeralChar]
    · split
      · simp +decide [IsNumeralChar]
      · exact isNumeralChar_decimal (Double.isDecimal_shortest m e)
  | infinite neg => cases h
  | nan => cases h

@[simp] theorem isCode_nat (n : Nat) : IsCode (toString n) :=
  isCode_of_isNumeralChar (isNumeralChar_nat n)

@[simp] theorem isCode_int (n : Int) : IsCode (toString n) :=
  isCode_of_isNumeralChar (isNumeralChar_int n)

@[simp] theorem isCode_double (x : Double) : IsCode x.text := by
  cases x with
  | finite neg m e => exact isCode_of_isNumeralChar (isNumeralChar_double rfl)
  | infinite neg => cases neg <;> decide
  | nan => decide

theorem isCode_intercalate {separator : String} {ss : List String} (hseparator : IsCode separator)
    (h : ∀ s ∈ ss, IsCode s) : IsCode (String.intercalate separator ss) := by
  induction ss with
  | nil =>
    rw [String.intercalate_nil]
    decide
  | cons s rest ih =>
    obtain ⟨hs, hrest⟩ := List.forall_mem_cons.mp h
    by_cases hne : rest = []
    · rw [hne, String.intercalate_singleton]
      exact hs
    · rw [String.intercalate_cons_of_ne_nil hne]
      simp only [isCode_append]
      exact ⟨⟨hs, hseparator⟩, ih hrest⟩

theorem isCode_of_isPlainName {s : String} (h : isPlainName s = true) : IsCode s := by
  intro c hc
  have hletter := isLetterOrDigit_of_isPlainName h c hc
  refine ⟨?_, ?_, ?_⟩ <;> rintro rfl <;> revert hletter <;> decide

/-! ## 2. Segments of a clause -/

/-- Lists of segments with a separator between them. -/
def joined (separator : String) (xs : List (List Segment)) : List Segment :=
  List.intercalate [.code separator] xs

/-- A relationship type: code if it is a plain name. -/
def typeSegment (s : String) : Segment := if isPlainName s then .code s else .name s

def typeSegments (types : List String) : List Segment :=
  match usable types with
  | [] => []
  | names => .code ":" :: joined "|" (names.map fun s => [typeSegment s])

namespace Comparison

def segments : Comparison → List Segment
  | .equal p v => [.code s!"{p} = ", .literal v]
  | .resembles p v => [.code s!"{p} =~ ", .literal v]
  | .contains p v => [.code s!"toLower({p}) CONTAINS ", .literal (Text.lower v)]
  | .atLeast p x => [.code s!"{p} >= {x.text}"]

end Comparison

def alternativesSegments : List Comparison → List Segment
  | [] => []
  | [c] => c.segments
  | cs => .code "(" :: joined " OR " (cs.map Comparison.segments) ++ [.code ")"]

/-- What opens and closes the brackets of a relationship. -/
def Arrow.sides : Arrow → String × String
  | .undirected => ("-[", "]-")
  | .outgoing => ("-[", "]->")
  | .incoming => ("<-[", "]-")

namespace Clause

/-- The segments of a clause; a note has none, since all of it is a comment. -/
def segments : Clause → List Segment
  | .matchId v id => [.code s!"MATCH ({v} \x7bid: ", .literal id, .code "\x7d)"]
  | .matchWhere v c => .code s!"MATCH ({v}) WHERE " :: c.segments
  | .matchPath path source types depth arrow target =>
    .code s!"MATCH {path} = ({source}){arrow.sides.1}" :: typeSegments types ++
      [.code s!"*{fewestHops}..{depth}{arrow.sides.2}({target})"]
  | .filter conditions => .code "WHERE " :: joined " AND " (conditions.map alternativesSegments)
  | .note _ => []
  | c => [.code c.text]

/-- The variables and properties that a clause is about. -/
def words : Clause → List String
  | .matchNode v | .matchId v _ => [v]
  | .matchWhere v c => [v, c.property]
  | .matchPath path source _ _ _ target | .matchShortest path source _ target =>
    [path, source, target]
  | .filter conditions => conditions.flatten.map Comparison.property
  | .carry names _ | .returnDistinct names => names
  | .note _ | .limit _ => []

def literals (c : Clause) : List String := c.segments.flatMap Segment.literals

def names (c : Clause) : List String := c.segments.flatMap Segment.names

def frame (c : Clause) : List Char := c.segments.flatMap Segment.frame

end Clause

/-! ## 3. Segments give the text -/

theorem segmentChars_append (as bs : List Segment) :
    segmentChars (as ++ bs) = segmentChars as ++ segmentChars bs :=
  List.flatMap_append

theorem segmentChars_cons (s : Segment) (rest : List Segment) :
    segmentChars (s :: rest) = s.chars ++ segmentChars rest :=
  List.flatMap_cons

/-- What joined segments give one by one is joined by what the separator gives. -/
theorem flatMap_joined_eq_intercalate {α : Type} (k : Segment → List α) (separator : String)
    (xs : List (List Segment)) :
    (joined separator xs).flatMap k = (k (.code separator)).intercalate (xs.map (·.flatMap k)) := by
  unfold joined
  induction xs with
  | nil => rfl
  | cons x rest ih =>
    by_cases hne : rest = []
    · simp [hne]
    · rw [List.intercalate_cons_of_ne_nil hne, List.map_cons,
        List.intercalate_cons_of_ne_nil (by simpa using hne), ← ih]
      simp

theorem segmentChars_joined (separator : String) (xs : List (List Segment)) :
    segmentChars (joined separator xs) = separator.toList.intercalate (xs.map segmentChars) :=
  flatMap_joined_eq_intercalate Segment.chars separator xs

theorem chars_typeSegment (s : String) : (typeSegment s).chars = (nameText s).toList := by
  unfold typeSegment nameText
  split
  · rfl
  · rw [String.toList_ofList]
    rfl

theorem segmentChars_typeSegments (types : List String) :
    segmentChars (typeSegments types) = (relationshipTypes types).toList := by
  unfold typeSegments relationshipTypes
  cases usable types with
  | nil => rfl
  | cons name names =>
    rw [segmentChars_cons, segmentChars_joined, String.toList_append, String.toList_intercalate,
      List.map_map, List.map_map]
    congr 3
    funext s
    simp [segmentChars, chars_typeSegment]

theorem Comparison.segmentChars_segments (c : Comparison) :
    segmentChars c.segments = c.text.toList := by
  cases c <;> simp [segments, text, segmentChars, Segment.chars]

theorem segmentChars_alternatives (cs : List Comparison) :
    segmentChars (alternativesSegments cs) = (alternativesText cs).toList := by
  unfold alternativesSegments alternativesText
  split
  · rfl
  · rename_i c
    exact c.segmentChars_segments
  · rename_i cs _ _
    rw [segmentChars_append, segmentChars_cons, segmentChars_joined, List.map_map]
    rw [show segmentChars ∘ Comparison.segments = String.toList ∘ Comparison.text from
      funext Comparison.segmentChars_segments]
    simp only [String.toList_append, String.toList_intercalate, List.map_map]
    rfl

theorem segmentChars_conjunction (conditions : List (List Comparison)) :
    segmentChars (joined " AND " (conditions.map alternativesSegments)) =
      (conjunctionText conditions).toList := by
  rw [segmentChars_joined, conjunctionText, String.toList_intercalate, List.map_map, List.map_map]
  congr 2
  exact funext segmentChars_alternatives

/-- The segments of a clause make up its text, unless it is a note. -/
theorem Clause.segmentChars_segments (c : Clause) (h : ∀ s, c ≠ .note s) :
    segmentChars c.segments = c.text.toList := by
  cases c with
  | matchId v id => simp [segments, text, segmentChars, Segment.chars]
  | matchWhere v c =>
    rw [segments, segmentChars_cons, c.segmentChars_segments]
    simp [text, Segment.chars]
  | matchPath path source types depth arrow target =>
    rw [segments, segmentChars_append, segmentChars_cons, segmentChars_typeSegments]
    cases arrow <;> simp [text, relationship, segmentChars, Segment.chars, Arrow.sides]
  | filter conditions =>
    rw [segments, segmentChars_cons, segmentChars_conjunction]
    simp [text, Segment.chars]
  | note s => exact absurd rfl (h s)
  | _ => simp [segments, segmentChars, Segment.chars]

/-! ## 4. The segments are legible -/

theorem legible_joined {separator : String} {xs : List (List Segment)} (hcode : IsCode separator)
    (hne : separator ≠ "") (h : ∀ x ∈ xs, Legible true x) : Legible true (joined separator xs) := by
  unfold joined
  induction xs with
  | nil => trivial
  | cons x rest ih =>
    obtain ⟨hx, hrest⟩ := List.forall_mem_cons.mp h
    by_cases hnil : rest = []
    · rw [hnil, List.intercalate_singleton]
      exact hx
    · rw [List.intercalate_cons_of_ne_nil hnil, List.append_assoc]
      exact hx.append ⟨hcode, hne, ih hrest⟩

theorem legible_typeSegment (s : String) : Legible true [typeSegment s] := by
  unfold typeSegment
  split
  · rename_i hplain
    refine ⟨isCode_of_isPlainName hplain, ?_, trivial⟩
    rintro rfl
    cases hplain
  · exact ⟨rfl, trivial⟩

theorem legible_typeSegments (types : List String) : Legible true (typeSegments types) := by
  unfold typeSegments
  split
  · trivial
  · refine ⟨by decide, by decide, legible_joined (by decide) (by decide) ?_⟩
    intro x hx
    obtain ⟨s, -, rfl⟩ := List.mem_map.mp hx
    exact legible_typeSegment s

theorem Comparison.legible_segments {c : Comparison} (h : IsCode c.property) :
    Legible true c.segments := by
  cases c with
  | equal p v | resembles p v | contains p v | atLeast p x =>
    simp +decide only [segments, Legible, isCode_append, Text.toString_eq_self]
    simp +decide
    exact h

theorem legible_alternatives {cs : List Comparison} (h : ∀ c ∈ cs, IsCode c.property) :
    Legible true (alternativesSegments cs) := by
  unfold alternativesSegments
  split
  · trivial
  · exact Comparison.legible_segments (h _ List.mem_cons_self)
  · refine Legible.append ⟨by decide, by decide, legible_joined (by decide) (by decide) ?_⟩
      ⟨by decide, by decide, trivial⟩
    intro x hx
    obtain ⟨c, hc, rfl⟩ := List.mem_map.mp hx
    exact Comparison.legible_segments (h c hc)

theorem Clause.legible_segments {c : Clause} (h : ∀ w ∈ c.words, IsCode w) :
    Legible true c.segments := by
  -- the variables of a clause are code by assumption, and the rest of its code is fixed
  cases c with
  | matchNode v =>
    have hv : IsCode v := h v (by simp [words])
    simp +decide [segments, text, Legible, hv]
  | matchId v id =>
    have hv : IsCode v := h v (by simp [words])
    simp +decide [segments, Legible, hv]
  | matchWhere v c =>
    have hv : IsCode v := h v (by simp [words])
    have hc : Legible true c.segments :=
      Comparison.legible_segments (h c.property (by simp [words]))
    simp +decide [segments, Legible, hv, hc]
  | matchPath path source types depth arrow target =>
    have hpath : IsCode path := h path (by simp [words])
    have hsource : IsCode source := h source (by simp [words])
    have htarget : IsCode target := h target (by simp [words])
    have hsides : IsCode arrow.sides.1 ∧ IsCode arrow.sides.2 := by cases arrow <;> decide
    refine Legible.append ⟨?_, ?_, legible_typeSegments types⟩ ⟨?_, ?_, trivial⟩
    · simp +decide [hpath, hsource, hsides.1]
    · simp
    · simp +decide [-Int.toString_eq_repr, htarget, hsides.2]
    · simp
  | matchShortest path source hops target =>
    have hpath : IsCode path := h path (by simp [words])
    have hsource : IsCode source := h source (by simp [words])
    have htarget : IsCode target := h target (by simp [words])
    simp +decide [-Int.toString_eq_repr, segments, text, relationship, Legible, hpath,
      hsource, htarget]
  | filter conditions =>
    refine ⟨by decide, by decide, legible_joined (by decide) (by decide) ?_⟩
    intro x hx
    obtain ⟨cs, hcs, rfl⟩ := List.mem_map.mp hx
    apply legible_alternatives
    intro c hc
    exact h c.property (List.mem_map_of_mem (List.mem_flatten.mpr ⟨cs, hcs, hc⟩))
  | carry names cap =>
    have hnames : IsCode (String.intercalate ", " names) := isCode_intercalate (by decide) h
    cases cap <;> simp +decide [-Int.toString_eq_repr, segments, text, Legible, hnames]
  | note s => trivial
  | returnDistinct names =>
    have hnames : IsCode (String.intercalate ", " names) := isCode_intercalate (by decide) h
    simp +decide [segments, text, Legible, hnames]
  | limit count => simp +decide [-Int.toString_eq_repr, segments, text, Legible]

/-! ## 5. Reading lines -/

/-- A line that is read as some segments: it is their text, or a comment and nothing else. -/
def IsLine (cs : List Char) (segments : List Segment) : Prop :=
  Legible true segments ∧ cs = segmentChars segments ∨
    segments = [] ∧ ∃ rest, cs = '/' :: '/' :: rest ∧ '\n' ∉ rest

section Reading

variable {ls ns : List String} {f : List Char}

/-- A line and its end are read back, and a new line begins outside of literals, names and
comments. -/
theorem IsLine.run_line {cs : List Char} {segments : List Segment} (h : IsLine cs segments) :
    (Reader.ready ls ns f).run (cs ++ ['\n']) =
      .ready (ls ++ segments.flatMap Segment.literals) (ns ++ segments.flatMap Segment.names)
        (f ++ segments.flatMap Segment.frame ++ ['\n']) := by
  rcases h with ⟨hlegible, rfl⟩ | ⟨rfl, rest, rfl, hfree⟩
  · have hread := run_segments (r := .ready ls ns f) (.inl rfl) (fun _ => rfl) hlegible
    rw [Reader.run_append, Reader.run_cons, hread.step_eq (by decide)]
    have hcode : '\n' ≠ '\'' ∧ '\n' ≠ '\x60' ∧ '\n' ≠ '/' := by decide
    exact Reader.step_code hcode
  · rw [Reader.run_comment hfree]
    simp

theorem run_lines {lines : List (List Char × List Segment)} (h : ∀ l ∈ lines, IsLine l.1 l.2) :
    (Reader.ready ls ns f).run (lines.flatMap (·.1 ++ ['\n'])) =
      .ready (ls ++ lines.flatMap (·.2.flatMap Segment.literals))
        (ns ++ lines.flatMap (·.2.flatMap Segment.names))
        (f ++ lines.flatMap (·.2.flatMap Segment.frame ++ ['\n'])) := by
  induction lines generalizing ls ns f with
  | nil => simp [Reader.run]
  | cons l rest ih =>
    obtain ⟨hl, hrest⟩ := List.forall_mem_cons.mp h
    rw [List.flatMap_cons, Reader.run_append, hl.run_line]
    simp only [List.flatMap_cons, ← List.append_assoc]
    exact ih hrest

theorem intercalate_concat {α : Type} (separator : List α) (xs : List (List α)) (x : List α) :
    separator.intercalate (xs ++ [x]) = xs.flatMap (· ++ separator) ++ x := by
  induction xs with
  | nil => simp
  | cons y rest ih =>
    rw [List.cons_append, List.intercalate_cons_of_ne_nil (by simp), ih, List.flatMap_cons,
      ← List.append_assoc]

/-- A text whose last line is no comment is read back as a whole. -/
theorem readText_lines {lines : List (List Char × List Segment)} {last : List Segment}
    (h : ∀ l ∈ lines, IsLine l.1 l.2) (hlast : Legible true last) {s : String}
    (hs : s.toList = ['\n'].intercalate (lines.map (·.1) ++ [segmentChars last])) :
    readText s =
      .ready ((lines.map (·.2) ++ [last]).flatMap (·.flatMap Segment.literals))
        ((lines.map (·.2) ++ [last]).flatMap (·.flatMap Segment.names))
        (['\n'].intercalate ((lines.map (·.2) ++ [last]).map (·.flatMap Segment.frame))) := by
  rw [readText, hs, intercalate_concat, List.flatMap_map, Reader.run_append, run_lines h,
    List.map_append, List.map_singleton, intercalate_concat]
  have hread := run_segments (r := .ready (lines.flatMap (·.2.flatMap Segment.literals))
    (lines.flatMap (·.2.flatMap Segment.names))
    (lines.flatMap (·.2.flatMap Segment.frame ++ ['\n']))) (.inl rfl) (fun _ => rfl) hlast
  simp only [List.nil_append, List.flatMap_append, List.flatMap_map, List.flatMap_singleton]
  rcases hread with hready | ⟨hmode, hclose⟩
  · rw [hready]
    rfl
  · rw [Reader.finish, hmode]
    exact hclose

end Reading

theorem newline_not_mem_comment (s : String) : '\n' ∉ (comment s).toList := by
  simp [comment]
  intro c hc
  split
  · decide
  · assumption

theorem Clause.isLine {c : Clause} (hwords : ∀ w ∈ c.words, IsCode w) :
    IsLine c.text.toList c.segments := by
  by_cases hnote : ∃ s, c = .note s
  · obtain ⟨s, rfl⟩ := hnote
    refine .inr ⟨rfl, (comment s).toList.drop 2, by simp [text, comment], fun h => ?_⟩
    exact newline_not_mem_comment s (List.mem_of_mem_drop h)
  · exact .inl ⟨legible_segments hwords, (c.segmentChars_segments fun s h => hnote ⟨s, h⟩).symm⟩

/-- The frames of the clauses of a query, one to a line. -/
def linesFrame (clauses : List Clause) : List Char := ['\n'].intercalate (clauses.map Clause.frame)

theorem toList_linesText (clauses : List Clause) :
    (linesText clauses).toList = ['\n'].intercalate (clauses.map (·.text.toList)) := by
  rw [linesText, String.toList_intercalate, List.map_map]
  rfl

/-- A query whose last clause is no note is read back as a whole. -/
theorem readText_linesText {clauses : List Clause} {last : Clause} (hnote : ∀ s, last ≠ .note s)
    (hwords : ∀ c ∈ clauses ++ [last], ∀ w ∈ c.words, IsCode w) :
    readText (linesText (clauses ++ [last])) =
      .ready ((clauses ++ [last]).flatMap Clause.literals)
        ((clauses ++ [last]).flatMap Clause.names) (linesFrame (clauses ++ [last])) := by
  obtain ⟨hinit, hlast⟩ := List.forall_mem_append.mp hwords
  have hlines : ∀ l ∈ clauses.map fun c => (c.text.toList, c.segments), IsLine l.1 l.2 := by
    intro l hl
    obtain ⟨c, hc, rfl⟩ := List.mem_map.mp hl
    exact Clause.isLine (hinit c hc)
  have hread := readText_lines hlines (Clause.legible_segments (hlast last List.mem_cons_self))
    (s := linesText (clauses ++ [last])) (by
      rw [toList_linesText, last.segmentChars_segments hnote, List.map_append, List.map_map]
      rfl)
  rw [hread, linesFrame]
  simp only [List.map_map, List.map_append, List.flatMap_append, List.flatMap_map]
  rfl

/-! ## 6. What is read -/

theorem flatMap_joined {α : Type} (k : Segment → List α) {separator : String}
    (h : k (.code separator) = []) (xs : List (List Segment)) :
    (joined separator xs).flatMap k = xs.flatMap (·.flatMap k) := by
  unfold joined
  induction xs with
  | nil => rfl
  | cons x rest ih =>
    by_cases hne : rest = []
    · simp [hne]
    · rw [List.intercalate_cons_of_ne_nil hne, List.flatMap_append, List.flatMap_append, ih]
      simp [h]

/-- The frame of joined segments depends only on the frames of the parts. -/
theorem frame_joined (separator : String) (xs : List (List Segment)) :
    (joined separator xs).flatMap Segment.frame = separator.toList.intercalate
      (xs.map (·.flatMap Segment.frame)) :=
  flatMap_joined_eq_intercalate Segment.frame separator xs

/-- The value that a comparison compares with, if it is text. -/
def Comparison.literals (c : Comparison) : List String := c.segments.flatMap Segment.literals

theorem flatMap_literals_alternatives (cs : List Comparison) :
    (alternativesSegments cs).flatMap Segment.literals = cs.flatMap Comparison.literals := by
  unfold alternativesSegments
  split
  · rfl
  · simp [Comparison.literals]
  · simp only [List.flatMap_append, List.flatMap_cons, flatMap_joined Segment.literals rfl]
    simp [Segment.literals, List.flatMap_map]
    rfl

theorem Clause.literals_filter (conditions : List (List Comparison)) :
    (Clause.filter conditions).literals = conditions.flatMap (·.flatMap Comparison.literals) := by
  simp only [literals, segments, List.flatMap_cons, flatMap_joined Segment.literals rfl]
  simp [Segment.literals, List.flatMap_map, flatMap_literals_alternatives]

theorem Comparison.flatMap_names (c : Comparison) : c.segments.flatMap Segment.names = [] := by
  cases c <;> rfl

theorem Clause.names_filter (conditions : List (List Comparison)) :
    (Clause.filter conditions).names = [] := by
  simp only [names, segments, List.flatMap_cons, flatMap_joined Segment.names rfl, List.flatMap_map]
  refine List.flatMap_eq_nil_iff.mpr fun cs _ => ?_
  unfold alternativesSegments
  split
  · rfl
  · exact Comparison.flatMap_names _
  · simp only [List.flatMap_append, List.flatMap_cons, flatMap_joined Segment.names rfl,
      List.flatMap_map, Comparison.flatMap_names, List.flatMap_nil]
    simp [Segment.names]

theorem flatMap_literals_typeSegments (types : List String) :
    (typeSegments types).flatMap Segment.literals = [] := by
  unfold typeSegments
  split
  · rfl
  · simp only [List.flatMap_cons, flatMap_joined Segment.literals rfl, List.flatMap_map,
      List.flatMap_nil]
    refine List.flatMap_eq_nil_iff.mpr fun s _ => ?_
    unfold typeSegment
    split <;> rfl

theorem flatMap_names_typeSegment (ss : List String) :
    (ss.flatMap fun s => [typeSegment s].flatMap Segment.names) = ss.filter fun s =>
      !isPlainName s := by
  induction ss with
  | nil => rfl
  | cons s rest ih =>
    rw [List.flatMap_cons, List.filter_cons, ih, typeSegment]
    cases isPlainName s <;> rfl

/-- The names of a list of relationship types are those that are not plain. -/
theorem flatMap_names_typeSegments (types : List String) :
    (typeSegments types).flatMap Segment.names = (usable types).filter fun s => !isPlainName s := by
  unfold typeSegments
  cases usable types with
  | nil => rfl
  | cons name rest =>
    rw [List.flatMap_cons, flatMap_joined Segment.names rfl, List.flatMap_map,
      flatMap_names_typeSegment]
    rfl

/-! ## 7. What is left without payload -/

def Comparison.frame (c : Comparison) : List Char := c.segments.flatMap Segment.frame

theorem frame_alternatives {cs ds : List Comparison}
    (h : cs.map Comparison.frame = ds.map Comparison.frame) :
    (alternativesSegments cs).flatMap Segment.frame = (alternativesSegments ds).flatMap
      Segment.frame := by
  have hlength : cs.length = ds.length := by simpa using congrArg List.length h
  match cs, ds with
  | [], [] => rfl
  | [c], [d] =>
    rw [List.map_singleton, List.map_singleton, List.singleton_inj] at h
    exact h
  | c :: c' :: cs, d :: d' :: ds =>
    simp only [alternativesSegments, List.flatMap_append, List.flatMap_cons,
      frame_joined, List.map_map]
    change _ ++ List.intercalate _ ((c :: c' :: cs).map Comparison.frame) ++ _ =
      _ ++ List.intercalate _ ((d :: d' :: ds).map Comparison.frame) ++ _
    rw [h]

/-- The frame of a condition depends only on the frames of its comparisons. -/
theorem Clause.frame_filter {cs ds : List (List Comparison)}
    (h : cs.map (·.map Comparison.frame) = ds.map (·.map Comparison.frame)) :
    (Clause.filter cs).frame = (Clause.filter ds).frame := by
  have hparts : cs.map (fun x => (alternativesSegments x).flatMap Segment.frame) =
      ds.map fun x => (alternativesSegments x).flatMap Segment.frame := by
    induction cs generalizing ds with
    | nil =>
      cases ds with
      | nil => rfl
      | cons _ _ => cases h
    | cons c cs ih =>
      cases ds with
      | nil => cases h
      | cons d ds =>
        rw [List.map_cons, List.map_cons, List.cons.injEq] at h
        rw [List.map_cons, List.map_cons, frame_alternatives h.1, ih h.2]
  simp only [frame, segments, List.flatMap_cons, frame_joined, List.map_map]
  exact congrArg (fun x => _ ++ List.intercalate _ x) hparts

theorem Comparison.frame_ofTerm {s t : String} (property : String) (h : isPattern s = isPattern t) :
    (ofTerm property s).frame = (ofTerm property t).frame := by
  unfold ofTerm
  rw [h]
  split <;> rfl

theorem frame_typeSegment {s t : String} (hplain : isPlainName s = isPlainName t)
    (hkept : isPlainName s = true → s = t) : (typeSegment s).frame = (typeSegment t).frame := by
  unfold typeSegment
  rw [← hplain]
  by_cases hs : isPlainName s = true
  · rw [hkept hs]
  · rw [if_neg hs, if_neg hs]
    rfl

/-- The frame of a list of relationship types depends only on the frames of its usable entries. -/
theorem frame_typeSegments {ss ts : List String}
    (h : (usable ss).map (fun s => (typeSegment s).frame) = (usable ts).map fun s =>
      (typeSegment s).frame) :
    (typeSegments ss).flatMap Segment.frame = (typeSegments ts).flatMap Segment.frame := by
  unfold typeSegments
  cases hs : usable ss with
  | nil =>
    rw [hs] at h
    rw [List.map_eq_nil_iff.mp h.symm]
  | cons s rest =>
    cases ht : usable ts with
    | nil => simp [hs, ht] at h
    | cons t rest' =>
      rw [hs, ht] at h
      simp only [List.flatMap_cons, frame_joined, List.map_map]
      have hcomp : (fun x => List.flatMap Segment.frame x) ∘ (fun s => [typeSegment s]) = fun s =>
          (typeSegment s).frame := by
        funext s
        simp
      rw [hcomp, h]

end CypherBlocks.Cypher
