import CypherBlocks.Cypher.Clause
import CypherBlocks.Proofs.Digits

/-!
# Reading a query

A reader goes through the text of a query character by character and tells string literals, names in
backticks and comments from the rest.  A literal runs up to the next single quote, and a backslash
takes the next character as it stands; a name runs up to a backtick that is not doubled; a comment
runs from two slashes to the end of the line.

The reader is related to the clauses of a query through segments: the text of a clause is a list of
stretches of code, literals and names, and reading it gives back exactly those.
-/

namespace CypherBlocks.Cypher

/-! ## 1. The reader -/

inductive ReadMode where
  | code
  /-- After one slash. -/
  | slash
  | literal
  /-- After a backslash in a literal. -/
  | escape
  | name
  /-- After a backtick in a name: it ends the name unless another one follows. -/
  | tick
  | comment
  deriving Repr, DecidableEq

structure Reader where
  mode : ReadMode
  /-- What has been read of the literal or name at hand. -/
  payload : List Char
  literals : List String
  names : List String
  /-- The text without the payload of literals and names and without comments. -/
  frame : List Char
  deriving Repr, DecidableEq

namespace Reader

/-- A reader outside of literals, names and comments. -/
def ready (literals names : List String) (frame : List Char) : Reader :=
  ⟨.code, [], literals, names, frame⟩

def readCode (r : Reader) (c : Char) : Reader :=
  if c = '\'' then { r with mode := .literal, frame := r.frame ++ [c] }
  else if c = '\x60' then { r with mode := .name, frame := r.frame ++ [c] }
  else if c = '/' then { r with mode := .slash }
  else { r with mode := .code, frame := r.frame ++ [c] }

/-- Ends the name at hand. -/
def closeName (r : Reader) : Reader :=
  ready r.literals (r.names ++ [String.ofList r.payload]) (r.frame ++ ['\x60'])

def step (r : Reader) (c : Char) : Reader :=
  match r.mode with
  | .code => r.readCode c
  | .slash =>
    if c = '/' then { r with mode := .comment } else { r with frame := r.frame ++ ['/'] }.readCode c
  | .literal =>
    if c = '\\' then { r with mode := .escape }
    else if c = '\'' then ready (r.literals ++ [String.ofList r.payload]) r.names (r.frame ++ [c])
    else { r with payload := r.payload ++ [c] }
  | .escape => { r with mode := .literal, payload := r.payload ++ [c] }
  | .name => if c = '\x60' then { r with mode := .tick } else { r with payload := r.payload ++ [c] }
  | .tick =>
    if c = '\x60' then { r with mode := .name, payload := r.payload ++ [c] }
    else r.closeName.readCode c
  | .comment => if c = '\n' then { r with mode := .code, frame := r.frame ++ [c] } else r

def run (r : Reader) (cs : List Char) : Reader := cs.foldl step r

/-- Settles what depends on the next character when there is none. -/
def finish (r : Reader) : Reader :=
  match r.mode with
  | .tick => r.closeName
  | .slash => { r with mode := .code, frame := r.frame ++ ['/'] }
  | _ => r

/-- Whether the text read so far ends outside of literals and names. -/
def isOutside (r : Reader) : Bool := r.mode = .code || r.mode = .comment

end Reader

/-- What a reader finds in a whole text. -/
def readText (s : String) : Reader := ((Reader.ready [] [] []).run s.toList).finish

/-! ## 2. Reading one segment -/

/-- A stretch of a query. -/
inductive Segment where
  | code (s : String)
  | literal (s : String)
  | name (s : String)
  deriving Repr, DecidableEq

namespace Segment

def chars : Segment → List Char
  | .code s => s.toList
  | .literal s => (quote s).toList
  | .name s => '\x60' :: s.toList.flatMap escapeBacktick ++ ['\x60']

/-- What is left of a segment without its payload. -/
def frame : Segment → List Char
  | .code s => s.toList
  | .literal _ => ['\'', '\'']
  | .name _ => ['\x60', '\x60']

def literals : Segment → List String
  | .literal s => [s]
  | _ => []

def names : Segment → List String
  | .name s => [s]
  | _ => []

end Segment

/-- Text that opens no literal, no name and no comment. -/
def IsCode (s : String) : Prop := ∀ c ∈ s.toList, c ≠ '\'' ∧ c ≠ '\x60' ∧ c ≠ '/'

namespace Reader

variable {r : Reader} {ls ns : List String} {f : List Char}

theorem run_append (r : Reader) (as bs : List Char) : r.run (as ++ bs) = (r.run as).run bs :=
  List.foldl_append

theorem run_cons (r : Reader) (c : Char) (cs : List Char) : r.run (c :: cs) = (r.step c).run cs :=
  rfl

/-- A reader that has found the given literals, names and frame, and stands outside of them or right
after a name. -/
def At (r : Reader) (ls ns : List String) (f : List Char) : Prop :=
  r = ready ls ns f ∨ r.mode = .tick ∧ r.closeName = ready ls ns f

theorem At.step_eq (h : r.At ls ns f) {c : Char} (hc : c ≠ '\x60') :
    r.step c = (ready ls ns f).step c := by
  rcases h with rfl | ⟨hmode, hclose⟩
  · rfl
  · unfold step
    rw [hmode]
    simp only [if_neg hc, hclose]
    rfl

theorem step_code {c : Char} (h : c ≠ '\'' ∧ c ≠ '\x60' ∧ c ≠ '/') :
    (ready ls ns f).step c = ready ls ns (f ++ [c]) := by
  obtain ⟨hquote, htick, hslash⟩ := h
  change (ready ls ns f).readCode c = _
  rw [readCode, if_neg hquote, if_neg htick, if_neg hslash]
  rfl

/-- Code is kept as it is, and after it a name may follow. -/
theorem run_code {cs : List Char} (hcs : ∀ c ∈ cs, c ≠ '\'' ∧ c ≠ '\x60' ∧ c ≠ '/') :
    (ready ls ns f).run cs = ready ls ns (f ++ cs) := by
  induction cs generalizing f with
  | nil => rw [List.append_nil]; rfl
  | cons c rest ih =>
    obtain ⟨hc, hrest⟩ := List.forall_mem_cons.mp hcs
    rw [run_cons, step_code hc, ih hrest, List.append_assoc]
    rfl

theorem At.run_code (h : r.At ls ns f) {s : String} (hs : IsCode s) (hne : s ≠ "") :
    r.run s.toList = ready ls ns (f ++ s.toList) := by
  unfold IsCode at hs
  cases hcs : s.toList with
  | nil => exact absurd (String.toList_eq_nil_iff.mp hcs) hne
  | cons c rest =>
    rw [hcs] at hs
    have hc := hs c List.mem_cons_self
    rw [run_cons, h.step_eq hc.2.1, ← run_cons, Reader.run_code hs]

/-- Inside of a literal an escaped character is read as itself. -/
theorem run_escapeChar {payload : List Char} (c : Char) :
    (Reader.mk .literal payload ls ns f).run (escapeChar c) = ⟨.literal, payload ++ [c],
      ls, ns, f⟩ := by
  by_cases h : c = '\\' ∨ c = '\''
  · rw [escapeChar, if_pos (by simpa using h)]
    rfl
  · rw [escapeChar, if_neg (by simpa using h)]
    rw [not_or] at h
    rw [run_cons, step]
    simp only [if_neg h.1, if_neg h.2]
    rfl

theorem run_escaped {payload : List Char} (cs : List Char) :
    (Reader.mk .literal payload ls ns f).run (cs.flatMap escapeChar) = ⟨.literal, payload ++ cs,
      ls, ns, f⟩ := by
  induction cs generalizing payload with
  | nil => rw [List.append_nil]; rfl
  | cons c rest ih =>
    rw [List.flatMap_cons, run_append, run_escapeChar, ih, List.append_assoc]
    rfl

/-- A literal is read back as the text that it was made of. -/
theorem At.run_literal (h : r.At ls ns f) (s : String) :
    r.run (quote s).toList = ready (ls ++ [s]) ns (f ++ ['\'', '\'']) := by
  rw [quote, String.toList_ofList, List.cons_append, run_cons, h.step_eq (by decide)]
  change (Reader.mk .literal [] ls ns (f ++ ['\''])).run _ = _
  rw [run_append, run_escaped, List.nil_append]
  change ready (ls ++ [String.ofList s.toList]) ns (f ++ ['\''] ++ ['\'']) = _
  rw [String.ofList_toList, List.append_assoc]
  rfl

theorem run_escapeBacktick {payload : List Char} (c : Char) :
    (Reader.mk .name payload ls ns f).run (escapeBacktick c) = ⟨.name, payload ++ [c],
      ls, ns, f⟩ := by
  by_cases h : c = '\x60'
  · rw [escapeBacktick, if_pos h, h]
    rfl
  · rw [escapeBacktick, if_neg h, run_cons, step]
    simp only [if_neg h]
    rfl

theorem run_backticked {payload : List Char} (cs : List Char) :
    (Reader.mk .name payload ls ns f).run (cs.flatMap escapeBacktick) = ⟨.name, payload ++ cs,
      ls, ns, f⟩ := by
  induction cs generalizing payload with
  | nil => rw [List.append_nil]; rfl
  | cons c rest ih =>
    rw [List.flatMap_cons, run_append, run_escapeBacktick, ih, List.append_assoc]
    rfl

/-- A name in backticks is read back; only the next character tells that it is over. -/
theorem run_name (s : String) :
    ((ready ls ns f).run (Segment.name s).chars).At ls (ns ++ [s]) (f ++ ['\x60', '\x60']) := by
  change ((Reader.mk .name [] ls ns (f ++ ['\x60'])).run
    (s.toList.flatMap escapeBacktick ++ ['\x60'])).At _ _ _
  rw [run_append, run_backticked, List.nil_append]
  right
  refine ⟨rfl, ?_⟩
  change ready ls (ns ++ [String.ofList s.toList]) (f ++ ['\x60'] ++ ['\x60']) = _
  rw [String.ofList_toList, List.append_assoc]
  rfl

/-- A comment leaves nothing behind but the end of its line. -/
theorem run_comment {cs : List Char} (hcs : '\n' ∉ cs) :
    (ready ls ns f).run ('/' :: '/' :: cs ++ ['\n']) = ready ls ns (f ++ ['\n']) := by
  change (Reader.mk .comment [] ls ns f).run (cs ++ ['\n']) = _
  have hkept : (Reader.mk .comment [] ls ns f).run cs = ⟨.comment, [], ls, ns, f⟩ := by
    induction cs with
    | nil => rfl
    | cons c rest ih =>
      rw [List.mem_cons, not_or] at hcs
      rw [run_cons]
      have hc : (Reader.mk .comment [] ls ns f).step c = ⟨.comment, [], ls, ns, f⟩ := by
        unfold step
        simp only [if_neg (Ne.symm hcs.1)]
      rw [hc, ih hcs.2]
  rw [run_append, hkept]
  rfl

end Reader

/-! ## 3. Reading segments -/

/-- Segments that can be told apart: code is code, and two names do not touch. `afterCode` says that
a name may come first. -/
def Legible : Bool → List Segment → Prop
  | _, [] => True
  | _, .code s :: rest => IsCode s ∧ s ≠ "" ∧ Legible true rest
  | _, .literal _ :: rest => Legible true rest
  | afterCode, .name _ :: rest => afterCode = true ∧ Legible false rest

theorem Legible.of_false {segments : List Segment} (h : Legible false segments) (afterCode : Bool) :
    Legible afterCode segments := by
  cases segments with
  | nil => trivial
  | cons s rest =>
    cases s with
    | code _ => exact h
    | literal _ => exact h
    | name _ => exact absurd h.1 (by decide)

theorem Legible.append {afterCode : Bool} {as bs : List Segment} (ha : Legible afterCode as)
    (hb : Legible false bs) : Legible afterCode (as ++ bs) := by
  induction as generalizing afterCode with
  | nil => exact hb.of_false afterCode
  | cons s rest ih =>
    cases s with
    | code _ => exact ⟨ha.1, ha.2.1, ih ha.2.2⟩
    | literal _ => exact ih ha
    | name _ => exact ⟨ha.1, ih ha.2⟩

def segmentChars (segments : List Segment) : List Char := segments.flatMap Segment.chars

/-- Legible segments are read back: their literals, their names and what is left without them. -/
theorem run_segments {r : Reader} {ls ns : List String} {f : List Char} {segments : List Segment}
    {afterCode : Bool} (hr : r.At ls ns f) (hafter : afterCode = true → r = .ready ls ns f)
    (h : Legible afterCode segments) :
    (r.run (segmentChars segments)).At (ls ++ segments.flatMap Segment.literals)
      (ns ++ segments.flatMap Segment.names)
      (f ++ segments.flatMap Segment.frame) := by
  -- by induction on the segments; right after a name the backtick of another would be read as a
  -- doubled one, so names follow code
  induction segments generalizing r ls ns f afterCode with
  | nil =>
    simp only [List.flatMap_nil, List.append_nil]
    exact hr
  | cons s rest ih =>
    simp only [segmentChars, List.flatMap_cons, Reader.run_append, ← List.append_assoc]
    cases s with
    | code s =>
      obtain ⟨hcode, hne, hrest⟩ := h
      have hs : r.run (Segment.code s).chars = .ready ls ns (f ++ s.toList) := hr.run_code hcode hne
      rw [hs]
      simp only [Segment.literals, Segment.names, List.append_nil]
      exact ih (.inl rfl) (fun _ => rfl) hrest
    | literal s =>
      have hs : r.run (Segment.literal s).chars = .ready (ls ++ [s]) ns (f ++ ['\'', '\'']) :=
        hr.run_literal s
      rw [hs]
      simp only [Segment.literals, Segment.names, List.append_nil]
      exact ih (.inl rfl) (fun _ => rfl) h
    | name s =>
      obtain ⟨hcode, hrest⟩ := h
      rw [hafter hcode]
      simp only [Segment.literals, Segment.names, List.append_nil]
      exact ih (Reader.run_name s) (fun h => absurd h (by decide)) hrest

end CypherBlocks.Cypher
