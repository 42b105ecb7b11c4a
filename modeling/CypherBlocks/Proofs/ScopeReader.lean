import CypherBlocks.Proofs.QuerySegments
import CypherBlocks.Proofs.Scope

/-!
# Reading what a query does with variables

Without comments and the payload of literals and names, a query is made of words and signs.  It is
cut into clauses at the keywords, and each clause is read on its own: the variables of a pattern,
the variables that a condition mentions, the variables of a list.  What has none of the expected
forms is not read at all.
-/

namespace CypherBlocks.Cypher

/-! ## 1. Words and signs -/

inductive Token where
  | word (s : String)
  | sign (c : Char)
  deriving Repr, DecidableEq

def wordToken (cs : List Char) : List Token := if cs = [] then [] else [.word (String.ofList cs)]

def signToken (c : Char) : List Token := if Text.isBlankChar c then [] else [.sign c]

/-- The words and signs of a text whose first word has begun already. -/
def tokensFrom (word : List Char) : List Char → List Token
  | [] => wordToken word
  | c :: cs =>
    if isLetterOrDigit c then tokensFrom (word ++ [c]) cs
    else wordToken word ++ signToken c ++ tokensFrom [] cs

/-- Words are made of letters and digits; any other character that is not blank is a sign. -/
def tokens (cs : List Char) : List Token := tokensFrom [] cs

/-! ## 2. Clauses -/

inductive Keyword where
  | pattern | condition | carry | result | limit
  deriving Repr, DecidableEq

def Keyword.text : Keyword → String
  | .pattern => "MATCH"
  | .condition => "WHERE"
  | .carry => "WITH"
  | .result => "RETURN"
  | .limit => "LIMIT"

def Token.keyword? : Token → Option Keyword
  | .word s => [Keyword.pattern, .condition, .carry, .result, .limit].find? (·.text = s)
  | .sign _ => none

/-- Whether the next word is the name of a relationship type, whatever it is. -/
def Token.opensType : Token → Bool
  | .word _ => false
  | .sign c => c = ':' || c = '|'

/-- What stands before the first keyword, and each keyword with what follows it up to the next. -/
def splitClauses (typed : Bool) : List Token → List Token × List (Keyword × List Token)
  | [] => ([], [])
  | t :: ts =>
    let r := splitClauses t.opensType ts
    match if typed then none else t.keyword? with
    | some k => ([], (k, r.1) :: r.2)
    | none => (t :: r.1, r.2)

/-! ## 3. Patterns -/

def nextWord? : List Token → Option (String × List Token)
  | .word s :: rest => some (s, rest)
  | _ => none

def signs (s : String) : List Token := s.toList.map .sign

/-- Drops a sign if it comes next. -/
def dropSign (c : Char) (ts : List Token) : List Token :=
  if ts.head? = some (.sign c) then ts.tail else ts

/-- The properties of a node: one that is compared with a text, or none. -/
def properties? (ts : List Token) : Option (List Token) :=
  match ts.dropPrefix? (signs "\x7b") with
  | none => some ts
  | some ts => do
    let key ← nextWord? ts
    key.2.dropPrefix? (signs ":''\x7d")

/-- A node with its variable. -/
def node? (ts : List Token) : Option (String × List Token) := do
  let v ← nextWord? (← ts.dropPrefix? (signs "("))
  return (v.1, ← (← properties? v.2).dropPrefix? (signs ")"))

/-- A relationship without a variable, in any direction. -/
def relationship? (ts : List Token) : Option (List Token) := do
  let ts ← (dropSign '<' ts).dropPrefix? (signs "-[")
  if (nextWord? ts).isSome then none
  else
    let ts ← (ts.dropWhile (· ≠ .sign ']')).dropPrefix? (signs "]-")
    return dropSign '>' ts

/-- Two nodes and the relationship between them. -/
def ends? (ts : List Token) : Option ((String × String) × List Token) := do
  let source ← node? ts
  let target ← node? (← relationship? source.2)
  return ((source.1, target.1), target.2)

/-- What a pattern starts from and what it introduces.  A single node is new.  A path is new
together with its last node and starts from the first; between two nodes that are known a shortest
path can be looked for. -/
def pattern? (ts : List Token) : Option ScopeStep :=
  match (nextWord? ts).bind fun path => (path.2.dropPrefix? (signs "=")).map (path.1, ·) with
  | none =>
    match node? ts with
    | some (v, []) => some (.pattern [] [v])
    | _ => none
  | some (path, ts) =>
    match ts.dropPrefix? [.word "shortestPath", .sign '('] with
    | none =>
      match ends? ts with
      | some ((source, target), []) => some (.pattern [source] [path, target])
      | _ => none
    | some ts =>
      match ends? ts with
      | some ((source, target), [.sign ')']) => some (.pattern [source, target] [path])
      | _ => none

/-! ## 4. Conditions and lists -/

/-- The words of a condition that are no variables. -/
def operators : List String := ["AND", "OR", "CONTAINS"]

/-- The variables that stand in a condition: all words but operators, numbers, the names of
functions and what follows a point. -/
def mentionsFrom (afterPoint : Bool) : List Token → List String
  | [] => []
  | .sign c :: ts => mentionsFrom (c = '.') ts
  | .word s :: ts =>
    if afterPoint || s ∈ operators || !isPlainName s || ts.head? = some (.sign '(') then
      mentionsFrom false ts
    else s :: mentionsFrom false ts

/-- Words with commas between them. -/
def listed? : List Token → Option (List String)
  | [] => none
  | .sign _ :: _ => none
  | [.word s] => some [s]
  | .word s :: t :: ts => if t = .sign ',' then (listed? ts).map (s :: ·) else none

/-- What a clause does with variables. -/
def Keyword.steps? (ts : List Token) : Keyword → Option (List ScopeStep)
  | .pattern => (pattern? ts).map ([·])
  | .condition => some [.condition (mentionsFrom false ts)]
  | .carry => (listed? ts).map ([.carry ·])
  | .result => (listed? ((ts.dropPrefix? [.word "DISTINCT"]).getD ts)).map ([.result ·])
  | .limit => if mentionsFrom false ts = [] then some [] else none

/-- What a query does with variables, in order. -/
def readSteps? (ts : List Token) : Option (List ScopeStep) :=
  match splitClauses false ts with
  | ([], clauses) => (clauses.mapM fun c : Keyword × List Token => c.1.steps? c.2).map List.flatten
  | _ => none

/-! ## 5. The words and signs of a text -/

/-- Whether no word goes on where a text begins. -/
def beginsApart (cs : List Char) : Bool := !cs.head?.any isLetterOrDigit

/-- Whether no word goes on where a text ends. -/
def endsApart (cs : List Char) : Bool := !cs.getLast?.any isLetterOrDigit

section Tokens

variable {cs ds : List Char}

theorem tokensFrom_append (word : List Char) (h : beginsApart ds = true) :
    tokensFrom word (cs ++ ds) = tokensFrom word cs ++ tokens ds := by
  induction cs generalizing word with
  | nil =>
    cases ds with
    | nil => simp [tokens, tokensFrom, wordToken]
    | cons d ds =>
      have hd : isLetterOrDigit d = false := by simpa [beginsApart] using h
      simp [tokens, tokensFrom, wordToken, hd]
  | cons c cs ih =>
    rw [List.cons_append, tokensFrom, tokensFrom]
    split
    · exact ih _
    · simp only [ih, List.append_assoc]

theorem tokens_append_right (h : beginsApart ds = true) :
    tokens (cs ++ ds) = tokens cs ++ tokens ds :=
  tokensFrom_append [] h

theorem tokens_append_left (h : endsApart cs = true) :
    tokens (cs ++ ds) = tokens cs ++ tokens ds := by
  rcases List.eq_nil_or_concat cs with rfl | ⟨init, c, rfl⟩
  · rfl
  · have hc : isLetterOrDigit c = false := by simpa [endsApart] using h
    have hsign : ∀ rest, tokens (c :: rest) = signToken c ++ tokens rest := by
      intro rest
      simp [tokens, tokensFrom, wordToken, hc]
    have hbegins : ∀ rest, beginsApart (c :: rest) = true := by
      intro rest
      simp [beginsApart, hc]
    rw [List.concat_eq_append, List.append_assoc, List.singleton_append,
      tokens_append_right (hbegins ds), tokens_append_right (hbegins []), hsign, hsign]
    simp [tokens, tokensFrom, wordToken]

theorem tokensFrom_letters {word : List Char} (h : ∀ c ∈ cs, isLetterOrDigit c = true) :
    tokensFrom word cs = wordToken (word ++ cs) := by
  induction cs generalizing word with
  | nil => rw [tokensFrom, List.append_nil]
  | cons c cs ih =>
    obtain ⟨hc, hcs⟩ := List.forall_mem_cons.mp h
    rw [tokensFrom, if_pos hc, ih hcs, List.append_assoc, List.singleton_append]

theorem tokens_letters (h : ∀ c ∈ cs, isLetterOrDigit c = true) : tokens cs = wordToken cs :=
  tokensFrom_letters h

theorem tokens_plainName {s : String} (h : isPlainName s = true) : tokens s.toList = [.word s] := by
  have hne : s.toList ≠ [] := by
    intro hnil
    rw [isPlainName, hnil] at h
    cases h
  rw [tokens_letters (isLetterOrDigit_of_isPlainName h), wordToken, if_neg hne,
    String.ofList_toList]

end Tokens

/-- A token that stands in a number. -/
def Token.IsNumeral : Token → Prop
  | .word s => ∃ c cs, s.toList = c :: cs ∧ c.isDigit = true
  | .sign c => c = '.' ∨ c = '-'

theorem isLetterOrDigit_of_isDigit {c : Char} (h : c.isDigit = true) :
    isLetterOrDigit c = true := by
  have hdigit : (decide ('0' ≤ c) && decide (c ≤ '9')) = true := h
  rw [isLetterOrDigit, hdigit, Bool.or_true]

theorem isLetter_of_isDigit {c : Char} (h : c.isDigit = true) : isLetter c = false := by
  rw [Bool.eq_false_iff]
  intro hletter
  simp only [Char.isDigit, isLetter, Bool.or_eq_true, Bool.and_eq_true, decide_eq_true_eq,
    ge_iff_le, Char.le_def, UInt32.le_iff_toNat_le] at h hletter
  rcases hletter with (hletter | hletter) | rfl
  · simp at h hletter
    omega
  · simp at h hletter
    omega
  · revert h
    decide

theorem isNumeral_wordToken {cs : List Char} (h : ∀ c ∈ cs, c.isDigit = true) :
    ∀ t ∈ wordToken cs, t.IsNumeral := by
  cases cs with
  | nil => simp [wordToken]
  | cons c cs => simpa [wordToken, Token.IsNumeral] using h c List.mem_cons_self

theorem isNumeral_tokensFrom {word cs : List Char} (hword : ∀ c ∈ word, c.isDigit = true)
    (h : ∀ c ∈ cs, IsNumeralChar c) : ∀ t ∈ tokensFrom word cs, t.IsNumeral := by
  induction cs generalizing word with
  | nil => exact isNumeral_wordToken hword
  | cons c cs ih =>
    obtain ⟨hc, hcs⟩ := List.forall_mem_cons.mp h
    rw [tokensFrom]
    rcases hc with hdigit | hsign
    · rw [if_pos (isLetterOrDigit_of_isDigit hdigit)]
      exact ih (List.forall_mem_append.mpr ⟨hword, by simpa using hdigit⟩) hcs
    · have hbreak : ¬isLetterOrDigit c = true := by rcases hsign with rfl | rfl <;> decide
      have htoken : signToken c = [.sign c] := by rcases hsign with rfl | rfl <;> rfl
      rw [if_neg hbreak, htoken, List.append_assoc]
      refine List.forall_mem_append.mpr ⟨isNumeral_wordToken hword, ?_⟩
      exact List.forall_mem_cons.mpr ⟨hsign, ih (by simp) hcs⟩

theorem isNumeral_tokens {cs : List Char} (h : ∀ c ∈ cs, IsNumeralChar c) :
    ∀ t ∈ tokens cs, t.IsNumeral :=
  isNumeral_tokensFrom (by simp) h

/-! ## 6. Cutting into clauses -/

/-- Tokens that belong to one clause and do not end in front of the name of a type. -/
def IsBody : Bool → List Token → Prop
  | typed, [] => typed = false
  | typed, t :: ts => (typed = true ∨ t.keyword? = none) ∧ IsBody t.opensType ts

theorem IsBody.append {typed : Bool} {ts us : List Token} (hts : IsBody typed ts)
    (hus : IsBody false us) : IsBody typed (ts ++ us) := by
  induction ts generalizing typed with
  | nil =>
    obtain rfl : typed = false := hts
    exact hus
  | cons t ts ih => exact ⟨hts.1, ih hts.2⟩

theorem IsBody.word {s : String} (hs : (Token.word s).keyword? = none) {ts : List Token}
    (h : IsBody false ts) : IsBody false (.word s :: ts) :=
  ⟨.inr hs, h⟩

theorem IsBody.sign {c : Char} (hc : (Token.sign c).opensType = false) {ts : List Token}
    (h : IsBody false ts) : IsBody false (.sign c :: ts) :=
  ⟨.inr rfl, hc.symm ▸ h⟩

theorem splitClauses_body {typed : Bool} {body : List Token} (h : IsBody typed body)
    (rest : List Token) : splitClauses typed (body ++ rest) =
      (body ++ (splitClauses false rest).1, (splitClauses false rest).2) := by
  induction body generalizing typed with
  | nil =>
    obtain rfl : typed = false := h
    rfl
  | cons t ts ih =>
    have hnone : (if typed then none else t.keyword?) = none := by
      rcases h.1 with rfl | hnone
      · rfl
      · rw [hnone, ite_self]
    rw [List.cons_append, splitClauses, ih h.2]
    simp only [hnone]
    rfl

/-- Clauses that are read one after the other. -/
inductive ReadsAs : List Token → List ScopeStep → Prop where
  | nil : ReadsAs [] []
  | clause {body rest : List Token} {steps later : List ScopeStep} (k : Keyword)
      (isBody : IsBody false body) (read : k.steps? body = some steps)
      (others : ReadsAs rest later) : ReadsAs (.word k.text :: (body ++ rest)) (steps ++ later)

theorem ReadsAs.single {body : List Token} {steps : List ScopeStep} (k : Keyword)
    (hbody : IsBody false body) (hread : k.steps? body = some steps) :
    ReadsAs (.word k.text :: body) steps := by
  simpa using ReadsAs.clause k hbody hread .nil

theorem ReadsAs.append {ts us : List Token} {steps later : List ScopeStep} (h : ReadsAs ts steps)
    (h' : ReadsAs us later) : ReadsAs (ts ++ us) (steps ++ later) := by
  induction h with
  | nil => exact h'
  | clause k hbody hread _ ih =>
    rw [List.cons_append, List.append_assoc, List.append_assoc]
    exact .clause k hbody hread ih

theorem keyword?_text (k : Keyword) : (Token.word k.text).keyword? = some k := by
  cases k <;> decide

/-- The keywords cut a query into its clauses. -/
theorem ReadsAs.readSteps?_eq {ts : List Token} {steps : List ScopeStep} (h : ReadsAs ts steps) :
    readSteps? ts = some steps := by
  have hclauses : ∃ clauses, splitClauses false ts = ([], clauses) ∧
      (clauses.mapM fun c : Keyword × List Token => c.1.steps? c.2).map List.flatten =
        some steps := by
    induction h with
    | nil => exact ⟨[], rfl, rfl⟩
    | @clause body rest steps later k hbody hread _ ih =>
      obtain ⟨clauses, hsplit, hmap⟩ := ih
      refine ⟨(k, body) :: clauses, ?_, ?_⟩
      · have hrest := splitClauses_body hbody rest
        rw [hsplit, List.append_nil] at hrest
        rw [splitClauses]
        simp only [Token.opensType, hrest, keyword?_text, Bool.false_eq_true, if_false]
      · obtain ⟨read, hmapped, rfl⟩ := Option.map_eq_some_iff.mp hmap
        rw [List.mapM_cons]
        simp [hread, hmapped]
  obtain ⟨clauses, hsplit, hmap⟩ := hclauses
  rw [readSteps?, hsplit]
  exact hmap

end CypherBlocks.Cypher
