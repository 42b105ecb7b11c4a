import CypherBlocks.Proofs.Projection
import CypherBlocks.Proofs.Walk

/-!
# What a compilation reports

A compilation gives a text or one error, never both and never neither.  Resolving the graph,
emitting its blocks and ending the query can each fail.  Of the blocks the first one that fails
decides: what comes after it in the chain is never looked at.
-/

namespace CypherBlocks

open Cypher (Clause Names)

/-! ## 1. The block that fails -/

/-- What blocks build together, each of them on what those before it have left. -/
inductive Builds : List Block → Assembly → Prop where
  | nothing : Builds [] Assembly.empty
  | block {done : List Block} {a : Assembly} {b : Block} {o : Output} {names : Names}
      (before : Builds done a)
      (emitted : emit b ⟨a.binding, done.isEmpty, a.scope⟩ a.names = .ok (o, names)) :
      Builds (done ++ [b]) (a.add done.isEmpty o names)

/-- A block fails right after blocks that have not. -/
def FailsAfter (done : List Block) (b : Block) (d : Diagnosis) : Prop :=
  ∃ a, Builds done a ∧ emit b ⟨a.binding, done.isEmpty, a.scope⟩ a.names = .error d

section Chains

variable {done chain : List Block} {a : Assembly} {b : Block} {d : Diagnosis}

/-- After blocks that have built something, a chain is emitted from there on. -/
theorem Builds.emitChain_append (h : Builds done a) (rest : List Block) :
    (emitChain (done ++ rest)).outcome = (emitFrom done.isEmpty a rest).outcome := by
  induction h generalizing rest with
  | nothing => rfl
  | @block done a b o names _ hemitted ih =>
    have hlater : (done ++ [b]).isEmpty = false := by simp
    rw [List.append_assoc, List.singleton_append, ih, emitFrom, hemitted, hlater]

theorem builds_iff : Builds chain a ↔ (emitChain chain).outcome = .ok a := by
  constructor
  · intro h
    have hall := h.emitChain_append []
    rwa [List.append_nil, emitFrom_nil_outcome] at hall
  · refine emitChain_invariant Builds .nothing ?_
    intro done a b p o names hbuilds hp hemits
    exact .block hbuilds (emit_eq_ok_iff.mpr ⟨p, hp, hemits⟩)

theorem FailsAfter.emitChain_eq (h : FailsAfter done b d) (rest : List Block) :
    (emitChain (done ++ b :: rest)).outcome = .error d := by
  obtain ⟨a, hbuilds, hfails⟩ := h
  rw [hbuilds.emitChain_append, emitFrom, hfails]

/-- If emission fails from some point on, one of the blocks from there on is the first to fail. -/
theorem Builds.exists_failsAfter (h : Builds done a)
    (herror : (emitFrom done.isEmpty a chain).outcome = .error d) :
    ∃ before b after, chain = before ++ b :: after ∧ FailsAfter (done ++ before) b d := by
  induction chain generalizing done a with
  | nil => cases herror
  | cons b rest ih =>
    rw [emitFrom] at herror
    cases hemit : emit b ⟨a.binding, done.isEmpty, a.scope⟩ a.names with
    | error e =>
      rw [hemit] at herror
      cases herror
      exact ⟨[], b, rest, rfl, a, by rwa [List.append_nil], by rwa [List.append_nil]⟩
    | ok x =>
      have hlater : (done ++ [b]).isEmpty = false := by simp
      rw [hemit, ← hlater] at herror
      obtain ⟨before, c, after, rfl, hfails⟩ := ih (.block h hemit) herror
      exact ⟨b :: before, c, after, rfl, by rwa [← List.append_cons] at hfails⟩

theorem emitChain_eq_error_iff :
    (emitChain chain).outcome = .error d ↔ ∃ before b after, chain = before ++ b :: after ∧
      FailsAfter before b d := by
  constructor
  · exact fun h => Builds.nothing.exists_failsAfter h
  · rintro ⟨before, b, after, rfl, hfails⟩
    exact hfails.emitChain_eq after

end Chains

/-! ## 2. What can go wrong -/

variable {g : Graph} {d : Diagnosis}

/-- A block that fails is named in the error, and it lacks parameters just if the error says so. -/
theorem emit_eq_error {b : Block} {input : EmitInput} {names : Names}
    (h : emit b input names = .error d) :
    ∃ e : EmitError, d = e.diagnosis b.displayLabel ∧ (e = .noParameters ↔ b.params = none) := by
  rw [emit_eq] at h
  rcases hr : (emitBlock b input).runFrom names with ⟨e | o, names'⟩
  · rw [hr] at h
    cases h
    exact ⟨e, rfl, (runFrom_emitBlock_eq_error hr).2⟩
  · rw [hr] at h
    cases h

/-- A graph has no query if it has no chain, if a block of its chain fails, or if nothing was
matched that could be returned. -/
theorem query_eq_error (h : query g = .error d) :
    (∃ e, Chain.resolve g = .error e ∧ d = e.diagnosis) ∨
      (∃ r before b after, Chain.resolve g = .ok r ∧ r.chain = before ++ b :: after ∧
        FailsAfter before b d) ∨
      d = Assembly.nothingToReturn := by
  unfold query at h
  cases hr : Chain.resolve g with
  | error e =>
    rw [hr] at h
    cases h
    exact .inl ⟨e, rfl, rfl⟩
  | ok r =>
    rw [hr] at h
    simp only [chainQuery] at h
    cases hemitted : (emitChain r.chain).outcome with
    | error d' =>
      rw [hemitted] at h
      cases h
      obtain ⟨before, b, after, hchain, hfails⟩ := emitChain_eq_error_iff.mp hemitted
      exact .inr (.inl ⟨r, before, b, after, rfl, hchain, hfails⟩)
    | ok a =>
      rw [hemitted] at h
      -- a chain without failures is left with nothing to return, or it has a query
      change a.finish = .error d at h
      unfold Assembly.finish at h
      split at h
      · cases h
        exact .inr (.inr rfl)
      · cases h

/-! ## 3. Messages and their last characters -/

/-- The last character of a text. -/
def endOf? (s : String) : Option Char := s.toList.getLast?

theorem endOf?_append (s : String) {t : String} {c : Char} (h : endOf? t = some c) :
    endOf? (s ++ t) = some c := by
  unfold endOf? at h ⊢
  rw [String.toList_append, List.getLast?_append, h, Option.some_or]

theorem endOf?_toString (n : Int) : ∃ c, endOf? (toString n) = some c ∧ c.isDigit = true := by
  have hnat : ∀ m : Nat, ∃ c, endOf? m.repr = some c ∧ c.isDigit = true := by
    intro m
    have hdigits : Nat.toDigits 10 m ≠ [] := Nat.toDigits_ne_nil
    rw [endOf?, Nat.toList_repr]
    exact ⟨_, List.getLast?_eq_some_getLast hdigits,
      Nat.isDigit_of_mem_toDigits (by decide) (by decide) (List.getLast_mem hdigits)⟩
  cases n with
  | ofNat m => exact hnat m
  | negSucc m =>
    obtain ⟨c, hc, hdigit⟩ := hnat (m + 1)
    exact ⟨c, endOf?_append "-" hc, hdigit⟩

theorem Diagnosis.endOf?_message {c : Char} (h : endOf? d.text = some c) :
    endOf? d.message = some c := by
  unfold Diagnosis.message
  split
  · exact h
  · exact endOf?_append _ h

theorem Chain.ChainError.endOf?_text (e : ChainError) : endOf? e.text = some '.' := by
  cases e with
  | noStart | severalStarts => decide +kernel
  | cycle | unknownTarget => exact endOf?_append _ (by decide +kernel)

/-- Only the error about missing parameters ends in an angle bracket. -/
theorem EmitError.endOf?_text (e : EmitError) :
    ∃ c, endOf? e.text = some c ∧ (c = '>' ↔ e = .noParameters) := by
  have hnumber : ∀ (s : String) (n : Int), ∃ c, endOf? (s ++ toString n) = some c ∧ c ≠ '>' := by
    intro s n
    obtain ⟨c, hc, hdigit⟩ := endOf?_toString n
    refine ⟨c, endOf?_append s hc, ?_⟩
    rintro rfl
    cases hdigit
  cases e with
  | noParameters => exact ⟨'>', by decide +kernel, by decide⟩
  | depthOutOfRange | hopsOutOfRange | countTooSmall =>
    obtain ⟨c, hc, hother⟩ := hnumber _ _
    exact ⟨c, hc, by simp [hother]⟩
  | unknownDirection => exact ⟨'h', endOf?_append _ (by decide +kernel), by simp⟩
  | unknownMode => exact ⟨'t', endOf?_append _ (by decide +kernel), by simp⟩
  | statusFilters => exact ⟨'d', endOf?_append _ (endOf?_append _ (by decide +kernel)), by decide⟩
  | notFirst => exact ⟨'t', by decide +kernel, by decide⟩
  | notFinite => exact ⟨'r', by decide +kernel, by decide⟩
  | _ => exact ⟨'d', by decide +kernel, by decide⟩

theorem Chain.mem_of_mem_walk : ∀ b ∈ (walk g).blocks, b ∈ g.blocks := by
  rcases hstarts : starts g with _ | ⟨start, _ | ⟨second, more⟩⟩
  · unfold starts at hstarts
    rw [walk, hstarts]
    simp
  · exact (walk_of_single hstarts).1.mem (mem_of_starts hstarts)
  · unfold starts at hstarts
    rw [walk, hstarts]
    simp

theorem Chain.mem_of_mem_chain {r : Resolved} (h : resolve g = .ok r) :
    ∀ b ∈ r.chain, b ∈ g.blocks := by
  unfold resolve at h
  dsimp only at h
  split at h
  · cases h
  · cases h
    exact fun b hb => mem_of_mem_walk b (List.mem_filter.mp hb).1

/-- A message has a last character, and one about missing parameters comes from a block that has
none. -/
theorem endOf?_message_of_query (h : query g = .error d) :
    ∃ c, endOf? d.message = some c ∧ (c = '>' → ∃ b ∈ g.blocks, b.params = none) := by
  obtain ⟨e, -, rfl⟩ | ⟨r, before, b, after, hr, hchain, a, -, hfails⟩ | rfl := query_eq_error h
  · exact ⟨'.', Diagnosis.endOf?_message e.endOf?_text, by simp⟩
  · obtain ⟨e, rfl, hmissing⟩ := emit_eq_error hfails
    have hb : b ∈ r.chain := by
      rw [hchain]
      exact List.mem_append_right before List.mem_cons_self
    obtain ⟨c, hc, hbracket⟩ := e.endOf?_text
    exact ⟨c, Diagnosis.endOf?_message hc, fun heq =>
      ⟨b, Chain.mem_of_mem_chain hr b hb, hmissing.mp (hbracket.mp heq)⟩⟩
  · exact ⟨'.', by decide +kernel, by simp⟩

theorem message_ne_empty_of_query (h : query g = .error d) : d.message ≠ "" := by
  intro hempty
  obtain ⟨c, hc, -⟩ := endOf?_message_of_query h
  rw [hempty] at hc
  cases hc

theorem text_ne_empty_of_query {clauses : List Clause} (h : query g = .ok clauses) :
    Cypher.linesText clauses ≠ "" := by
  unfold query at h
  split at h
  · cases h
  · obtain ⟨a, -, -, rfl⟩ := chainQuery_eq_ok_iff.mp h
    refine intercalate_ne_empty ?_ (by simp)
    intro s hs
    obtain ⟨c, -, rfl⟩ := List.mem_map.mp hs
    exact c.text_ne_empty

/-! ## 4. The result -/

def Graph.hasEnd (g : Graph) : Bool := g.blocks.any (·.isOfKind .finish)

theorem warnings_compile (g : Graph) : (compile g).warnings = compileWarnings g := by
  unfold compile
  split <;> rfl

theorem warnings_of_resolve {r : Chain.Resolved} (h : Chain.resolve g = .ok r) :
    (compile g).warnings = if g.hasEnd then [] else [Chain.missingEndWarning] := by
  rw [warnings_compile, compileWarnings, h]
  unfold Chain.resolve at h
  dsimp only at h
  split at h
  · cases h
  · cases h
    rfl

/-- A graph that has a chain with a block that fails reports that block. -/
theorem compile_of_failsAfter {r : Chain.Resolved} {before after : List Block} {b : Block}
    (hr : Chain.resolve g = .ok r) (hchain : r.chain = before ++ b :: after)
    (hfails : FailsAfter before b d) :
    compile g = ⟨"", [d.message], if g.hasEnd then [] else [Chain.missingEndWarning]⟩ := by
  have hquery : query g = .error d := by
    simp only [query, hr, chainQuery, hchain, hfails.emitChain_eq after]
    rfl
  rw [← warnings_of_resolve hr]
  unfold compile
  rw [hquery]

/-- Every graph compiles to a text or to one error.  A graph with a chain but without an End block
is warned about, whatever comes of the chain.  If blocks fail, the first one is reported, and the
result does not depend on what follows it in the chain. -/
theorem compile_reports_first_failure (g : Graph) :
    ((compile g).errors = [] ∧ (compile g).text ≠ "" ∨ (compile g).text = "" ∧ ∃ e,
      e ≠ "" ∧ (compile g).errors = [e]) ∧
      (∀ r, Chain.resolve g = .ok r → (compile g).warnings = if g.hasEnd then []
        else [Chain.missingEndWarning]) ∧
      (∀ e, Chain.resolve g = .error e → (compile g).warnings = []) ∧
      ∀ r, Chain.resolve g = .ok r →
        (∀ d, (emitChain r.chain).outcome = .error d → ∃ before b after,
          r.chain = before ++ b :: after ∧ FailsAfter before b d) ∧
          ∀ before b after d, r.chain = before ++ b :: after → FailsAfter before b d →
            (compile g).errors = [d.message] ∧
              ∀ h s, Chain.resolve h = .ok s → before ++ [b] <+: s.chain → h.hasEnd = g.hasEnd →
                compile h = compile g := by
  refine ⟨?_, fun r hr => warnings_of_resolve hr, fun e he => ?_, fun r hr =>
    ⟨fun d => emitChain_eq_error_iff.mp, ?_⟩⟩
  · unfold compile
    cases hquery : query g with
    | ok clauses => exact .inl ⟨rfl, text_ne_empty_of_query hquery⟩
    | error d => exact .inr ⟨rfl, d.message, message_ne_empty_of_query hquery, rfl⟩
  · unfold compile compileWarnings
    rw [he]
    split <;> rfl
  · intro before b after d hchain hfails
    have hg := compile_of_failsAfter hr hchain hfails
    refine ⟨by rw [hg], fun h s hs hagree hend => ?_⟩
    obtain ⟨rest, hrest⟩ := hagree
    rw [List.append_assoc, List.singleton_append] at hrest
    rw [hg, compile_of_failsAfter hs hrest.symm hfails, hend]

/-- A walk that is too long, and a search for nothing after it. -/
def brokenGraph : Graph where
  blocks := [⟨"s", "", some .start⟩, ⟨"pick", "", some (.selectById "e1")⟩,
    ⟨"far", "Far", some (.neighborhood ⟨"out", 9, [], [], []⟩)⟩,
    ⟨"find", "", some (.textSearch ⟨" ", 3⟩)⟩]
  connections := [⟨"s", "pick"⟩, ⟨"pick", "far"⟩, ⟨"far", "find"⟩]

/-- The walk decides: a graph that ends with it has the same result. -/
theorem brokenGraph_reports_the_walk :
    (compile brokenGraph).errors = ["Far: depth must be between 1 and 5, got 9"] ∧
      compile { brokenGraph with connections :=
        brokenGraph.connections.take 2 } = compile brokenGraph := by
  have hr : Chain.resolve brokenGraph = .ok ⟨brokenGraph.blocks.drop 1,
      [Chain.missingEndWarning]⟩ := by
    decide +kernel
  have hs : Chain.resolve { brokenGraph with connections := brokenGraph.connections.take 2 } =
      .ok ⟨(brokenGraph.blocks.drop 1).take 2, [Chain.missingEndWarning]⟩ := by decide +kernel
  have hfails : FailsAfter [⟨"pick", "", some (.selectById "e1")⟩] ⟨"far", "Far",
      some (.neighborhood ⟨"out", 9, [], [], []⟩)⟩
      ((EmitError.depthOutOfRange 9).diagnosis "Far") := ⟨_, builds_iff.mpr rfl, by decide +kernel⟩
  obtain ⟨-, -, -, hfirst⟩ := compile_reports_first_failure brokenGraph
  obtain ⟨herror, hsame⟩ := (hfirst _ hr).2 _ _ _ _ rfl hfails
  refine ⟨herror.trans (by decide +kernel), hsame _ _ hs ?_ (by decide +kernel)⟩
  exact List.prefix_refl _

end CypherBlocks
