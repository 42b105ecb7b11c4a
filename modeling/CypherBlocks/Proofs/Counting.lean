import CypherBlocks.Proofs.Acceptance
import CypherBlocks.Proofs.Scope

/-!
# Blocks that share a counter

Blocks take the numbers of their variables from one counter, one block after the other.  A block
that fails does so before it takes a number, and whether it fails does not depend on the counter.
So the others are emitted as if it had not been there.
-/

namespace CypherBlocks

open Cypher (Names numbered)

/-! ## 1. Variables with a number -/

namespace Cypher

/-- A letter and then digits, at least one of them. -/
def isNumbered (v : String) : Bool :=
  match v.toList with
  | letter :: digits => letter.isAlpha && !digits.isEmpty && digits.all Char.isDigit
  | [] => false

theorem isNumbered_numbered {letter : Char} (h : letter.isAlpha = true) (n : Nat) :
    isNumbered (numbered letter n) = true := by
  have hdigits : (Nat.toDigits 10 n).all Char.isDigit = true := by
    rw [List.all_eq_true]
    exact fun c hc => Nat.isDigit_of_mem_toDigits (by decide) (by decide) hc
  simp [isNumbered, numbered, h, hdigits]

theorem Names.isNumbered_entity (names : Names) : isNumbered names.entity = true :=
  names.entity_eq ▸ isNumbered_numbered (by decide) _

theorem Names.isNumbered_path (names : Names) : isNumbered names.path = true :=
  names.path_eq ▸ isNumbered_numbered (by decide) _

end Cypher

namespace Output

/-- The variables that a block introduces into the query. -/
def introduced (o : Output) : List String :=
  Cypher.introducedBy (o.clauses.flatMap Cypher.Clause.scopeSteps)

def introducesNumbered (o : Output) : Bool := o.introduced.any Cypher.isNumbered

end Output

/-! ## 2. One block -/

section Blocks

variable {b : Block} {input : EmitInput} {names names' : Names} {p : Params} {o : Output}

/-- A block counts on by one if a variable that it introduces has a number, and not at all
otherwise. -/
theorem Emits.count_introduced (h : Emits input names p o names') :
    names'.count = names.count + if o.introducesNumbered then 1 else 0 := by
  have hcanonical : Cypher.isNumbered Names.canonical = false := by decide
  cases h <;>
    simp [Output.introducesNumbered, Output.introduced, Cypher.Clause.scopeSteps,
      Cypher.introducedBy, Cypher.ScopeStep.introduced, Names.advance, names.isNumbered_entity,
      names.isNumbered_path, hcanonical, filtered, Output.unchanged, emitGate]

theorem emits_of_emitCounted (h : (emitCounted b input names).1 = .ok o) :
    ∃ p, b.params = some p ∧ Emits input names p o (emitCounted b input names).2 := by
  rw [emitCounted_eq] at h ⊢
  apply runFrom_emitBlock_eq_ok_iff.mp
  rcases hr : (emitBlock b input).runFrom names with ⟨e | o', n⟩
  · rw [hr] at h
    cases h
  · rw [hr] at h
    cases h
    rfl

/-- A block that fails leaves the counter as it was. -/
theorem emitCounted_error {d : Diagnosis} (h : (emitCounted b input names).1 = .error d) :
    (emitCounted b input names).2 = names := by
  rw [emitCounted_eq] at h ⊢
  rcases hr : (emitBlock b input).runFrom names with ⟨e | o, n⟩
  · exact (runFrom_emitBlock_eq_error hr).1
  · rw [hr] at h
    cases h

/-- Only the parameters of a block and whether there is a current variable decide if it
contributes. -/
theorem isOk_emitCounted_iff :
    (emitCounted b input names).1.isOk = true ↔
      ∃ p, b.params = some p ∧ p.IsValid ∧
        (p.needsEntity = true → input.binding.isSome = true) := by
  constructor
  · intro h
    cases hr : (emitCounted b input names).1 with
    | error d =>
      rw [hr] at h
      cases h
    | ok o =>
      obtain ⟨p, hp, hemits⟩ := emits_of_emitCounted hr
      exact ⟨p, hp, hemits.valid⟩
  · rintro ⟨p, hp, hvalid, hneeds⟩
    obtain ⟨o, names', hemits⟩ := emits_of_valid input names hvalid hneeds
    rw [emitCounted_eq, runFrom_emitBlock_eq_ok_iff.mpr ⟨p, hp, hemits⟩]
    rfl

end Blocks

/-! ## 3. Many blocks -/

variable {names : Names} {calls : List (Block × EmitInput)}

/-- One block, and then the others from the counter after it. -/
theorem emitAll_cons (names : Names) (call : Block × EmitInput) (rest : List (Block × EmitInput)) :
    emitAll names (call :: rest) =
      ((emitCounted call.1 call.2 names).1 :: (emitAll (emitCounted call.1 call.2 names).2 rest).1,
        (emitAll (emitCounted call.1 call.2 names).2 rest).2) := rfl

/-- The calls that contribute, when all of them are made. -/
def contributing (names : Names) (calls : List (Block × EmitInput)) : List (Block × EmitInput) :=
  ((calls.zip (emitAll names calls).1).filter (·.2.isOk)).map (·.1)

theorem contributing_cons (names : Names) (call : Block × EmitInput)
    (rest : List (Block × EmitInput)) :
    contributing names (call :: rest) =
      if (emitCounted call.1 call.2 names).1.isOk then
        call :: contributing (emitCounted call.1 call.2 names).2 rest
      else contributing (emitCounted call.1 call.2 names).2 rest := by
  unfold contributing
  rw [emitAll_cons, List.zip_cons_cons, List.filter_cons]
  split <;> rfl

/-- What blocks that fail are asked for does not matter to the others. -/
theorem emitAll_contributing (names : Names) (calls : List (Block × EmitInput)) :
    emitAll names (contributing names calls) = ((emitAll names calls).1.filter (·.isOk),
      (emitAll names calls).2) := by
  induction calls generalizing names with
  | nil => rfl
  | cons call rest ih =>
    rw [contributing_cons, emitAll_cons]
    cases hr : (emitCounted call.1 call.2 names).1 with
    | error d =>
      -- the block has left the counter alone, so the rest starts from where it stood
      rw [emitCounted_error hr]
      exact ih names
    | ok o =>
      change emitAll names (call :: _) = _
      rw [emitAll_cons, ih, hr]
      rfl

theorem emitAll_append (names : Names) (before after : List (Block × EmitInput)) :
    emitAll names (before ++ after) =
      ((emitAll names before).1 ++ (emitAll (emitAll names before).2 after).1,
        (emitAll (emitAll names before).2 after).2) := by
  induction before generalizing names with
  | nil => rfl
  | cons call rest ih => rw [List.cons_append, emitAll_cons, ih, emitAll_cons, List.cons_append]

theorem length_emitAll (names : Names) (calls : List (Block × EmitInput)) :
    (emitAll names calls).1.length = calls.length := by
  induction calls generalizing names with
  | nil => rfl
  | cons call rest ih => rw [emitAll_cons, List.length_cons, ih, List.length_cons]

/-- Each block of a sequence starts from the counter that those before it have left.  If it fails,
it leaves that counter; if not, it counts on by one just if it introduces a variable with a number;
and it would have failed with any other counter if it fails with this one.  Without the blocks that
fail the others give the same. -/
theorem emitAll_without_failures (names : Names) (calls : List (Block × EmitInput)) :
    (∀ before call after, calls = before ++ call :: after →
      ∃ result names', emitCounted call.1 call.2 (emitAll names before).2 = (result, names') ∧
        (emitAll names calls).1[before.length]? = some result ∧
          (emitAll names (before ++ [call])).2 = names' ∧
        (∀ d, result = .error d → names' = (emitAll names before).2) ∧
        (∀ o, result = .ok o →
          names'.count = (emitAll names before).2.count + if o.introducesNumbered then 1 else 0) ∧
        ∀ other, (emitCounted call.1 call.2 other).1.isOk = result.isOk) ∧
    emitAll names (contributing names calls) = ((emitAll names calls).1.filter (·.isOk),
      (emitAll names calls).2) := by
  refine ⟨fun before call after hcalls => ?_, emitAll_contributing names calls⟩
  refine ⟨(emitCounted call.1 call.2 (emitAll names before).2).1,
    (emitCounted call.1 call.2 (emitAll names before).2).2, rfl, ?_, ?_, ?_, ?_, ?_⟩
  · rw [hcalls, emitAll_append, emitAll_cons, ← length_emitAll names before,
      List.getElem?_append_right (Nat.le_refl _), Nat.sub_self, List.getElem?_cons_zero]
  · rw [emitAll_append, emitAll_cons]
    rfl
  · exact fun d h => emitCounted_error h
  · intro o h
    obtain ⟨p, -, hemits⟩ := emits_of_emitCounted h
    exact hemits.count_introduced
  · intro other
    rw [Bool.eq_iff_iff, isOk_emitCounted_iff, isOk_emitCounted_iff]

/-- A walk with nothing to start from, a search, a path whose target is fine but which is too long,
a first entity, and a path. -/
def mixedCalls : List (Block × EmitInput) :=
  [(⟨"walk", "", some (.neighborhood ⟨"out", 2, [], [], []⟩)⟩, ⟨none, true, []⟩),
    (⟨"find", "", some (.textSearch ⟨"ada", 0⟩)⟩, ⟨none, true, []⟩),
    (⟨"far", "", some (.shortestPath ⟨"id", "e2", "", 16⟩)⟩, ⟨some "n1", false, ["n1"]⟩),
    (⟨"pick", "", some (.selectById "e1")⟩, ⟨none, true, []⟩),
    (⟨"near", "", some (.shortestPath ⟨"", "e2", "", 3⟩)⟩, ⟨some "n1", false, ["n1"]⟩)]

theorem mixedCalls_without_failures :
    (emitAll Names.fresh mixedCalls).1.map (·.isOk) = [false, true, false, true, true] ∧
      (emitAll Names.fresh (mixedCalls.take 3)).2 = (emitAll Names.fresh (mixedCalls.take 2)).2 ∧
      (emitAll Names.fresh (mixedCalls.take 2)).2.count = 1 ∧
      contributing Names.fresh mixedCalls = (mixedCalls.eraseIdx 0).eraseIdx 1 ∧
      emitAll Names.fresh (contributing Names.fresh mixedCalls) =
        ((emitAll Names.fresh mixedCalls).1.filter (·.isOk),
          (emitAll Names.fresh mixedCalls).2) := by
  obtain ⟨hsteps, hrun⟩ := emitAll_without_failures Names.fresh mixedCalls
  obtain ⟨result, names', hcall, -, hafter, herror, -⟩ :=
    hsteps (mixedCalls.take 2) _ (mixedCalls.drop 3) rfl
  have hfails : ∃ d, result = .error d := by
    rw [show result = _ from (congrArg Prod.fst hcall).symm]
    exact ⟨_, rfl⟩
  obtain ⟨d, hd⟩ := hfails
  refine ⟨by decide +kernel, hafter.trans (herror d hd), by decide +kernel, by decide +kernel, hrun⟩

end CypherBlocks
