import CypherBlocks.App.Run
import Mathlib.Tactic.Common

/-!
# A run and its preview

A run first settles what it is going to write and what its verdict will be, and then makes its
writes one after the other until one fails.  Only when all of them are made does it turn to the
preview, and nothing that happens there comes back.
-/

namespace CypherBlocks.App

/-! ## Writes -/

/-- Making writes one after the other, the first of them being write number `k`: the texts that were
written, and the error of the write that failed. -/
inductive Writes (failing : Option (Nat × String)) : Nat → List String → List String →
  Option String → Prop where
  | done {k : Nat} : Writes failing k [] [] none
  | refused {k : Nat} {t : String} {rest : List String} {cause : String}
      (h : failing = some (k, cause)) : Writes failing k (t :: rest) [] (some cause)
  | written {k : Nat} {t : String} {rest made : List String} {failed : Option String}
      (h : ∀ cause, failing ≠ some (k, cause)) (more : Writes failing (k + 1) rest made failed) :
      Writes failing k (t :: rest) (t :: made) failed

theorem writes_all {failing : Option (Nat × String)} (writes : List String) (k : Nat)
    (h : ∀ n cause, failing = some (n, cause) → n < k ∨ k + writes.length ≤ n) :
    Writes failing k writes writes none := by
  induction writes generalizing k with
  | nil => exact .done
  | cons t rest ih =>
    simp only [List.length_cons] at h
    refine .written (fun cause hk => ?_) (ih (k + 1) fun n cause hn => ?_)
    · have := h k cause hk
      omega
    · have := h n cause hn
      omega

theorem writes_take {k n : Nat} {cause : String} {writes : List String} (h : n < writes.length) :
    Writes (some (k + n, cause)) k writes (writes.take n) (some cause) := by
  induction n generalizing k writes with
  | zero =>
    obtain ⟨t, rest, rfl⟩ := List.exists_cons_of_length_pos h
    exact .refused rfl
  | succ n ih =>
    obtain ⟨t, rest, rfl⟩ := List.exists_cons_of_length_pos (Nat.zero_lt_of_lt h)
    have hrest : n < rest.length := Nat.lt_of_succ_lt_succ h
    have hpos : k + (n + 1) = k + 1 + n := by omega
    rw [hpos]
    refine .written (fun cause' hk => ?_) (ih hrest)
    simp only [Option.some.injEq, Prod.mk.injEq] at hk
    omega

/-- Performing writes makes them in order up to the one that fails. -/
theorem writes_performWrites (failing : Option (Nat × String)) (writes : List String) :
    ∃ made, Writes failing 0 writes made (performWrites failing writes).2 ∧
      (performWrites failing writes).1 = String.join made := by
  cases failing with
  | none => exact ⟨writes, writes_all writes 0 (by simp), rfl⟩
  | some failing =>
    obtain ⟨n, cause⟩ := failing
    -- the write that would fail may come after all that are made
    by_cases h : n < writes.length
    · have htake : Writes (some (0 + n, cause)) 0 writes (writes.take n) (some cause) :=
        writes_take h
      rw [Nat.zero_add] at htake
      simp only [performWrites, h, if_true]
      exact ⟨writes.take n, htake, rfl⟩
    · simp only [performWrites, h, if_false]
      refine ⟨writes, writes_all writes 0 fun m _ hm => ?_, rfl⟩
      simp only [Option.some.injEq, Prod.mk.injEq] at hm
      omega

/-! ## What a run can do -/

/-- The graph that a run works on. -/
def loaded (s : Settings) (files : Files.Entry) : Except Document.LoadError Graph :=
  (Document.load files [s.graphPath]).2

/-- What a run can do, by where it ends: the texts it writes, the error of the write that failed,
its own failure, and what it does at the preview. -/
inductive Runs (s : Settings) (w : Surroundings) : List String → Option String → Option RunError →
  List Event → Prop where
  | unloaded {e : Document.LoadError} (load : loaded s w.files = .error e) :
      Runs s w [] none (some (.load e)) []
  | unencoded {g : Graph} {e : Document.WriteError} (load : loaded s w.files = .ok g)
      (format : s.formatGraph = true) (encode : Document.write g = .error e) :
      Runs s w [] none (some (.encode e)) []
  | formatted {g : Graph} {text : String} {made : List String} {failed : Option String}
      (load : loaded s w.files = .ok g) (format : s.formatGraph = true)
      (encode : Document.write g = .ok text) (writes : Writes w.failingWrite 0 [text] made failed) :
      Runs s w made failed (failed.map .canonical) []
  | unwritten {g : Graph} {made : List String} {cause : String} (load : loaded s w.files = .ok g)
      (format : s.formatGraph = false)
      (writes :
        Writes w.failingWrite 0 (resultWrites s.outputFormat (compile g)) made (some cause)) :
      Runs s w made (some cause) (some (.result cause)) []
  | compiled {g : Graph} {made : List String} (load : loaded s w.files = .ok g)
      (format : s.formatGraph = false)
      (writes : Writes w.failingWrite 0 (resultWrites s.outputFormat (compile g)) made none) :
      Runs s w made none (if (compile g).ok then none
        else some .compilationFailed) (if s.preview.url.isEmpty then []
        else (publish s w.server (compile g)).2)

theorem runs_runFormat {s : Settings} {w : Surroundings} {g : Graph}
    (hload : loaded s w.files = .ok g) (hformat : s.formatGraph = true) :
    ∃ made failed, Runs s w made failed (runFormat w g).failure (runFormat w g).events ∧
      (runFormat w g).output = String.join made := by
  cases hwrite : Document.write g with
  | error e =>
    simp only [runFormat, hwrite]
    exact ⟨[], none, .unencoded hload hformat hwrite, rfl⟩
  | ok text =>
    simp only [runFormat, hwrite]
    obtain ⟨made, hmade, houtput⟩ := writes_performWrites w.failingWrite [text]
    exact ⟨made, _, .formatted hload hformat hwrite hmade, houtput⟩

theorem runs_runCompile {s : Settings} {w : Surroundings} {g : Graph}
    (hload : loaded s w.files = .ok g) (hformat : s.formatGraph = false) :
    ∃ made failed, Runs s w made failed (runCompile s w g).failure (runCompile s w g).events ∧
      (runCompile s w g).output = String.join made := by
  obtain ⟨made, hmade, houtput⟩ :=
    writes_performWrites w.failingWrite (resultWrites s.outputFormat (compile g))
  refine ⟨made, ?_⟩
  cases hfailed : (performWrites w.failingWrite (resultWrites s.outputFormat (compile g))).2 with
  | some cause =>
    rw [hfailed] at hmade
    simp only [runCompile, hfailed]
    exact ⟨some cause, .unwritten hload hformat hmade, houtput⟩
  | none =>
    rw [hfailed] at hmade
    simp only [runCompile, hfailed, apply_ite Prod.snd]
    exact ⟨none, .compiled hload hformat hmade, houtput⟩

/-- A run does what one of the rules says, and its output is what it writes. -/
theorem runs_run (s : Settings) (w : Surroundings) :
    ∃ made failed, Runs s w made failed (run s w).failure (run s w).events ∧
      (run s w).output = String.join made := by
  cases hload : loaded s w.files with
  | error e =>
    have hload' : (Document.load w.files [s.graphPath]).2 = .error e := hload
    simp only [run, hload']
    exact ⟨[], none, .unloaded hload, rfl⟩
  | ok g =>
    have hload' : (Document.load w.files [s.graphPath]).2 = .ok g := hload
    cases hformat : s.formatGraph with
    | true =>
      simp only [run, hload', hformat, if_true]
      exact runs_runFormat hload hformat
    | false =>
      simp only [run, hload', hformat, Bool.false_eq_true, if_false]
      exact runs_runCompile hload hformat

/-! ## Output and failure -/

/-- All that a run sets out to write. -/
def plannedWrites (s : Settings) (files : Files.Entry) : List String :=
  match loaded s files with
  | .error _ => []
  | .ok g =>
    if s.formatGraph then
      match Document.write g with
      | .error _ => []
      | .ok text => [text]
    else resultWrites s.outputFormat (compile g)

theorem plannedWrites_of_loaded {s : Settings} {files : Files.Entry} {g : Graph}
    (hload : loaded s files = .ok g) (hformat : s.formatGraph = false) :
    plannedWrites s files = resultWrites s.outputFormat (compile g) := by
  simp only [plannedWrites, hload, hformat, Bool.false_eq_true, if_false]

/-- A graph that a run has nothing to hold against: it can be encoded if it is to be formatted, and
compiles without errors if not. -/
def Acceptable (s : Settings) (g : Graph) : Prop :=
  if s.formatGraph then ∃ text, Document.write g = .ok text else (compile g).errors = []

namespace Runs

variable {s : Settings} {w : Surroundings} {made : List String} {failed : Option String}
  {failure : Option RunError} {events : List Event}

theorem writes (h : Runs s w made failed failure events) :
    Writes w.failingWrite 0 (plannedWrites s w.files) made failed := by
  cases h with
  | unloaded hload => simpa only [plannedWrites, hload] using .done
  | unencoded hload hformat hencode =>
    simpa only [plannedWrites, hload, hformat, hencode, if_true] using .done
  | formatted hload hformat hencode hwrites =>
    simpa only [plannedWrites, hload, hformat, hencode, if_true] using hwrites
  | unwritten hload hformat hwrites => rwa [plannedWrites_of_loaded hload hformat]
  | compiled hload hformat hwrites => rwa [plannedWrites_of_loaded hload hformat]

theorem failure_eq_none_iff (h : Runs s w made failed failure events) :
    failure = none ↔ failed = none ∧ ∃ g, loaded s w.files = .ok g ∧ Acceptable s g := by
  unfold Acceptable
  cases h with
  | unloaded hload => simp [hload]
  | unencoded hload hformat hencode => simp [hload, hformat, hencode]
  | formatted hload hformat hencode hwrites => simp [hload, hformat, hencode]
  | unwritten hload hformat hwrites => simp
  | compiled hload hformat hwrites => simp [hload, hformat, Result.ok]

end Runs

/-! ## The preview -/

/-- What is done at a preview to show it a result: it is dialled, and if it answers, the result is
published and the connection closed. -/
inductive Shows (s : Settings) (dialError : Option String) (r : Result) : List Event → Prop where
  | unreached {cause : String} (h : dialError = some cause) : Shows s dialError r [.dial s.preview]
  | shown (h : dialError = none) :
      Shows s dialError r [.dial s.preview, .publish s.graphPath r, .close]

variable {s : Settings} {w : Surroundings} {dialError publishError closeError : Option String}

theorem shows_publish (s : Settings) (dialError publishError closeError : Option String)
    (r : Result) :
    Shows s dialError r (publish s (.answering dialError publishError closeError) r).2 := by
  cases dialError with
  | none => exact .shown rfl
  | some cause => exact .unreached rfl

theorem Shows.dials {r : Result} {events : List Event} (h : Shows s dialError r events) :
    .dial s.preview ∈ events := by
  cases h <;> exact List.mem_cons_self

/-- A result is shown when there is a preview to show it to and all of it was written. -/
def IsShown (s : Settings) (files : Files.Entry) (failed : Option String) : Prop :=
  s.preview.url ≠ "" ∧ s.formatGraph = false ∧ (∃ g, loaded s files = .ok g) ∧ failed = none

theorem Runs.events_cases {made : List String} {failed : Option String}
    {failure : Option RunError} {events : List Event} (h : Runs s w made failed failure events)
    (hserver : w.server = .answering dialError publishError closeError) :
    (¬ IsShown s w.files failed ∧ events = []) ∨
      (IsShown s w.files failed ∧ ∃ g, loaded s w.files = .ok g ∧
        Shows s dialError (compile g) events) := by
  unfold IsShown
  cases h with
  | unloaded hload => simp [hload]
  | unencoded hload hformat hencode => simp [hformat]
  | formatted hload hformat hencode hwrites => simp [hformat]
  | unwritten hload hformat hwrites => simp
  | compiled hload hformat hwrites =>
    by_cases hurl : s.preview.url = ""
    · simp [hurl]
    · have hempty : s.preview.url.isEmpty = false := by simpa using hurl
      rw [hserver, hempty, if_neg Bool.false_ne_true]
      exact .inr ⟨⟨hurl, hformat, ⟨_, hload⟩, rfl⟩, _, hload,
        shows_publish s dialError publishError closeError _⟩

/-- The same settings with no preview to show the result to. -/
def Settings.withoutPreview (s : Settings) : Settings :=
  { s with preview := { s.preview with url := "" } }

theorem runCompile_withoutPreview (s : Settings) (w : Surroundings) (g : Graph) :
    (runCompile s.withoutPreview w g).output = (runCompile s w g).output ∧
      (runCompile s.withoutPreview w g).failure = (runCompile s w g).failure := by
  have hformat : s.withoutPreview.outputFormat = s.outputFormat := rfl
  simp only [runCompile, hformat]
  cases (performWrites w.failingWrite (resultWrites s.outputFormat (compile g))).2 <;>
    exact ⟨rfl, rfl⟩

theorem run_withoutPreview (s : Settings) (w : Surroundings) :
    (run s.withoutPreview w).output = (run s w).output ∧
      (run s.withoutPreview w).failure = (run s w).failure := by
  have hpath : s.withoutPreview.graphPath = s.graphPath := rfl
  have hformat : s.withoutPreview.formatGraph = s.formatGraph := rfl
  simp only [run, hpath, hformat]
  cases (Document.load w.files [s.graphPath]).2 with
  | error e => exact ⟨rfl, rfl⟩
  | ok g =>
    cases s.formatGraph with
    | true => exact ⟨rfl, rfl⟩
    | false => exact runCompile_withoutPreview s w g

/-- How an outcome comes about in which nothing but the preview depends on the preview; `plain` is
the outcome of the same run without it. -/
structure Settled (s : Settings) (files : Files.Entry) (failing : Option (Nat × String))
  (dialError : Option String) (o plain : Outcome)
    (made : List String) (failed : Option String) : Prop where
  sameOutput : o.output = plain.output
  sameFailure : o.failure = plain.failure
  /-- The writes are made in order up to the first that fails, and they are all of the output. -/
  writes : Writes failing 0 (plannedWrites s files) made failed
  output : o.output = String.join made
  succeeds : o.failure = none ↔ failed = none ∧ ∃ g, loaded s files = .ok g ∧ Acceptable s g
  dials : (∃ options, .dial options ∈ o.events) ↔ IsShown s files failed
  /-- What is shown is the result whose writes were made. -/
  events : o.events = [] ∨ ∃ g, loaded s files = .ok g ∧
    plannedWrites s files = resultWrites s.outputFormat (compile g) ∧
    Shows s dialError (compile g) o.events

/-- A run settles its output and failure before it turns to the preview, whatever the preview
does. -/
theorem run_settled_before_preview (s : Settings) (files : Files.Entry)
    (failing : Option (Nat × String)) (dialError publishError closeError : Option String) :
    ∃ made failed, Settled s files failing dialError
      (run s ⟨files, failing, .answering dialError publishError closeError⟩)
      (run s.withoutPreview ⟨files, failing, .answering dialError publishError closeError⟩)
        made failed := by
  obtain ⟨houtput, hfailure⟩ :=
    run_withoutPreview s ⟨files, failing, .answering dialError publishError closeError⟩
  obtain ⟨made, failed, hruns, hmade⟩ :=
    runs_run s ⟨files, failing, .answering dialError publishError closeError⟩
  refine ⟨made, failed, houtput.symm, hfailure.symm, hruns.writes, hmade,
    hruns.failure_eq_none_iff, ?_, ?_⟩
  · obtain ⟨hnot, hnone⟩ | ⟨his, g, -, hshows⟩ := hruns.events_cases rfl
    · rw [hnone]
      exact ⟨fun ⟨options, hdial⟩ => absurd hdial List.not_mem_nil, fun his => absurd his hnot⟩
    · exact ⟨fun _ => his, fun _ => ⟨s.preview, hshows.dials⟩⟩
  · obtain ⟨-, hnone⟩ | ⟨⟨-, hformat, -, -⟩, g, hload, hshows⟩ := hruns.events_cases rfl
    · exact .inl hnone
    · exact .inr ⟨g, hload, plannedWrites_of_loaded hload hformat, hshows⟩

end CypherBlocks.App
