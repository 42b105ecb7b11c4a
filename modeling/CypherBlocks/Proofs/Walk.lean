import CypherBlocks.Proofs.Wirings
import Mathlib.Data.List.Chain
import Mathlib.Data.List.Nodup

/-!
# The walk through a graph

A walk is described here by the connections and blocks of a graph alone, without wiring and without
a bound on its length.  There is exactly one for each graph with a single Start block, and resolving
a graph gives what its walk says.
-/

namespace CypherBlocks.Chain

/-! ## 1. What a walk is -/

def starts (g : Graph) : List Block := g.blocks.filter (·.isOfKind .start)

/-- The target of the first connection that leaves an id. -/
def firstTarget? (g : Graph) (id : String) : Option String :=
  (g.connections.find? (·.source = id)).map (·.target)

/-- An id denotes the last block that has it. -/
def Denotes (g : Graph) (id : String) (b : Block) : Prop :=
  ∃ before after, g.blocks = before ++ b :: after ∧ b.id = id ∧ ∀ c ∈ after, c.id ≠ id

/-- A block leads to what the target of its first connection denotes. -/
def Leads (g : Graph) (b c : Block) : Prop := ∃ id, firstTarget? g b.id = some id ∧ Denotes g id c

/-- The blocks that a walk passes, as far as no id is repeated. -/
structure Passes (g : Graph) (start : Block) (path : List Block) : Prop where
  begins : path.head? = some start
  leads : path.IsChain (Leads g)
  distinct : (path.map (·.id)).Nodup

/-- Why a walk does not go on: its last block has no connection, or the first one leads back or
nowhere. -/
inductive Stops (g : Graph) (path : List Block) : Option ChainError → Prop where
  | complete {b : Block} (last : path.getLast? = some b) (ends : firstTarget? g b.id = none) :
      Stops g path none
  | cycle {b : Block} {id : String} (last : path.getLast? = some b)
      (next : firstTarget? g b.id = some id) (repeated : id ∈ path.map (·.id)) :
      Stops g path (some (.cycle id))
  | unknownTarget {b : Block} {id : String} (last : path.getLast? = some b)
      (next : firstTarget? g b.id = some id) (unknown : ∀ c ∈ g.blocks, c.id ≠ id) :
      Stops g path (some (.unknownTarget id))

/-- What a graph resolves to, said by its walk. -/
inductive ResolvesTo (g : Graph) : Except ChainError Resolved → Prop where
  | noStart (none : starts g = []) : ResolvesTo g (.error .noStart)
  | severalStarts (several : 2 ≤ (starts g).length) : ResolvesTo g (.error .severalStarts)
  | complete {start : Block} {path : List Block} (only : starts g = [start])
      (passes : Passes g start path) (stops : Stops g path none) :
      ResolvesTo g (.ok ⟨path.filter fun b => b.kind? ≠ some .start ∧ b.kind? ≠ some .finish,
        if ∃ b ∈ g.blocks, b.kind? = some .finish then [] else [missingEndWarning]⟩)
  | astray {start : Block} {path : List Block} {e : ChainError} (only : starts g = [start])
      (passes : Passes g start path) (stops : Stops g path (some e)) : ResolvesTo g (.error e)

/-! ## 2. Looking up blocks and connections -/

variable {g : Graph} {start : Block}

theorem blockWithId?_eq_some_iff {id : String} {b : Block} :
    blockWithId? g id = some b ↔ Denotes g id b := by
  unfold blockWithId? Denotes
  rw [List.find?_eq_some_iff_append]
  constructor
  · rintro ⟨hid, before, after, hblocks, hnone⟩
    refine ⟨after.reverse, before.reverse, ?_, by simpa using hid, fun c hc => ?_⟩
    · rw [← List.reverse_reverse g.blocks, hblocks]
      simp
    · simpa using hnone c (List.mem_reverse.mp hc)
  · rintro ⟨before, after, hblocks, hid, hnone⟩
    refine ⟨by simpa using hid, after.reverse, before.reverse, ?_, fun c hc => ?_⟩
    · rw [hblocks]
      simp
    · simpa using hnone c (List.mem_reverse.mp hc)

theorem blockWithId?_eq_none_iff {id : String} :
    blockWithId? g id = none ↔ ∀ b ∈ g.blocks, b.id ≠ id := by
  unfold blockWithId?
  rw [List.find?_eq_none]
  simp

theorem Denotes.mem {id : String} {b : Block} (h : Denotes g id b) : b ∈ g.blocks := by
  obtain ⟨before, after, hblocks, -, -⟩ := h
  rw [hblocks]
  exact List.mem_append_right _ List.mem_cons_self

theorem Denotes.id_eq {id : String} {b : Block} (h : Denotes g id b) : b.id = id := by
  obtain ⟨_, _, _, hid, _⟩ := h
  exact hid

/-- A block leads to one block at most. -/
theorem Leads.unique {b c c' : Block} (h : Leads g b c) (h' : Leads g b c') : c = c' := by
  obtain ⟨id, hid, hc⟩ := h
  obtain ⟨id', hid', hc'⟩ := h'
  rw [hid, Option.some.injEq] at hid'
  subst hid'
  rw [← blockWithId?_eq_some_iff] at hc hc'
  rw [hc, Option.some.injEq] at hc'
  exact hc'

theorem Leads.firstTarget?_eq {b c : Block} (h : Leads g b c) :
    firstTarget? g b.id = some c.id := by
  obtain ⟨id, hid, hc⟩ := h
  rw [hid, hc.id_eq]

theorem next?_wiring {b : Block} (hb : b ∈ g.blocks) :
    (wiring g).next? b.id = firstTarget? g b.id := by
  unfold Wiring.next? firstTarget?
  rw [targets_wiring hb, List.head?_map, List.head?_filter]

theorem isFlowMarker_eq (b : Block) :
    (!isFlowMarker b) = decide (b.kind? ≠ some .start ∧ b.kind? ≠ some .finish) := by
  unfold isFlowMarker
  cases b.kind? with
  | none => rfl
  | some kind => cases kind <;> rfl

theorem warnings_eq (g : Graph) :
    warnings g = if ∃ b ∈ g.blocks, b.kind? = some .finish then [] else [missingEndWarning] := by
  unfold warnings Block.isOfKind
  simp only [List.any_eq_true, decide_eq_true_eq]

/-! ## 3. The walk that is taken -/

/-- The ids passed so far differ and are those of blocks, so there are not more of them than
blocks. -/
theorem length_le_of_distinct {path : List Block} (hdistinct : (path.map (·.id)).Nodup)
    (hmem : ∀ b ∈ path, b ∈ g.blocks) : path.length ≤ g.blocks.length := by
  have hsubset : path.map (·.id) ⊆ g.blocks.map (·.id) := List.map_subset _ hmem
  have hlength := hdistinct.length_le_of_subset hsubset
  rwa [List.length_map, List.length_map] at hlength

/-- From any point of a walk on, what is passed continues it to where it stops.  The bound is never
reached: it is larger than the number of ids that are still to be passed. -/
theorem walkFrom_passes {fuel : Nat} (passed : List Block) {b : Block}
    (hbegins : (passed ++ [b]).head? = some start) (hleads : (passed ++ [b]).IsChain (Leads g))
    (hdistinct : (passed.map (·.id)).Nodup) (hmem : ∀ c ∈ passed ++ [b], c ∈ g.blocks)
    (hfuel : passed.length + fuel = g.blocks.length + 1) :
    Passes g start (passed ++ (walkFrom g (wiring g) fuel (passed.map (·.id)).reverse b).blocks) ∧
      Stops g (passed ++ (walkFrom g (wiring g) fuel (passed.map (·.id)).reverse b).blocks)
        (walkFrom g (wiring g) fuel (passed.map (·.id)).reverse b).error := by
  -- the invariant: what was passed is a walk from the start, its ids differ, and with the bound
  -- they make up the number of blocks and one
  induction fuel generalizing passed b with
  | zero =>
    -- no more bound left: more different ids than blocks
    have hlength := length_le_of_distinct hdistinct (List.forall_mem_append.mp hmem).1
    omega
  | succ fuel ih =>
    have hb : b ∈ g.blocks := hmem b (by simp)
    rw [walkFrom, next?_wiring hb]
    by_cases hrepeated : b.id ∈ passed.map (·.id)
    -- a cycle: the walk is what was passed before, and its last block leads back into it
    · rw [if_pos (by simpa using hrepeated)]
      have hne : passed ≠ [] := by
        rintro rfl
        cases hrepeated
      have hlast := hleads.rel_getLast_head_of_append hne (List.cons_ne_nil _ _)
      simp only [List.append_nil]
      refine ⟨⟨?_, hleads.left_of_append, hdistinct⟩,
        .cycle (List.getLast?_eq_some_getLast hne) hlast.firstTarget?_eq hrepeated⟩
      rwa [List.head?_append_of_ne_nil _ hne] at hbegins
    · rw [if_neg (by simpa using hrepeated)]
      have hmore : ((passed ++ [b]).map (·.id)).Nodup := by
        rw [List.map_append, List.map_singleton, List.nodup_append]
        refine ⟨hdistinct, List.nodup_singleton _, fun x hx y hy hxy => ?_⟩
        rw [hxy, List.mem_singleton.mp hy] at hx
        exact hrepeated hx
      have hpasses : Passes g start (passed ++ [b]) := ⟨hbegins, hleads, hmore⟩
      have hlast : (passed ++ [b]).getLast? = some b := List.getLast?_concat
      cases hnext : firstTarget? g b.id with
      | none => exact ⟨hpasses, .complete hlast hnext⟩
      | some id =>
        cases hfound : blockWithId? g id with
        | none =>
          simp only [hfound]
          exact ⟨hpasses, .unknownTarget hlast hnext (blockWithId?_eq_none_iff.mp hfound)⟩
        | some next =>
          have hdenotes := blockWithId?_eq_some_iff.mp hfound
          have hstep : (passed ++ [b] ++ [next]).IsChain (Leads g) := by
            refine hleads.append (List.isChain_singleton _) fun x hx y hy => ?_
            rw [hlast] at hx
            cases hx
            cases hy
            exact ⟨id, hnext, hdenotes⟩
          have hids : b.id :: (passed.map (·.id)).reverse =
              ((passed ++ [b]).map (·.id)).reverse := by
            simp
          -- one block more was passed, so the invariant holds with a bound that is one less
          have hrest :=
            ih (passed ++ [b]) (b := next) (by rw [List.head?_append, hbegins]; rfl) hstep hmore
            (List.forall_mem_append.mpr ⟨hmem, by simpa using hdenotes.mem⟩)
              (by rw [List.length_append, List.length_singleton]; omega)
          simp only [hfound, hids]
          rwa [List.append_assoc] at hrest

theorem mem_of_starts (h : starts g = [start]) : start ∈ g.blocks := by
  have hmem : start ∈ starts g := by
    rw [h]
    exact List.mem_cons_self
  exact (List.mem_filter.mp hmem).1

theorem walk_of_single (h : starts g = [start]) :
    Passes g start (walk g).blocks ∧ Stops g (walk g).blocks (walk g).error := by
  have hstart := mem_of_starts h
  have hwalk : walk g = walkFrom g (wiring g) (g.blocks.length + 1) [] start := by
    unfold starts at h
    rw [walk, h]
  rw [hwalk]
  exact walkFrom_passes [] rfl (List.isChain_singleton _) List.nodup_nil
    (by simpa using hstart) (by simp)

/-- A graph resolves to what its walk says. -/
theorem resolvesTo_resolve (g : Graph) : ResolvesTo g (resolve g) := by
  rcases hstarts : starts g with _ | ⟨start, _ | ⟨second, more⟩⟩
  -- no Start, one, or several
  · have hwalk : walk g = ⟨[], some .noStart⟩ := by
      unfold starts at hstarts
      rw [walk, hstarts]
    rw [resolve, hwalk]
    exact .noStart hstarts
  · obtain ⟨hpasses, hstops⟩ := walk_of_single hstarts
    unfold resolve
    cases herror : (walk g).error with
    | none =>
      rw [herror] at hstops
      simp only [herror, isFlowMarker_eq, warnings_eq]
      exact .complete hstarts hpasses hstops
    | some e =>
      rw [herror] at hstops
      simp only [herror]
      exact .astray hstarts hpasses hstops
  · have hwalk : walk g = ⟨[], some .severalStarts⟩ := by
      unfold starts at hstarts
      rw [walk, hstarts]
    rw [resolve, hwalk]
    apply ResolvesTo.severalStarts
    rw [hstarts, List.length_cons, List.length_cons]
    omega

/-! ## 4. There is no other walk -/

/-- Of two walks from one block one continues the other. -/
theorem prefix_or_prefix {b : Block} {path path' : List Block} (h : (b :: path).IsChain (Leads g))
    (h' : (b :: path').IsChain (Leads g)) : path <+: path' ∨ path' <+: path := by
  induction path generalizing b path' with
  | nil => exact .inl List.nil_prefix
  | cons c rest ih =>
    cases path' with
    | nil => exact .inr List.nil_prefix
    | cons c' rest' =>
      obtain ⟨hc, hrest⟩ := List.isChain_cons_cons.mp h
      obtain ⟨hc', hrest'⟩ := List.isChain_cons_cons.mp h'
      obtain rfl : c = c' := hc.unique hc'
      rw [List.prefix_cons_inj, List.prefix_cons_inj]
      exact ih hrest hrest'

/-- Where a walk stops it cannot go on. -/
theorem Stops.not_passes {path : List Block} {e : Option ChainError} (hstops : Stops g path e)
    (c : Block) (rest : List Block) : ¬ Passes g start (path ++ c :: rest) := by
  intro hpasses
  -- a walk stops at its last block, so it has one
  have hne : path ≠ [] := by
    rintro rfl
    cases hstops with
    | complete hlast _ => cases hlast
    | cycle hlast _ _ => cases hlast
    | unknownTarget hlast _ _ => cases hlast
  have hleads := hpasses.leads.rel_getLast_head_of_append hne (List.cons_ne_nil c rest)
  change Leads g (path.getLast hne) c at hleads
  cases hstops with
  | complete hlast hends =>
    obtain rfl := (List.getLast_eq_iff_getLast?_eq_some hne).mpr hlast
    rw [hleads.firstTarget?_eq] at hends
    cases hends
  -- the block after a cycle would have an id that was passed before
  | cycle hlast hnext hrepeated =>
    obtain rfl := (List.getLast_eq_iff_getLast?_eq_some hne).mpr hlast
    rw [hleads.firstTarget?_eq, Option.some.injEq] at hnext
    have hdistinct := hpasses.distinct
    rw [List.map_append, List.nodup_append] at hdistinct
    exact hdistinct.2.2 _ hrepeated c.id (by simp) hnext.symm
  -- and the one after an unknown target would be the block that is missing
  | unknownTarget hlast hnext hunknown =>
    obtain rfl := (List.getLast_eq_iff_getLast?_eq_some hne).mpr hlast
    obtain ⟨id, hid, hdenotes⟩ := hleads
    rw [hid, Option.some.injEq] at hnext
    exact hunknown c hdenotes.mem (hdenotes.id_eq.trans hnext)

theorem Passes.unique {path path' : List Block} {e e' : Option ChainError}
    (h : Passes g start path) (h' : Passes g start path') (hstops : Stops g path e)
    (hstops' : Stops g path' e') : path = path' := by
  obtain ⟨rest, rfl⟩ := List.head?_eq_some_iff.mp h.begins
  obtain ⟨rest', rfl⟩ := List.head?_eq_some_iff.mp h'.begins
  -- one continues the other, and neither goes on where the other stops
  rcases prefix_or_prefix h.leads h'.leads with ⟨more, hmore⟩ | ⟨more, hmore⟩
  · cases more with
    | nil => rw [← hmore, List.append_nil]
    | cons c more =>
      rw [← hmore] at h'
      exact absurd h' (hstops.not_passes c more)
  · cases more with
    | nil => rw [← hmore, List.append_nil]
    | cons c more =>
      rw [← hmore] at h
      exact absurd h (hstops'.not_passes c more)

theorem Passes.mem {path : List Block} (h : Passes g start path) (hstart : start ∈ g.blocks) :
    ∀ b ∈ path, b ∈ g.blocks := by
  obtain ⟨rest, rfl⟩ := List.head?_eq_some_iff.mp h.begins
  have hleads := h.leads
  clear h
  induction rest generalizing start with
  | nil => simpa using hstart
  | cons c rest ih =>
    obtain ⟨⟨id, -, hc⟩, hrest⟩ := List.isChain_cons_cons.mp hleads
    exact List.forall_mem_cons.mpr ⟨hstart, ih hc.mem hrest⟩

theorem Stops.unique {path : List Block} {e e' : Option ChainError}
    (hmem : ∀ b ∈ path, b ∈ g.blocks) (h : Stops g path e) (h' : Stops g path e') : e = e' := by
  -- a repeated id is that of a block
  have hknown : ∀ id ∈ path.map (·.id), ¬ ∀ c ∈ g.blocks, c.id ≠ id := by
    intro id hid hunknown
    obtain ⟨b, hb, rfl⟩ := List.mem_map.mp hid
    exact hunknown b (hmem b hb) rfl
  cases h <;> cases h' <;> grind

theorem ResolvesTo.unique {r r' : Except ChainError Resolved} (h : ResolvesTo g r)
    (h' : ResolvesTo g r') : r = r' := by
  have hstops : ∀ {start start' path path' e e'}, starts g = [start] → starts g = [start'] →
      Passes g start path → Passes g start' path' → Stops g path e → Stops g path' e' →
      path = path' ∧ e = e' := by
    intro start start' path path' e e' honly honly' hpasses hpasses' hstops hstops'
    rw [honly, List.singleton_inj] at honly'
    subst honly'
    obtain rfl := hpasses.unique hpasses' hstops hstops'
    exact ⟨rfl, hstops.unique (hpasses.mem (mem_of_starts honly)) hstops'⟩
  -- the number of starts tells the outcomes apart, and from the only start there is one way to go
  cases h with
  | noStart hnone => cases h' <;> simp_all
  | severalStarts hseveral => cases h' <;> simp_all
  | complete honly hpasses hstop =>
    cases h' with
    | complete honly' hpasses' hstop' => rw [(hstops honly honly' hpasses hpasses' hstop hstop').1]
    | astray honly' hpasses' hstop' => cases (hstops honly honly' hpasses hpasses' hstop hstop').2
    | _ => simp_all
  | astray honly hpasses hstop =>
    cases h' with
    | complete honly' hpasses' hstop' => cases (hstops honly honly' hpasses hpasses' hstop hstop').2
    | astray honly' hpasses' hstop' =>
      cases (hstops honly honly' hpasses hpasses' hstop hstop').2; rfl
    | _ => simp_all

theorem resolve_eq_iff {r : Except ChainError Resolved} : resolve g = r ↔ ResolvesTo g r :=
  ⟨fun h => h ▸ resolvesTo_resolve g, fun h => (resolvesTo_resolve g).unique h⟩

theorem ResolvesTo.distinct {r : Resolved} (h : ResolvesTo g (.ok r)) :
    (r.chain.map (·.id)).Nodup := by
  cases h with
  | complete _ hpasses _ => exact hpasses.distinct.sublist (List.filter_sublist.map _)

/-- Resolving a graph gives what its walk says and nothing else.  The ids of a chain differ, and
whatever is wrong is wrong with the shape of the graph. -/
theorem resolve_is_the_walk (g : Graph) :
    (∀ r, resolve g = r ↔ ResolvesTo g r) ∧ (∀ r, resolve g = .ok r → (r.chain.map (·.id)).Nodup) ∧
      ∀ e, resolve g = .error e → e.diagnosis.errorClass = .structural :=
  ⟨fun _ => resolve_eq_iff, fun _ h => (resolve_eq_iff.mp h).distinct, fun _ _ => rfl⟩

end CypherBlocks.Chain
