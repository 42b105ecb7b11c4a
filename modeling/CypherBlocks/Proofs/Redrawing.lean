import CypherBlocks.Proofs.Emission
import CypherBlocks.Proofs.Walk
import Mathlib.Data.List.Forall2
import Mathlib.Data.List.Perm.Basic

/-!
# Graphs that compile alike

A query says nothing of how its graph was drawn.  Where the walks through two graphs correspond step
by step, so do their chains and errors; it is enough to compare what a step looks at.  Each edit
below changes only what no step looks at, or renames what it does.
-/

namespace CypherBlocks

/-! ## 1. Walks that correspond -/

namespace Chain

/-- An error about another id. -/
def ChainError.rename (f : String → String) : ChainError → ChainError
  | .noStart => .noStart
  | .severalStarts => .severalStarts
  | .cycle id => .cycle (f id)
  | .unknownTarget id => .unknownTarget (f id)

/-- All that a walk looks at is found in the second graph too, under other ids and as corresponding
blocks. -/
structure Corresponds (f : String → String) (R : Block → Block → Prop) (g h : Graph) : Prop where
  id : ∀ {b c}, R b c → c.id = f b.id
  kind : ∀ {b c}, R b c → c.kind? = b.kind?
  count : (starts h).length = (starts g).length
  start : ∀ {b}, starts g = [b] → ∃ c, starts h = [c] ∧ R b c
  finish : (∃ b ∈ h.blocks, b.kind? = some .finish) ↔ ∃ b ∈ g.blocks, b.kind? = some .finish
  next : ∀ b ∈ g.blocks, firstTarget? h (f b.id) = (firstTarget? g b.id).map f
  block : ∀ b ∈ g.blocks, ∀ x, firstTarget? g b.id = some x →
    Option.Rel R (blockWithId? g x) (blockWithId? h (f x))
  injective : ∀ b ∈ g.blocks, ∀ c ∈ g.blocks, f b.id = f c.id → b.id = c.id

/-- Chains of corresponding blocks with the same warnings, or the same error about corresponding
ids. -/
inductive Alike (f : String → String) (R : Block → Block → Prop) : Except ChainError Resolved →
  Except ChainError Resolved → Prop where
  | chain {bs cs : List Block} (warnings : List String) (blocks : List.Forall₂ R bs cs) :
      Alike f R (.ok ⟨bs, warnings⟩) (.ok ⟨cs, warnings⟩)
  | error (e : ChainError) : Alike f R (.error e) (.error (e.rename f))

section Correspondence

variable {f : String → String} {R : Block → Block → Prop} {g h : Graph}

theorem Corresponds.leads (hgh : Corresponds f R g h) {b b' c : Block} (hb : b ∈ g.blocks)
    (hbb : R b b') (hleads : Leads g b c) : ∃ c', R c c' ∧ Leads h b' c' := by
  obtain ⟨x, hx, hc⟩ := hleads
  have hblock := hgh.block b hb x hx
  rw [blockWithId?_eq_some_iff.mpr hc] at hblock
  cases hc' : blockWithId? h (f x) with
  | none =>
    rw [hc'] at hblock
    cases hblock
  | some c' =>
    rw [hc'] at hblock
    cases hblock with
    | some hcc =>
      refine ⟨c', hcc, f x, ?_, blockWithId?_eq_some_iff.mp hc'⟩
      rw [hgh.id hbb, hgh.next b hb, hx]
      rfl

/-- Step by step, a walk through the first graph is one through the second. -/
theorem Corresponds.isChain (hgh : Corresponds f R g h) {b b' : Block} {rest : List Block}
    (hb : b ∈ g.blocks) (hbb : R b b') (hchain : (b :: rest).IsChain (Leads g)) :
    ∃ rest', List.Forall₂ R rest rest' ∧ (b' :: rest').IsChain (Leads h) := by
  induction rest generalizing b b' with
  | nil => exact ⟨[], .nil, List.isChain_singleton _⟩
  | cons c rest ih =>
    obtain ⟨hleads, hrest⟩ := List.isChain_cons_cons.mp hchain
    obtain ⟨c', hcc, hleads'⟩ := hgh.leads hb hbb hleads
    obtain ⟨id, -, hdenotes⟩ := hleads
    obtain ⟨rest', hall, hchain'⟩ := ih hdenotes.mem hcc hrest
    exact ⟨c' :: rest', .cons hcc hall, List.isChain_cons_cons.mpr ⟨hleads', hchain'⟩⟩

theorem Corresponds.map_id (hgh : Corresponds f R g h) {path path' : List Block}
    (hpath : List.Forall₂ R path path') : path'.map (·.id) = (path.map (·.id)).map f := by
  induction hpath with
  | nil => rfl
  | cons hbc _ ih => rw [List.map_cons, List.map_cons, List.map_cons, hgh.id hbc, ih]

theorem Corresponds.passes (hgh : Corresponds f R g h) {start start' : Block} {path : List Block}
    (hstart : start ∈ g.blocks) (hss : R start start') (hpasses : Passes g start path) :
    ∃ path', List.Forall₂ R path path' ∧ Passes h start' path' := by
  have hmem := hpasses.mem hstart
  obtain ⟨rest, rfl⟩ := List.head?_eq_some_iff.mp hpasses.begins
  obtain ⟨rest', hall, hchain⟩ := hgh.isChain hstart hss hpasses.leads
  refine ⟨start' :: rest', .cons hss hall, rfl, hchain, ?_⟩
  -- ids that differ are renamed to ids that differ
  rw [hgh.map_id (.cons hss hall)]
  refine hpasses.distinct.map_on fun x hx y hy hxy => ?_
  obtain ⟨b, hb, rfl⟩ := List.mem_map.mp hx
  obtain ⟨c, hc, rfl⟩ := List.mem_map.mp hy
  exact hgh.injective b (hmem b hb) c (hmem c hc) hxy

theorem forall₂_getLast? {path path' : List Block} (hpath : List.Forall₂ R path path') {b : Block}
    (hb : path.getLast? = some b) : ∃ b', path'.getLast? = some b' ∧ R b b' := by
  rw [List.getLast?_eq_head?_reverse] at hb ⊢
  have hreverse := List.forall₂_reverse_iff.mpr hpath
  obtain ⟨rest, hrest⟩ := List.head?_eq_some_iff.mp hb
  rw [hrest] at hreverse
  obtain ⟨b', rest', hbb, -, heq⟩ := List.forall₂_cons_left_iff.mp hreverse
  exact ⟨b', by rw [heq]; rfl, hbb⟩

theorem Corresponds.stops (hgh : Corresponds f R g h) {path path' : List Block}
    {e : Option ChainError} (hmem : ∀ b ∈ path, b ∈ g.blocks) (hpath : List.Forall₂ R path path')
    (hstops : Stops g path e) : Stops h path' (e.map (ChainError.rename f)) := by
  have hnext : ∀ {b b'}, path.getLast? = some b → R b b' →
      firstTarget? h b'.id = (firstTarget? g b.id).map f := by
    intro b b' hb hbb
    rw [hgh.id hbb]
    exact hgh.next b (hmem b (List.mem_of_getLast? hb))
  cases hstops with
  | complete hlast hends =>
    obtain ⟨b', hlast', hbb⟩ := forall₂_getLast? hpath hlast
    exact .complete hlast' (by rw [hnext hlast hbb, hends]; rfl)
  | cycle hlast hid hrepeated =>
    obtain ⟨b', hlast', hbb⟩ := forall₂_getLast? hpath hlast
    refine .cycle hlast' (by rw [hnext hlast hbb, hid]; rfl) ?_
    rw [hgh.map_id hpath]
    exact List.mem_map_of_mem hrepeated
  -- only what a connection of the walk points at has to be missing in both
  | @unknownTarget b id hlast hid hunknown =>
    obtain ⟨b', hlast', hbb⟩ := forall₂_getLast? hpath hlast
    refine .unknownTarget hlast' (by rw [hnext hlast hbb, hid]; rfl) ?_
    have hblock := hgh.block b (hmem b (List.mem_of_getLast? hlast)) id hid
    rw [blockWithId?_eq_none_iff.mpr hunknown] at hblock
    rw [← blockWithId?_eq_none_iff]
    cases hfound : blockWithId? h (f id) with
    | none => rfl
    | some c =>
      rw [hfound] at hblock
      cases hblock

theorem forall₂_filter_kind (hkind : ∀ {b c}, R b c → c.kind? = b.kind?) {path path' : List Block}
    (hpath : List.Forall₂ R path path') (p : Option Kind → Bool) :
    List.Forall₂ R (path.filter fun b => p b.kind?) (path'.filter fun b => p b.kind?) := by
  induction hpath with
  | nil => exact .nil
  | @cons b c _ _ hbc _ ih =>
    rw [List.filter_cons, List.filter_cons, hkind hbc]
    by_cases hp : p b.kind? = true
    · rw [if_pos hp, if_pos hp]
      exact .cons hbc ih
    · rw [if_neg hp, if_neg hp]
      exact ih

/-- Graphs whose walks correspond resolve alike. -/
theorem Corresponds.resolve (hgh : Corresponds f R g h) :
    Alike f R (Chain.resolve g) (Chain.resolve h) := by
  have hresolves := resolvesTo_resolve g
  -- the result of one graph is read off as a walk, carried over, and is the result of the other
  -- since there is only one
  generalize Chain.resolve g = r at hresolves
  cases hresolves with
  | noStart hnone =>
    have hcount := hgh.count
    rw [hnone, List.length_nil, List.length_eq_zero_iff] at hcount
    rw [resolve_eq_iff.mpr (.noStart hcount)]
    exact .error .noStart
  | severalStarts hseveral =>
    rw [← hgh.count] at hseveral
    rw [resolve_eq_iff.mpr (.severalStarts hseveral)]
    exact .error .severalStarts
  | @complete start path honly hpasses hstops =>
    have hstart := mem_of_starts honly
    obtain ⟨start', honly', hss⟩ := hgh.start honly
    obtain ⟨path', hpath, hpasses'⟩ := hgh.passes hstart hss hpasses
    rw [resolve_eq_iff.mpr
      (.complete honly' hpasses' (hgh.stops (hpasses.mem hstart) hpath hstops))]
    simp only [hgh.finish]
    exact .chain _ (forall₂_filter_kind hgh.kind hpath fun kind =>
      decide (kind ≠ some .start ∧ kind ≠ some .finish))
  | @astray start path e honly hpasses hstops =>
    have hstart := mem_of_starts honly
    obtain ⟨start', honly', hss⟩ := hgh.start honly
    obtain ⟨path', hpath, hpasses'⟩ := hgh.passes hstart hss hpasses
    rw [resolve_eq_iff.mpr (.astray honly' hpasses' (hgh.stops (hpasses.mem hstart) hpath hstops))]
    exact .error e

end Correspondence

/-! ## 2. What no step looks at -/

section Agreement

variable {g h : Graph}

theorem Alike.eq {r r' : Except ChainError Resolved} (hrr : Alike id Eq r r') : r = r' := by
  cases hrr with
  | chain warnings hblocks =>
    rw [List.forall₂_eq_eq_eq] at hblocks
    rw [hblocks]
  | error e => cases e <;> rfl

/-- Graphs with the same Start blocks in some order in which every block has the same next target
and every target is the same block. -/
theorem resolve_eq_of_agree (hstarts : (starts h).Perm (starts g))
    (hfinish : (∃ b ∈ h.blocks, b.kind? = some .finish) ↔ ∃ b ∈ g.blocks, b.kind? = some .finish)
    (hnext : ∀ b ∈ g.blocks, firstTarget? h b.id = firstTarget? g b.id)
    (hblock : ∀ c ∈ g.connections, blockWithId? h c.target = blockWithId? g c.target) :
    resolve h = resolve g := by
  have hgh : Corresponds id Eq g h := {
    id := fun hbc => hbc ▸ rfl
    kind := fun hbc => hbc ▸ rfl
    count := hstarts.length_eq
    start := fun {b} hb => ⟨b, List.perm_singleton.mp (hb ▸ hstarts), rfl⟩
    finish := hfinish
    next := fun b hb => by rw [Option.map_id]; exact hnext b hb
    block := fun b hb x hx => by
      obtain ⟨c, hc, rfl⟩ := Option.map_eq_some_iff.mp hx
      rw [id, hblock c (List.mem_of_find?_eq_some hc)]
      cases blockWithId? g c.target with
      | none => exact .none
      | some b => exact .some rfl
    injective := fun _ _ _ _ hbc => hbc }
  exact hgh.resolve.eq.symm

/-- Where ids differ, an id denotes whichever block has it. -/
theorem denotes_iff_of_nodup (hids : (g.blocks.map (·.id)).Nodup) {id : String} {b : Block} :
    Denotes g id b ↔ b ∈ g.blocks ∧ b.id = id := by
  refine ⟨fun hb => ⟨hb.mem, hb.id_eq⟩, fun ⟨hb, hid⟩ => ?_⟩
  obtain ⟨before, after, hblocks⟩ := List.append_of_mem hb
  refine ⟨before, after, hblocks, hid, fun c hc heq => ?_⟩
  rw [hblocks, List.map_append, List.map_cons] at hids
  have hafter := (List.nodup_cons.mp (List.nodup_append.mp hids).2.1).1
  exact hafter (List.mem_map.mpr ⟨c, hc, heq.trans hid.symm⟩)

theorem blockWithId?_perm (hids : (g.blocks.map (·.id)).Nodup) (hperm : h.blocks.Perm g.blocks)
    (id : String) : blockWithId? h id = blockWithId? g id := by
  have hids' : (h.blocks.map (·.id)).Nodup := (hperm.map _).nodup_iff.mpr hids
  apply Option.ext
  intro b
  rw [blockWithId?_eq_some_iff, blockWithId?_eq_some_iff, denotes_iff_of_nodup hids,
    denotes_iff_of_nodup hids', hperm.mem_iff]

theorem firstTarget?_eq_head? (g : Graph) (id : String) :
    firstTarget? g id = ((g.connections.filter (·.source = id)).map (·.target)).head? := by
  rw [firstTarget?, List.head?_map, List.head?_filter]

end Agreement

end Chain

/-- A change to a drawing that no walk notices. -/
inductive Rearranged : Graph → Graph → Prop where
  | blocks {bs bs' : List Block} {cs : List Connection} (permuted : bs'.Perm bs) :
      Rearranged ⟨bs, cs⟩ ⟨bs', cs⟩
  | connections {bs : List Block} {cs cs' : List Connection} (permuted : cs'.Perm cs)
      (ordered : ∀ id, cs'.filter (·.source = id) = cs.filter (·.source = id)) :
      Rearranged ⟨bs, cs⟩ ⟨bs, cs'⟩
  | addConnection {bs : List Block} {before after : List Connection} {c : Connection}
      (unused : (∀ b ∈ bs, b.id ≠ c.source) ∨ ∃ d ∈ before, d.source = c.source) :
      Rearranged ⟨bs, before ++ after⟩ ⟨bs, before ++ c :: after⟩
  | removeConnection {bs : List Block} {before after : List Connection} {c : Connection}
      (unused : (∀ b ∈ bs, b.id ≠ c.source) ∨ ∃ d ∈ before, d.source = c.source) :
      Rearranged ⟨bs, before ++ c :: after⟩ ⟨bs, before ++ after⟩
  | addBlock {before after : List Block} {b : Block} {cs : List Connection}
      (ordinary : b.kind? ≠ some .start ∧ b.kind? ≠ some .finish)
      (fresh : ∀ c ∈ before ++ after, c.id ≠ b.id) (apart : ∀ c ∈ cs, c.target ≠ b.id) :
      Rearranged ⟨before ++ after, cs⟩ ⟨before ++ b :: after, cs⟩

namespace Chain

/-- A connection that no block has, or not first, is not followed. -/
theorem resolve_addConnection {bs : List Block} {before after : List Connection} {c : Connection}
    (hunused : (∀ b ∈ bs, b.id ≠ c.source) ∨ ∃ d ∈ before, d.source = c.source) :
    resolve ⟨bs, before ++ c :: after⟩ = resolve ⟨bs, before ++ after⟩ := by
  refine resolve_eq_of_agree (.refl _) Iff.rfl (fun b hb => ?_) fun _ _ => rfl
  unfold firstTarget?
  simp only [List.find?_append, List.find?_cons]
  by_cases hsource : c.source = b.id
  · obtain ⟨d, hd, hdc⟩ := hunused.resolve_left fun hnone => hnone b hb hsource.symm
    have hfound : (before.find? (·.source = b.id)).isSome = true :=
      List.find?_isSome.mpr ⟨d, hd, decide_eq_true (hdc.trans hsource)⟩
    rw [Option.or_of_isSome hfound, Option.or_of_isSome hfound]
  · rw [decide_eq_false hsource]

theorem resolve_addBlock {before after : List Block} {b : Block} {cs : List Connection}
    (hordinary : b.kind? ≠ some .start ∧ b.kind? ≠ some .finish)
    (hapart : ∀ c ∈ cs, c.target ≠ b.id) :
    resolve ⟨before ++ b :: after, cs⟩ = resolve ⟨before ++ after, cs⟩ := by
  refine resolve_eq_of_agree ?_ ?_ (fun _ _ => rfl) fun c hc => ?_
  · unfold starts
    simp [Block.isOfKind, hordinary.1]
  · simp only [List.mem_append, List.mem_cons]
    grind
  · unfold blockWithId?
    have hne : ¬ b.id = c.target := fun heq => hapart c hc heq.symm
    simp [List.find?_append, hne]

theorem resolve_rearranged {g h : Graph} (hids : (g.blocks.map (·.id)).Nodup)
    (hgh : Rearranged g h) : resolve h = resolve g := by
  cases hgh with
  | blocks hperm =>
    exact resolve_eq_of_agree (hperm.filter _) (by simp only [hperm.mem_iff]) (fun _ _ =>
      rfl) fun c _ =>
      blockWithId?_perm hids hperm c.target
  | connections _ hordered =>
    refine resolve_eq_of_agree (.refl _) Iff.rfl (fun b _ => ?_) fun _ _ => rfl
    rw [firstTarget?_eq_head?, firstTarget?_eq_head?, hordered]
  | addConnection hunused => exact resolve_addConnection hunused
  | removeConnection hunused => exact (resolve_addConnection hunused).symm
  | addBlock hordinary _ hapart => exact resolve_addBlock hordinary hapart

end Chain

/-- A result follows from how the graph resolves. -/
theorem compile_congr {g h : Graph} (hgh : Chain.resolve h = Chain.resolve g) :
    compile h = compile g := by
  unfold compile query compileWarnings
  rw [hgh]

/-! ## 3. Names and labels -/

/-- The ids that a graph mentions. -/
def Graph.Mentions (g : Graph) (x : String) : Prop :=
  (∃ b ∈ g.blocks, b.id = x) ∨ ∃ c ∈ g.connections, c.source = x ∨ c.target = x

def Connection.rename (f : String → String) (c : Connection) : Connection :=
  ⟨f c.source, f c.target⟩

/-- The same blocks under other ids and with any labels, connected in the same way. -/
structure Redrawn (f : String → String) (g h : Graph) : Prop where
  blocks : List.Forall₂ (fun b c => c.id = f b.id ∧ c.params = b.params) g.blocks h.blocks
  connections : h.connections = g.connections.map (Connection.rename f)
  injective : ∀ x y, g.Mentions x → g.Mentions y → f x = f y → x = y

section Redrawn

open Chain

variable {f : String → String} {g h : Graph}

/-- What is found in lists that correspond corresponds. -/
theorem forall₂_find? {α β : Type} {R : α → β → Prop} {p : α → Bool} {q : β → Bool} {xs : List α}
    {ys : List β} (hxs : List.Forall₂ R xs ys) (hpq : ∀ x ∈ xs, ∀ y, R x y → q y = p x) :
    Option.Rel R (xs.find? p) (ys.find? q) := by
  induction hxs with
  | nil => exact .none
  | @cons x y xs ys hxy _ ih =>
    obtain ⟨hx, hxs⟩ := List.forall_mem_cons.mp hpq
    rw [List.find?_cons, List.find?_cons, hx y hxy]
    cases p x with
    | true => exact .some hxy
    | false => exact ih hxs

theorem Redrawn.firstTarget?_eq (hgh : Redrawn f g h) {x : String} (hx : g.Mentions x) :
    firstTarget? h (f x) = (firstTarget? g x).map f := by
  have hrename : List.Forall₂ (fun c d => d = Connection.rename f c) g.connections
      h.connections := by
    rw [hgh.connections, List.forall₂_map_right_iff, List.forall₂_same]
    exact fun _ _ => rfl
  have hfound :=
    forall₂_find? (p := (·.source = x)) (q := (·.source = f x)) hrename fun c hc d hcd => by
    subst hcd
    have hiff : f c.source = f x ↔ c.source = x :=
      ⟨hgh.injective _ _ (.inr ⟨c, hc, .inl rfl⟩) hx, fun heq => by rw [heq]⟩
    simp [Connection.rename, hiff]
  unfold firstTarget?
  generalize g.connections.find? (·.source = x) = found at hfound ⊢
  generalize h.connections.find? (·.source = f x) = found' at hfound ⊢
  cases hfound with
  | none => rfl
  | some hcd =>
    subst hcd
    rfl

theorem Redrawn.rel_blockWithId? (hgh : Redrawn f g h) {x : String} (hx : g.Mentions x) :
    Option.Rel (fun b c => c.id = f b.id ∧ c.params = b.params) (blockWithId? g x)
      (blockWithId? h (f x)) := by
  refine forall₂_find? (List.forall₂_reverse_iff.mpr hgh.blocks) fun b hb c hbc => ?_
  have hiff : f b.id = f x ↔ b.id = x :=
    ⟨hgh.injective _ _ (.inl ⟨b, List.mem_reverse.mp hb, rfl⟩) hx, fun heq => by rw [heq]⟩
  simp [hbc.1, hiff]

theorem Redrawn.corresponds (hgh : Redrawn f g h) :
    Corresponds f (fun b c => c.id = f b.id ∧ c.params = b.params) g h := by
  have hkind : ∀ {b c : Block}, c.id = f b.id ∧ c.params = b.params → c.kind? = b.kind? :=
    fun hbc => by
    rw [Block.kind?, hbc.2, Block.kind?]
  have hstarts : List.Forall₂ (fun b c => c.id = f b.id ∧ c.params = b.params)
      (starts g) (starts h) :=
    forall₂_filter_kind hkind hgh.blocks fun kind => decide (kind = some .start)
  have hkinds : h.blocks.map (·.kind?) = g.blocks.map (·.kind?) := by
    rw [← List.forall₂_eq_eq_eq, List.forall₂_map_left_iff, List.forall₂_map_right_iff]
    exact hgh.blocks.flip.imp fun _ _ hbc => hkind hbc
  exact {
    id := fun hbc => hbc.1
    kind := hkind
    count := hstarts.length_eq.symm
    start := fun hb => by
      rw [hb] at hstarts
      obtain ⟨c, rest, hbc, hrest, hstart⟩ := List.forall₂_cons_left_iff.mp hstarts
      cases hrest
      exact ⟨c, hstart, hbc⟩
    finish := by rw [← List.mem_map, hkinds, List.mem_map]
    next := fun b hb => hgh.firstTarget?_eq (.inl ⟨b, hb, rfl⟩)
    block := fun b hb x hx => by
      obtain ⟨c, hc, rfl⟩ := Option.map_eq_some_iff.mp hx
      exact hgh.rel_blockWithId? (.inr ⟨c, List.mem_of_find?_eq_some hc, .inr rfl⟩)
    injective := fun b hb c hc => hgh.injective _ _ (.inl ⟨b, hb, rfl⟩) (.inl ⟨c, hc, rfl⟩) }

end Redrawn

/-- Results that are the same up to errors are both errors, or the same. -/
theorem errors_or_eq_of_toOption {ε α : Type} {r r' : Except ε α} (h : r'.toOption = r.toOption) :
    (∃ e e', r = .error e ∧ r' = .error e') ∨ ∃ x, r = .ok x ∧ r' = .ok x := by
  cases r with
  | error e =>
    cases r' with
    | error e' => exact .inl ⟨e, e', rfl, rfl⟩
    | ok x => cases h
  | ok x =>
    cases r' with
    | error e' => cases h
    | ok y =>
      cases h
      exact .inr ⟨x, rfl, rfl⟩

/-- Only the name in a message depends on more of a block than its parameters. -/
theorem toOption_emit {b c : Block} (hbc : c.params = b.params) (input : EmitInput)
    (names : Cypher.Names) : (emit c input names).toOption = (emit b input names).toOption := by
  have hblock : emitBlock c input = emitBlock b input := by simp only [emitBlock, hbc]
  rw [emit_eq, emit_eq, hblock]
  cases ((emitBlock b input).runFrom names).1 with
  | error e => simp only [Except.mapError, Except.map, Except.toOption]
  | ok o => simp only [Except.mapError, Except.map, Except.toOption]

/-- Emission succeeds alike on blocks with the same parameters. -/
theorem toOption_emitFrom {bs cs : List Block}
    (hbs : List.Forall₂ (fun b c => c.params = b.params) bs cs) (first : Bool) (a : Assembly) :
    (emitFrom first a cs).outcome.toOption = (emitFrom first a bs).outcome.toOption := by
  induction hbs generalizing first a with
  | nil => rfl
  | @cons b c bs cs hbc _ ih =>
    have hemit := toOption_emit hbc ⟨a.binding, first, a.scope⟩ a.names
    unfold emitFrom
    rcases errors_or_eq_of_toOption hemit with ⟨d, d', hb, hc⟩ | ⟨o, hb, hc⟩
    · rw [hb, hc]
      rfl
    · rw [hb, hc]
      exact ih false (a.add first o.1 o.2)

theorem toOption_chainQuery {bs cs : List Block}
    (hbs : List.Forall₂ (fun b c => c.params = b.params) bs cs) :
    (chainQuery cs).toOption = (chainQuery bs).toOption := by
  unfold chainQuery emitChain
  rcases errors_or_eq_of_toOption (toOption_emitFrom hbs true Assembly.empty) with ⟨d, d', hb,
    hc⟩ | ⟨a, hb, hc⟩
  · rw [hb, hc]
    rfl
  · rw [hb, hc]

/-- The same text and warnings, and both succeed or both fail. -/
structure Result.SameQuery (r s : Result) : Prop where
  text : r.text = s.text
  warnings : r.warnings = s.warnings
  ok : r.ok = s.ok

theorem Redrawn.sameQuery {f : String → String} {g h : Graph} (hgh : Redrawn f g h) :
    (compile h).SameQuery (compile g) := by
  have halike := hgh.corresponds.resolve
  unfold compile query compileWarnings
  generalize Chain.resolve g = r at halike ⊢
  generalize Chain.resolve h = r' at halike ⊢
  cases halike with
  | error e => exact ⟨rfl, rfl, rfl⟩
  | chain warnings hblocks =>
    have hparams := hblocks.imp fun _ _ hbc => hbc.2
    rcases errors_or_eq_of_toOption (toOption_chainQuery hparams) with ⟨d, d', hb,
      hc⟩ | ⟨clauses, hb, hc⟩
    · simp only [hb, hc]
      exact ⟨rfl, rfl, rfl⟩
    · simp only [hb, hc]
      exact ⟨rfl, rfl, rfl⟩

/-! ## 4. A query does not depend on its drawing -/

/-- The graph with an id for each id. -/
def Graph.rename (f : String → String) (g : Graph) : Graph where
  blocks := g.blocks.map fun b => { b with id := f b.id }
  connections := g.connections.map (Connection.rename f)

/-- The graph with labels given anew, block by block. -/
def Graph.relabel (label : Block → String) (g : Graph) : Graph :=
  { g with blocks := g.blocks.map fun b => { b with label := label b } }

theorem redrawn_rename {f : String → String} {g : Graph}
    (hf : ∀ x y, g.Mentions x → g.Mentions y → f x = f y → x = y) : Redrawn f g (g.rename f) where
  blocks := by
    apply List.forall₂_map_right_iff.mpr
    exact List.forall₂_same.mpr fun _ _ => ⟨rfl, rfl⟩
  connections := rfl
  injective := hf

theorem redrawn_relabel (label : Block → String) (g : Graph) : Redrawn id g (g.relabel label) where
  blocks := by
    apply List.forall₂_map_right_iff.mpr
    exact List.forall₂_same.mpr fun _ _ => ⟨rfl, rfl⟩
  connections := (List.map_id _).symm
  injective := fun _ _ _ _ heq => heq

/-- Where ids differ, a rearranged graph has the same result.  New ids or labels change no more than
the message of an error. -/
theorem compile_unchanged_by_drawing {g : Graph} (hids : (g.blocks.map (·.id)).Nodup) :
    (∀ h, Rearranged g h → compile h = compile g) ∧
      (∀ f : String → String, (∀ x y, g.Mentions x → g.Mentions y → f x = f y → x = y) →
        (compile (g.rename f)).SameQuery (compile g)) ∧
      ∀ label : Block → String, (compile (g.relabel label)).SameQuery (compile g) := by
  refine ⟨?_, ?_, ?_⟩
  · intro h hgh
    exact compile_congr (Chain.resolve_rearranged hids hgh)
  · intro f hf
    exact (redrawn_rename hf).sameQuery
  · intro label
    exact (redrawn_relabel label g).sameQuery

/-- A search that its Start block reaches first, and a gate that it would reach second. -/
def forkedGraph : Graph where
  blocks := [⟨"s", "Start", some .start⟩, ⟨"q", "", some (.textSearch ⟨"mass", 3⟩)⟩,
    ⟨"g", "Gate", some .andGate⟩]
  connections := [⟨"s", "q"⟩, ⟨"s", "g"⟩]

theorem forkedGraph_redrawn :
    (forkedGraph.blocks.map (·.id)).Nodup ∧ compile { forkedGraph with blocks :=
      forkedGraph.blocks.reverse } = compile forkedGraph ∧
      compile { forkedGraph with connections := [⟨"s", "q"⟩] } = compile forkedGraph ∧
      (compile (forkedGraph.rename ("block " ++ ·))).SameQuery (compile forkedGraph) ∧
      (compile (forkedGraph.relabel fun b => b.id)).SameQuery (compile forkedGraph) := by
  have hids : (forkedGraph.blocks.map (·.id)).Nodup := by decide
  obtain ⟨hrearranged, hrenamed, hrelabeled⟩ := compile_unchanged_by_drawing hids
  refine ⟨hids, ?_, ?_, ?_, hrelabeled _⟩
  · exact hrearranged _ (.blocks (List.reverse_perm _))
  · exact hrearranged _ (@Rearranged.removeConnection _ [⟨"s", "q"⟩] []
      _ (.inr ⟨⟨"s", "q"⟩, List.mem_singleton_self _, rfl⟩))
  · apply hrenamed
    intro x y _ _ heq
    exact String.append_right_inj _ |>.mp heq

end CypherBlocks
