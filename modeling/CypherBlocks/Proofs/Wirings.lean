import CypherBlocks.Chain.Resolve
import Mathlib.Data.List.Basic

/-!
# Nodes and edges

What each operation on a wiring does to the nodes and to the targets of one node.  The wiring of a
graph follows: its nodes are the ids of the blocks, and the edges that leave a node are the
connections that do, in their order.  Where nodes and edges are added in any order, an edge is
accepted just if its source has been added before it, and the edges that leave a node are the
accepted ones, in their order.
-/

namespace CypherBlocks

namespace Wiring

variable (w : Wiring)

/-! ## 1. Single operations -/

theorem lookup_singleton (id x : String) (ts : List String) :
    List.lookup x [(id, ts)] = if x = id then some ts else none := by
  by_cases h : x = id
  · rw [if_pos h, h, List.lookup_cons_self]
  · rw [if_neg h, List.lookup_cons, beq_eq_false_iff_ne.mpr h]
    rfl

theorem has_addNode (id x : String) : (w.addNode id).has x = (w.has x || decide (x = id)) := by
  unfold addNode
  by_cases hid : w.has id = true
  · rw [if_pos hid]
    by_cases hx : x = id
    · rw [hx, hid, Bool.true_or]
    · rw [decide_eq_false hx, Bool.or_false]
  · rw [if_neg hid]
    unfold has
    rw [List.lookup_append, Option.isSome_or, lookup_singleton]
    by_cases hx : x = id <;> simp [hx]

/-- A node that is added again keeps its edges, and a new one has none. -/
theorem targets_addNode (id x : String) : (w.addNode id).targets x = w.targets x := by
  unfold addNode
  by_cases hid : w.has id = true
  · rw [if_pos hid]
  · rw [if_neg hid]
    unfold targets
    rw [List.lookup_append, lookup_singleton]
    cases w.nodes.lookup x with
    | some ts => rfl
    | none => by_cases hx : x = id <;> simp [hx]

/-- Adding a target to one node leaves the others alone. -/
theorem lookup_addTarget (nodes : List (String × List String)) (source target x : String) :
    (nodes.map fun (id, ts) => if id = source then (id, ts ++ [target]) else (id, ts)).lookup x =
      (nodes.lookup x).map fun ts => if x = source then ts ++ [target] else ts := by
  induction nodes with
  | nil => rfl
  | cons node rest ih =>
    obtain ⟨id, ts⟩ := node
    have hhead : (if id = source then (id, ts ++ [target]) else (id, ts)) = (id, if id = source then
        ts ++ [target] else ts) := by
      by_cases hs : id = source <;> simp [hs]
    simp only [List.map_cons, hhead]
    rw [List.lookup_cons, List.lookup_cons]
    by_cases hx : x = id
    · rw [hx, beq_self_eq_true]
      rfl
    · rw [beq_eq_false_iff_ne.mpr hx]
      exact ih

variable {w}

theorem addEdge?_eq_none_iff {source target : String} :
    w.addEdge? source target = none ↔ w.has source = false := by
  unfold addEdge?
  by_cases h : w.has source = true
  · simp [h]
  · simp [h]

theorem has_addEdge? {w' : Wiring} {source target : String}
    (h : w.addEdge? source target = some w') (x : String) : w'.has x = w.has x := by
  unfold addEdge? at h
  by_cases hs : w.has source = true
  · rw [if_pos hs, Option.some.injEq] at h
    subst h
    unfold has
    rw [lookup_addTarget, Option.isSome_map]
  · rw [if_neg hs] at h
    cases h

theorem targets_addEdge? {w' : Wiring} {source target : String}
    (h : w.addEdge? source target = some w') (x : String) :
    w'.targets x = if x = source then w.targets x ++ [target] else w.targets x := by
  unfold addEdge? at h
  by_cases hs : w.has source = true
  · rw [if_pos hs, Option.some.injEq] at h
    subst h
    unfold targets
    rw [lookup_addTarget]
    by_cases hx : x = source
    · subst hx
      obtain ⟨ts, hts⟩ := Option.isSome_iff_exists.mp hs
      simp [hts]
    · simp [hx]
  · rw [if_neg hs] at h
    cases h

/-- An edge is added at the end of those that leave its source, if the source is a node. -/
theorem targets_getD_addEdge? (w : Wiring) (source target x : String) :
    ((w.addEdge? source target).getD w).targets x = w.targets x ++ if w.has source = true ∧
      source = x then [target] else [] := by
  cases h : w.addEdge? source target with
  | none =>
    rw [Option.getD_none, if_neg, List.append_nil]
    rw [addEdge?_eq_none_iff.mp h]
    exact fun hsource => Bool.false_ne_true hsource.1
  | some w' =>
    have hsource : w.has source = true := by
      by_contra hno
      rw [addEdge?_eq_none_iff.mpr (eq_false_of_ne_true hno)] at h
      cases h
    rw [Option.getD_some, targets_addEdge? h]
    by_cases hx : x = source
    · rw [if_pos hx, if_pos ⟨hsource, hx.symm⟩]
    · rw [if_neg hx, if_neg fun h => hx h.2.symm, List.append_nil]

theorem has_getD_addEdge? (w : Wiring) (source target x : String) :
    ((w.addEdge? source target).getD w).has x = w.has x := by
  cases h : w.addEdge? source target with
  | none => rfl
  | some w' => exact has_addEdge? h x

/-! ## 2. All blocks and connections -/

/-- Adds the edges of connections whose source is a node. -/
def addConnections (w : Wiring) (connections : List Connection) : Wiring :=
  connections.foldl (fun w c => (w.addEdge? c.source c.target).getD w) w

/-- The edges that leave a node are the connections that do, in their order. -/
theorem targets_addConnections {x : String} (hx : w.has x = true) (connections : List Connection) :
    (w.addConnections connections).targets x =
      w.targets x ++ (connections.filter (·.source = x)).map (·.target) := by
  induction connections generalizing w with
  | nil => simp [addConnections]
  | cons c rest ih =>
    change (addConnections ((w.addEdge? c.source c.target).getD w) rest).targets x = _
    rw [ih (by rw [has_getD_addEdge?, hx]), targets_getD_addEdge?]
    by_cases heq : c.source = x
    · rw [if_pos ⟨heq ▸ hx, heq⟩, List.filter_cons_of_pos (by simpa using heq)]
      simp
    · rw [if_neg fun h => heq h.2, List.append_nil, List.filter_cons_of_neg (by simpa using heq)]

theorem has_addNodes (blocks : List Block) (x : String) :
    (blocks.foldl (fun w b => w.addNode b.id) w).has x = (w.has x || blocks.any (·.id = x)) := by
  induction blocks generalizing w with
  | nil => simp
  | cons b rest ih =>
    rw [List.foldl_cons, ih, has_addNode, List.any_cons, Bool.or_assoc]
    simp only [eq_comm]

theorem targets_addNodes (blocks : List Block) (x : String) :
    (blocks.foldl (fun w b => w.addNode b.id) w).targets x = w.targets x := by
  induction blocks generalizing w with
  | nil => rfl
  | cons b rest ih => rw [List.foldl_cons, ih, targets_addNode]

/-! ## 3. Additions in any order -/

/-- A node or an edge that is to be added. -/
inductive Addition where
  | node (id : String)
  | edge (source target : String)
  deriving Repr, DecidableEq

/-- Adds a node or an edge; an edge that is refused changes nothing. -/
def add (w : Wiring) : Addition → Wiring
  | .node id => w.addNode id
  | .edge source target => (w.addEdge? source target).getD w

def addAll (w : Wiring) (additions : List Addition) : Wiring := additions.foldl add w

/-- The edges of additions that follow on some nodes: those with a source that is one of these nodes
or was added before them. -/
def acceptedEdges (nodes : List String) : List Addition → List Connection
  | [] => []
  | .node id :: rest => acceptedEdges (id :: nodes) rest
  | .edge source target :: rest =>
    if source ∈ nodes then ⟨source, target⟩ :: acceptedEdges nodes rest
    else acceptedEdges nodes rest

theorem addAll_append (w : Wiring) (before after : List Addition) :
    w.addAll (before ++ after) = (w.addAll before).addAll after :=
  List.foldl_append

theorem has_add (w : Wiring) (a : Addition) (x : String) :
    (w.add a).has x = true ↔ w.has x = true ∨ a = .node x := by
  cases a with
  | node id =>
    rw [add, has_addNode, Bool.or_eq_true, decide_eq_true_iff, Addition.node.injEq,
      eq_comm (a := x)]
  | edge source target =>
    rw [add, has_getD_addEdge?]
    simp

theorem has_addAll (w : Wiring) (additions : List Addition) (x : String) :
    (w.addAll additions).has x = true ↔ w.has x = true ∨ .node x ∈ additions := by
  induction additions generalizing w with
  | nil => simp [addAll]
  | cons a rest ih =>
    change ((w.add a).addAll rest).has x = true ↔ _
    rw [ih, has_add, List.mem_cons, or_assoc, eq_comm (a := a)]

/-- The edges that leave a node after some additions: those it had, and then the accepted ones. -/
theorem targets_addAll {nodes : List String} (hnodes : ∀ x, w.has x = true ↔ x ∈ nodes)
    (additions : List Addition) (id : String) :
    (w.addAll additions).targets id =
      w.targets id ++ ((acceptedEdges nodes additions).filter (·.source = id)).map (·.target) := by
  induction additions generalizing w nodes with
  | nil => simp [addAll, acceptedEdges]
  | cons a rest ih =>
    change ((w.add a).addAll rest).targets id = _
    cases a with
    | node new =>
      have hnew : ∀ x, (w.add (.node new)).has x = true ↔ x ∈ new :: nodes := fun x => by
        rw [has_add, hnodes, List.mem_cons, Addition.node.injEq, or_comm, eq_comm]
      rw [ih hnew, add, targets_addNode, acceptedEdges]
    | edge source target =>
      have hkept : ∀ x, (w.add (.edge source target)).has x = true ↔ x ∈ nodes :=
        fun x => by rw [add, has_getD_addEdge?, hnodes]
      rw [ih hkept, add, targets_getD_addEdge?, acceptedEdges]
      -- whether an edge is accepted depends on its source alone
      by_cases hsource : source ∈ nodes
      · rw [if_pos hsource]
        by_cases heq : source = id
        · rw [if_pos ⟨(hnodes source).mpr hsource, heq⟩,
            List.filter_cons_of_pos (by simpa using heq)]
          simp
        · rw [if_neg fun h => heq h.2, List.append_nil,
            List.filter_cons_of_neg (by simpa using heq)]
      · rw [if_neg fun h => hsource ((hnodes source).mp h.1), if_neg hsource, List.append_nil]

theorem targets_addAll_empty (additions : List Addition) (id : String) :
    (empty.addAll additions).targets id = ((acceptedEdges [] additions).filter (·.source = id)).map
      (·.target) :=
  targets_addAll (by simp [empty, has]) additions id

theorem has_addAll_empty (additions : List Addition) (id : String) :
    (empty.addAll additions).has id = true ↔ .node id ∈ additions := by
  rw [has_addAll]
  simp [empty, has]

/-- An edge whose source is no node might as well be left out. -/
theorem addAll_refused {before : List Addition} {source : String} (h : .node source ∉ before)
    (target : String) (after : List Addition) :
    empty.addAll (before ++ .edge source target :: after) = empty.addAll (before ++ after) := by
  have hnone : (empty.addAll before).addEdge? source target = none := by
    rwa [addEdge?_eq_none_iff, ← Bool.not_eq_true, has_addAll_empty]
  rw [addAll_append, addAll_append]
  change ((empty.addAll before).add (.edge source target)).addAll after = _
  rw [add, hnone, Option.getD_none]

/-- A node that is there already might as well be left out. -/
theorem addAll_again {before : List Addition} {id : String} (h : .node id ∈ before)
    (after : List Addition) :
    empty.addAll (before ++ .node id :: after) = empty.addAll (before ++ after) := by
  rw [addAll_append, addAll_append]
  change ((empty.addAll before).addNode id).addAll after = _
  rw [addNode, if_pos ((has_addAll_empty before id).mpr h)]

/-- Whatever is added in whatever order: the nodes are those added; an edge is refused just if its
source has not been added before it, and then it might as well be left out; of the accepted edges,
those that leave a node are counted, and the first of them is followed; and a node that is added
again might as well be left out, so that no edge is lost or moved. -/
theorem additions_exact (additions : List Addition) :
    (∀ id, (empty.addAll additions).has id = true ↔ .node id ∈ additions) ∧
    (∀ before source target after, additions = before ++ .edge source target :: after →
      ((empty.addAll before).addEdge? source target = none ↔ .node source ∉ before) ∧
      (.node source ∉ before → empty.addAll additions = empty.addAll (before ++ after))) ∧
    (∀ id, (empty.addAll additions).outDegree id = (acceptedEdges [] additions).countP
      (·.source = id)) ∧
    (∀ id, (empty.addAll additions).next? id =
      ((acceptedEdges [] additions).find? (·.source = id)).map (·.target)) ∧
    ∀ before id after, additions = before ++ .node id :: after → .node id ∈ before →
      empty.addAll additions = empty.addAll (before ++ after) := by
  refine ⟨has_addAll_empty additions, fun before source target after h => ⟨?_, fun hno => ?_⟩,
    fun id => ?_, fun id => ?_, fun before id after h hid => ?_⟩
  · rw [addEdge?_eq_none_iff, ← Bool.not_eq_true, has_addAll_empty]
  · rw [h, addAll_refused hno]
  · rw [outDegree, targets_addAll_empty, List.length_map, List.countP_eq_length_filter]
  · rw [next?, targets_addAll_empty, List.head?_map, List.head?_filter]
  · rw [h, addAll_again hid]

/-- An edge before its source, one to a node that comes later, one to its own source, a node that is
added again, the second edge once more, and an edge from no node. -/
def tangledAdditions : List Addition :=
  [.edge "a" "c", .node "a", .edge "a" "b", .edge "a" "a", .node "b", .node "a", .edge "a" "b",
    .edge "c" "a"]

theorem tangledAdditions_exact :
    (empty.addAll tangledAdditions).has "b" = true ∧
      (empty.addAll tangledAdditions).has "c" = false ∧
      empty.addAll tangledAdditions = empty.addAll (tangledAdditions.eraseIdx 0) ∧
      empty.addAll tangledAdditions = empty.addAll (tangledAdditions.eraseIdx 5) ∧
      (empty.addAll tangledAdditions).outDegree "a" = 3 ∧
        (empty.addAll tangledAdditions).next? "a" = some "b" := by
  obtain ⟨hhas, hedge, hdegree, hnext, hagain⟩ := additions_exact tangledAdditions
  refine ⟨(hhas "b").mpr (by decide), ?_, (hedge [] "a" "c" _ rfl).2 (by decide),
    hagain (tangledAdditions.take 5) "a" _ rfl (by decide), (hdegree "a").trans (by decide),
    (hnext "a").trans (by decide)⟩
  rw [← Bool.not_eq_true, hhas]
  decide

end Wiring

namespace Chain

theorem targets_wiring {g : Graph} {b : Block} (hb : b ∈ g.blocks) :
    (wiring g).targets b.id = (g.connections.filter (·.source = b.id)).map (·.target) := by
  change (Wiring.addConnections _ g.connections).targets b.id = _
  rw [Wiring.targets_addConnections, Wiring.targets_addNodes]
  · rfl
  · rw [Wiring.has_addNodes, List.any_eq_true.mpr ⟨b, hb, by simp⟩, Bool.or_true]

end Chain

end CypherBlocks
