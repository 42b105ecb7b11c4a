import CypherBlocks.Proofs.Scope
import Mathlib.Data.List.Basic

/-!
# What a query returns

A query is built with a counter for names, a current variable, a list of variables to show and a
cap.  All four follow from the kinds and the places of the blocks of the chain, and with them the
last lines of the text.
-/

namespace CypherBlocks

open Cypher (Clause Names numbered)

/-! ## 1. The closed form -/

/-- Whether the block at a place takes a number for its variables; an entity that is selected first
has a name without one. -/
def Block.isMinting (i : Nat) (b : Block) : Bool :=
  match b.params with
  | some (.textSearch _) | some (.neighborhood _) | some (.shortestPath _) => true
  | some (.selectById _) => i ≠ 0
  | _ => false

/-- How many blocks take a number. -/
def minted (chain : List Block) : Nat := chain.zipIdx.countP fun (b, i) => b.isMinting i

/-- How many blocks take a number up to a place. -/
def numberAt (chain : List Block) (i : Nat) : Nat := minted (chain.take (i + 1))

def Block.pathVariable? (number : Nat) (b : Block) : Option String :=
  match b.params with
  | some (.neighborhood _) | some (.shortestPath _) => some s!"p{number}"
  | _ => none

/-- The variable of a block that looks an entity up. -/
def Block.entityVariable? (i number : Nat) (b : Block) : Option String :=
  match b.params with
  | some (.textSearch _) => some s!"n{number}"
  | some (.selectById _) => some (if i = 0 then "n" else s!"n{number}")
  | _ => none

def Block.limit? (b : Block) : Option Int :=
  match b.params with
  | some (.resultLimit count) => some count
  | _ => none

def leadingVariable (chain : List Block) : List String :=
  match chain.head?.bind (·.params) with
  | some (.selectById _) => ["n"]
  | some (.textSearch _) => ["n1"]
  | _ => []

def pathVariables (chain : List Block) : List String :=
  chain.zipIdx.filterMap fun (b, i) => b.pathVariable? (numberAt chain i)

def entityVariables (chain : List Block) : List String :=
  chain.zipIdx.filterMap fun (b, i) => b.entityVariable? i (numberAt chain i)

def shownVariables (chain : List Block) : List String :=
  leadingVariable chain ++ pathVariables chain

/-- The variables that a query returns: those to show, or else the one of the last block that looks
an entity up. -/
def projection (chain : List Block) : List String :=
  if shownVariables chain = [] then (entityVariables chain).getLast?.toList
  else shownVariables chain

def lastLimit? (chain : List Block) : Option Int := (chain.filterMap Block.limit?).getLast?

/-! ## 2. One more block -/

theorem minted_concat (chain : List Block) (b : Block) :
    minted (chain ++ [b]) = minted chain + if b.isMinting chain.length then 1 else 0 := by
  simp [minted, List.zipIdx_append, List.countP_cons]

/-- What is read off a chain block by block, with each block's place and number, grows by what is
read off the new block. -/
theorem filterMap_numbered_concat (name : Nat → Nat → Block → Option String) (chain : List Block)
    (b : Block) :
    ((chain ++ [b]).zipIdx.filterMap fun (c, i) => name i (numberAt (chain ++ [b]) i) c) =
      (chain.zipIdx.filterMap fun (c, i) => name i (numberAt chain i) c) ++
        (name chain.length (minted (chain ++ [b])) b).toList := by
  have hlast : numberAt (chain ++ [b]) chain.length = minted (chain ++ [b]) := by
    rw [numberAt, List.take_of_length_le (by simp)]
  have hinit : ∀ x ∈ chain.zipIdx,
      name x.2 (numberAt (chain ++ [b]) x.2) x.1 = name x.2 (numberAt chain x.2) x.1 := by
    intro x hx
    have hlt : x.2 < chain.length := by
      have := List.snd_lt_of_mem_zipIdx hx
      omega
    rw [numberAt, numberAt, List.take_append_of_le_length hlt]
  rw [List.zipIdx_append, List.filterMap_append]
  congr 1
  · exact List.filterMap_congr hinit
  · simp only [List.zipIdx_singleton, List.filterMap_cons, List.filterMap_nil, Nat.zero_add, hlast]
    cases name chain.length (minted (chain ++ [b])) b <;> rfl

theorem pathVariables_concat (chain : List Block) (b : Block) :
    pathVariables (chain ++ [b]) = pathVariables chain ++
      (b.pathVariable? (minted (chain ++ [b]))).toList :=
  filterMap_numbered_concat (fun _ number c => c.pathVariable? number) chain b

theorem entityVariables_concat (chain : List Block) (b : Block) :
    entityVariables (chain ++ [b]) = entityVariables chain ++
      (b.entityVariable? chain.length (minted (chain ++ [b]))).toList :=
  filterMap_numbered_concat (fun i number c => c.entityVariable? i number) chain b

theorem shownVariables_concat {chain : List Block} (hne : chain ≠ []) (b : Block) :
    shownVariables (chain ++ [b]) = shownVariables chain ++
      (b.pathVariable? (minted (chain ++ [b]))).toList := by
  have hleading : leadingVariable (chain ++ [b]) = leadingVariable chain := by
    unfold leadingVariable
    rw [List.head?_append_of_ne_nil _ hne]
  rw [shownVariables, hleading, pathVariables_concat, ← List.append_assoc, shownVariables]

theorem leadingVariable_singleton (b : Block) :
    leadingVariable [b] = (b.entityVariable? 0 (minted [b])).toList := by
  obtain ⟨id, label, params⟩ := b
  rcases params with _ | p
  · rfl
  · cases p with
    | textSearch q =>
      have hname : "n1" = s!"n{1}" := by decide
      exact congrArg (fun name => [name]) hname
    | _ => rfl

theorem lastLimit?_concat (chain : List Block) (b : Block) :
    lastLimit? (chain ++ [b]) = b.limit?.or (lastLimit? chain) := by
  unfold lastLimit?
  rw [List.filterMap_append, List.getLast?_append, List.filterMap_cons, List.filterMap_nil]
  cases b.limit? <;> rfl

section Blocks

variable {input : EmitInput} {names names' : Names} {p : Params} {o : Output} {b : Block} {i : Nat}

theorem Emits.count_eq (h : Emits input names p o names') (hb : b.params = some p)
    (hi : input.first = decide (i = 0)) :
    names'.count = names.count + if b.isMinting i then 1 else 0 := by
  cases h <;> simp_all [Block.isMinting, Names.advance]

theorem Emits.path_eq (h : Emits input names p o names') (hb : b.params = some p) :
    o.path = b.pathVariable? names'.count := by
  cases h <;> simp [Block.pathVariable?, hb, Names.advance, Names.path, Names.number, filtered,
    Output.unchanged, emitGate]

theorem Emits.cap_eq (h : Emits input names p o names') (hb : b.params = some p) :
    o.cap = b.limit? := by
  cases h <;> simp [Block.limit?, hb, filtered, Output.unchanged, emitGate]

/-- Only a walk along relationships makes an entity current that it does not look up. -/
theorem Emits.binding_eq (h : Emits input names p o names') (hb : b.params = some p)
    (hi : input.first = decide (i = 0)) (hpath : o.path = none) :
    o.binding = (b.entityVariable? i names'.count).or input.binding := by
  cases h <;> simp_all [Block.entityVariable?, Names.advance, Names.entity, Names.number,
    Names.canonical, filtered, Output.unchanged, emitGate]

/-- The names that a block hands in are taken after it, and that of a path was not before. -/
theorem Emits.taken (h : Emits input names p o names') :
    (∀ v, names.Taken v → names'.Taken v) ∧
      (∀ v, o.path = some v → ¬ names.Taken v ∧ names'.Taken v) ∧
      (input.binding = none → ∀ v, o.binding = some v → names'.Taken v) := by
  have hpath : ¬ names.Taken names.path := names.path_eq ▸ names.not_taken_number 'p'
  have hadvance : ∀ v, names.Taken v → names.advance.Taken v := fun _ => Names.Taken.advance
  have hcanonical : names.Taken Names.canonical := .inl rfl
  cases h <;>
    simp_all [filtered, Output.unchanged, emitGate, names.taken_path, names.taken_entity]

theorem Emits.path_eq_none (h : Emits input names p o names') (hbinding : input.binding = none) :
    o.path = none := by
  cases h <;> simp_all [Output.unchanged, emitGate]

end Blocks

/-! ## 3. A chain -/

/-- What holds before the first block and is kept by every block holds of the whole chain, with what
each block contributed. -/
theorem emitFrom_outputs_invariant (Inv : List (Block × Output) → Assembly → Prop)
    (step :
      ∀ {done : List (Block × Output)} {a : Assembly} {b : Block} {p : Params} {o : Output}
      {names' : Names}, Inv done a → b.params = some p →
      Emits ⟨a.binding, done.isEmpty, a.scope⟩ a.names p o names' →
      Inv (done ++ [(b, o)]) (a.add done.isEmpty o names')) {done : List (Block × Output)}
    {a a' : Assembly} {chain : List Block} (hinv : Inv done a)
    (h : (emitFrom done.isEmpty a chain).outcome = .ok a') :
    Inv (done ++ (emitFrom done.isEmpty a chain).outputs) a' := by
  -- by induction on what is left of the chain; whether a block is the first is read off what is
  -- done
  induction chain generalizing done a with
  | nil =>
    cases h
    rwa [emitFrom, List.append_nil]
  | cons b rest ih =>
    rw [emitFrom] at h ⊢
    cases he : emit b ⟨a.binding, done.isEmpty, a.scope⟩ a.names with
    | error d =>
      rw [he] at h
      cases h
    | ok x =>
      obtain ⟨o, names'⟩ := x
      obtain ⟨p, hp, hemits⟩ := emit_eq_ok_iff.mp he
      have hnext : (done ++ [(b, o)]).isEmpty = false := by simp
      have hrest := ih (step hinv hp hemits)
      rw [hnext] at hrest
      rw [he] at h
      rw [List.append_cons]
      exact hrest h

/-- The variables that blocks hand in to be shown: the current one after the first block, and every
path. -/
def offered (outputs : List (Block × Output)) : List String :=
  (outputs.head?.bind (·.2.binding)).toList ++ outputs.filterMap (·.2.path)

/-- A query under construction that agrees with the closed form. -/
structure Projects (done : List (Block × Output)) (a : Assembly) : Prop where
  begins : done = [] → a = Assembly.empty
  clauses : a.clauses = done.flatMap (·.2.clauses)
  count : a.names.count = minted (done.map (·.1))
  offers : offered done = shownVariables (done.map (·.1))
  shown : a.shown = offered done
  taken : ∀ v ∈ a.shown, a.names.Taken v
  binding : pathVariables (done.map (·.1)) = [] →
    a.binding = (entityVariables (done.map (·.1))).getLast?
  cap : a.cap = lastLimit? (done.map (·.1))

theorem projects_empty : Projects [] Assembly.empty where
  begins := fun _ => rfl
  clauses := rfl
  count := rfl
  offers := rfl
  shown := rfl
  taken := by simp [Assembly.empty]
  binding := fun _ => rfl
  cap := rfl

theorem addNew_of_notMem {vs : List String} {v : Option String} (h : ∀ w, v = some w → w ∉ vs) :
    addNew vs v = vs ++ v.toList := by
  cases v with
  | none => exact (List.append_nil vs).symm
  | some w => exact if_neg (h w rfl)

section Step

variable {done : List (Block × Output)} {a : Assembly} {b : Block} {p : Params} {o : Output}
  {names' : Names}

theorem Projects.minted_eq (hinv : Projects done a) (hb : b.params = some p)
    (hemits : Emits ⟨a.binding, done.isEmpty, a.scope⟩ a.names p o names') :
    names'.count = minted (done.map (·.1) ++ [b]) := by
  have hplace : done.isEmpty = decide ((done.map (·.1)).length = 0) := by cases done <;> rfl
  rw [hemits.count_eq hb hplace, minted_concat, hinv.count]

/-- The first block starts the list with the entity that it looks up. -/
theorem Projects.first (hinv : Projects [] a) (hb : b.params = some p)
    (hemits : Emits ⟨a.binding, true, a.scope⟩ a.names p o names') :
    offered [(b, o)] = shownVariables [b] ∧ (a.add true o names').shown = offered [(b, o)] := by
  have hunbound : a.binding = none := by rw [hinv.begins rfl]; rfl
  have hshown : a.shown = [] := by rw [hinv.begins rfl]; rfl
  have hnone : o.path = none := hemits.path_eq_none hunbound
  have hcount : names'.count = minted [b] := hinv.minted_eq hb hemits
  -- nothing is bound yet, so the first block finds no path
  have hpaths : pathVariables [b] = [] := by
    rw [← List.nil_append [b], pathVariables_concat, List.nil_append, ← hcount,
      ← hemits.path_eq hb, hnone]
    rfl
  have hbinding : o.binding = b.entityVariable? 0 names'.count := by
    rw [hemits.binding_eq (i := 0) hb rfl hnone, hunbound, Option.or_none]
  have hoffered : offered [(b, o)] = o.binding.toList := by simp [offered, hnone]
  refine ⟨?_, ?_⟩
  · rw [shownVariables, hpaths, leadingVariable_singleton, ← hcount, ← hbinding, hoffered,
      List.append_nil]
  · rw [hoffered]
    simp only [Assembly.add, hshown, hnone]
    cases o.binding <;> rfl

/-- A later block adds its path, if it finds one: no name that it hands in is in the list before. -/
theorem Projects.later (hinv : Projects done a) (hlater : done ≠ []) (hb : b.params = some p)
    (hemits : Emits ⟨a.binding, done.isEmpty, a.scope⟩ a.names p o names') :
    offered (done ++ [(b, o)]) = shownVariables (done.map (·.1) ++ [b]) ∧
      (a.add done.isEmpty o names').shown = offered (done ++ [(b, o)]) := by
  have hnew : offered (done ++ [(b, o)]) = offered done ++ o.path.toList := by
    unfold offered
    rw [List.head?_append_of_ne_nil _ hlater, List.filterMap_append, List.append_assoc]
    cases ho : o.path <;> simp [ho]
  -- a path has a name that was not taken before, and all that is shown was
  have hpath : addNew a.shown o.path = a.shown ++ o.path.toList := by
    apply addNew_of_notMem
    intro v hv hmem
    exact (hemits.taken.2.1 v hv).1 (hinv.taken v hmem)
  refine ⟨?_, ?_⟩
  · rw [hnew, hinv.offers, shownVariables_concat (by simpa using hlater),
      ← hinv.minted_eq hb hemits, ← hemits.path_eq hb]
  · have hfirst : ¬ done.isEmpty = true := by simpa using hlater
    rw [Assembly.add, if_neg hfirst, hpath, hnew, hinv.shown]

theorem Projects.add (hinv : Projects done a) (hb : b.params = some p)
    (hemits : Emits ⟨a.binding, done.isEmpty, a.scope⟩ a.names p o names') :
    Projects (done ++ [(b, o)]) (a.add done.isEmpty o names') := by
  have hcount := hinv.minted_eq hb hemits
  have hplace : done.isEmpty = decide ((done.map (·.1)).length = 0) := by cases done <;> rfl
  have hblocks : (done ++ [(b, o)]).map (·.1) = done.map (·.1) ++ [b] := by simp
  obtain ⟨hkept, hpathTaken, hbindingTaken⟩ := hemits.taken
  -- only the first block hands in its entity, so the list grows in two ways
  have hoffers : offered (done ++ [(b, o)]) = shownVariables (done.map (·.1) ++ [b]) ∧
      (a.add done.isEmpty o names').shown = offered (done ++ [(b, o)]) := by
    by_cases hfirst : done = []
    · subst hfirst
      exact hinv.first hb hemits
    · exact hinv.later hfirst hb hemits
  exact {
    begins := by simp
    clauses := by simp [Assembly.add, hinv.clauses]
    count := hblocks ▸ hcount
    offers := hblocks ▸ hoffers.1
    shown := hoffers.2
    taken := by
      intro v hv
      rw [Assembly.add, mem_addNew] at hv
      rcases hv with hv | hv
      · split at hv
        · rename_i hfirst
          have hunbound : a.binding = none := by rw [hinv.begins (List.isEmpty_iff.mp hfirst)]; rfl
          exact (mem_addNew.mp hv).elim (fun hv => hkept v (hinv.taken v hv))
            (hbindingTaken hunbound v)
        · exact hkept v (hinv.taken v hv)
      · exact (hpathTaken v hv).2
    binding := by
      rw [hblocks, pathVariables_concat, ← hcount, ← hemits.path_eq hb,
        entityVariables_concat, ← hcount]
      intro hnone
      obtain ⟨hbefore, ho⟩ := List.append_eq_nil_iff.mp hnone
      rw [Option.toList_eq_nil_iff] at ho
      change o.binding = _
      rw [hemits.binding_eq hb hplace ho, hinv.binding hbefore, List.getLast?_append]
      cases b.entityVariable? (done.map (·.1)).length names'.count <;> rfl
    cap := by
      rw [hblocks, lastLimit?_concat, ← hinv.cap, ← hemits.cap_eq hb]
      rfl }

end Step

theorem projects_of_emitChain {chain : List Block} {a : Assembly}
    (h : (emitChain chain).outcome = .ok a) : Projects (emitChain chain).outputs a :=
  emitFrom_outputs_invariant Projects (fun hinv hb hemits => hinv.add hb hemits) projects_empty h

theorem map_fst_outputs {chain : List Block} {a a' : Assembly} {first : Bool}
    (h : (emitFrom first a chain).outcome = .ok a') :
    (emitFrom first a chain).outputs.map (·.1) = chain := by
  induction chain generalizing first a with
  | nil => rfl
  | cons b rest ih =>
    rw [emitFrom] at h ⊢
    cases he : emit b ⟨a.binding, first, a.scope⟩ a.names with
    | error d =>
      rw [he] at h
      cases h
    | ok x =>
      rw [he] at h
      exact congrArg (b :: ·) (ih h)

/-- What is returned at the end is the projection of the chain. -/
theorem Projects.returned_eq {done : List (Block × Output)} {a : Assembly} (h : Projects done a) :
    a.returned = projection (done.map (·.1)) := by
  unfold Assembly.returned projection
  rw [h.shown, h.offers]
  by_cases hnone : shownVariables (done.map (·.1)) = []
  · rw [if_pos hnone, if_pos (by rw [hnone]; rfl), h.binding (List.append_eq_nil_iff.mp hnone).2]
  · rw [if_neg hnone, if_neg (by simpa using hnone)]

/-! ## 4. The text -/

theorem intercalate_ne_empty {separator : String} {lines : List String}
    (hlines : ∀ s ∈ lines, s ≠ "") (hne : lines ≠ []) : separator.intercalate lines ≠ "" := by
  obtain ⟨s, rest, rfl⟩ := List.exists_cons_of_ne_nil hne
  have hs := hlines s List.mem_cons_self
  by_cases hrest : rest = []
  · rwa [hrest, String.intercalate_singleton]
  · rw [String.intercalate_cons_of_ne_nil hrest, Ne, String.append_eq_empty_iff,
      String.append_eq_empty_iff]
    exact fun h => hs h.1.1

/-- Lines in groups, with more after them, join as the texts of the groups that have any line. -/
theorem intercalate_groups {separator : String} {groups : List (List String)} {last : List String}
    (hgroups : ∀ lines ∈ groups, ∀ s ∈ lines, s ≠ "") (hlast : last ≠ []) :
    separator.intercalate (groups.flatten ++ last) =
      separator.intercalate ((groups.map separator.intercalate).filter (· ≠ "") ++ last) := by
  induction groups with
  | nil => rfl
  | cons lines groups ih =>
    obtain ⟨hlines, hrest⟩ := List.forall_mem_cons.mp hgroups
    rw [List.flatten_cons, List.append_assoc, List.map_cons, List.filter_cons]
    by_cases hne : lines = []
    · subst hne
      exact ih hrest
    · rw [if_pos (decide_eq_true (intercalate_ne_empty hlines hne)), List.cons_append,
        String.intercalate_append_of_ne_nil hne (by simp [hlast]),
          String.intercalate_cons_of_ne_nil (by simp [hlast]), ih hrest]

theorem Cypher.Clause.text_ne_empty (c : Clause) : c.text ≠ "" := by
  cases c with
  | carry names cap =>
    cases cap with
    | none => simp [Clause.text]
    | some n =>
      simp only [Clause.text, Text.toString_eq_self, ne_eq, String.append_eq_empty_iff, not_and]
      simp
  | _ => simp [Clause.text, Cypher.comment]

/-- The texts of the blocks of a chain, in order. -/
def fragments (chain : List Block) : List String := (emitChain chain).outputs.map (·.2.text)

/-- The text of every graph that compiles: what its blocks say, what they return and, if there is a
Result Limit, how many rows of it. No two variables of the list are the same, and no block hands in
a variable twice. -/
theorem compile_text_projection {g : Graph} (hok : (compile g).errors = []) :
    ∃ r, Chain.resolve g = .ok r ∧ (emitChain r.chain).outputs.map (·.1) = r.chain ∧
      (compile g).text = String.intercalate "\n"
        ((fragments r.chain).filter (· ≠ "") ++ ("RETURN DISTINCT " ++ String.intercalate ", "
          (projection r.chain)) ::
          (lastLimit? r.chain).toList.map fun m => s!"LIMIT {m}") ∧
      projection r.chain ≠ [] ∧ (projection r.chain).Nodup ∧
        offered (emitChain r.chain).outputs = shownVariables r.chain := by
  obtain ⟨r, clauses, hr, hclauses, htext⟩ := compile_errors_eq_nil_iff.mp hok
  obtain ⟨a, ha, hreturned, rfl⟩ := chainQuery_eq_ok_iff.mp hclauses
  have hblocks : (emitChain r.chain).outputs.map (·.1) = r.chain := map_fst_outputs ha
  have hprojects := projects_of_emitChain ha
  have hreturns := hprojects.returned_eq
  have hoffers := hprojects.offers
  rw [hblocks] at hreturns hoffers
  refine ⟨r, hr, hblocks, ?_, hreturns ▸ hreturned, hreturns ▸ (emitChain_tracks ha).returned.1,
    hoffers⟩
  have hcap : a.capClauses.map Clause.text = (lastLimit? r.chain).toList.map fun m =>
      s!"LIMIT {m}" := by
    rw [Assembly.capClauses, hprojects.cap, hblocks]
    cases lastLimit? r.chain <;> rfl
  -- the lines of a query are joined at once, its fragments block by block
  have hgroups : (fragments r.chain) = ((emitChain r.chain).outputs.map fun x =>
      x.2.clauses.map Clause.text).map "\n".intercalate := by
    rw [List.map_map]
    rfl
  have hlines : a.clauses.map Clause.text = ((emitChain r.chain).outputs.map fun x =>
      x.2.clauses.map Clause.text).flatten := by
    rw [hprojects.clauses, List.map_flatMap, List.flatMap_def]
  rw [htext, Cypher.linesText, List.map_append, List.map_cons, hcap, hlines, hgroups, hreturns]
  refine intercalate_groups ?_ (List.cons_ne_nil _ _)
  intro lines hlines s hs
  obtain ⟨x, -, rfl⟩ := List.mem_map.mp hlines
  obtain ⟨c, -, rfl⟩ := List.mem_map.mp hs
  exact c.text_ne_empty

/-- A gate before the only entity, and two limits. -/
def gatedGraph : Graph where
  blocks := [⟨"start", "", some .start⟩, ⟨"all", "", some .andGate⟩,
    ⟨"pick", "", some (.selectById "e1")⟩, ⟨"wide", "", some (.resultLimit 20)⟩,
    ⟨"keep", "", some (.ontologyFilter ["Person"])⟩, ⟨"cap", "", some (.resultLimit 5)⟩]
  connections :=
    [⟨"start", "all"⟩, ⟨"all", "pick"⟩, ⟨"pick", "wide"⟩, ⟨"wide", "keep"⟩, ⟨"keep", "cap"⟩]

theorem gatedGraph_projection :
    (compile gatedGraph).errors = [] ∧
      ∃ r, Chain.resolve gatedGraph = .ok r ∧ (emitChain r.chain).outputs.map (·.1) = r.chain ∧
        (compile gatedGraph).text = String.intercalate "\n"
          ((fragments r.chain).filter (· ≠ "") ++ ("RETURN DISTINCT " ++ String.intercalate ", "
            (projection r.chain)) ::
            (lastLimit? r.chain).toList.map fun m => s!"LIMIT {m}") ∧
        projection r.chain ≠ [] ∧ (projection r.chain).Nodup ∧
          offered (emitChain r.chain).outputs = shownVariables r.chain := by
  have hok : (compile gatedGraph).errors = [] := by decide +kernel
  exact ⟨hok, compile_text_projection hok⟩

end CypherBlocks
