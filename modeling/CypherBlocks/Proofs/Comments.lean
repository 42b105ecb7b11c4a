import CypherBlocks.Proofs.Projection

/-!
# Blocks that leave a comment

Gates and edge filters say in a comment what they do not do yet.  Cypher ends a comment at a line
feed or at a carriage return.  Line feeds are taken out of comments, carriage returns are not: what
stands behind one in the name of a relationship type is code.
-/

namespace CypherBlocks.Cypher

/-! ## 1. Comments -/

/-- The characters that end a line of a query. -/
def isLineEnd (c : Char) : Bool := c = '\n' || c = '\r'

/-- What follows the comment that a text begins with, up to the end of its line. -/
def afterComment? : List Char → Option (List Char)
  | '/' :: '/' :: rest => some (rest.dropWhile (!isLineEnd ·))
  | _ => none

/-- A text that is one comment and nothing else. -/
def IsComment (s : String) : Prop := afterComment? s.toList = some []

instance (s : String) : Decidable (IsComment s) :=
  inferInstanceAs (Decidable (afterComment? s.toList = some []))

theorem isComment_iff {s : String} :
    IsComment s ↔ "//".toList <+: s.toList ∧ '\n' ∉ s.toList ∧ '\r' ∉ s.toList := by
  unfold IsComment
  constructor
  · intro h
    unfold afterComment? at h
    split at h
    · rename_i rest hs
      rw [Option.some.injEq, List.dropWhile_eq_nil_iff] at h
      have hrest : ∀ c, isLineEnd c = true → c ∉ rest :=
        fun c hc hmem => by simpa [hc] using h c hmem
      rw [hs]
      refine ⟨⟨rest, rfl⟩, ?_, ?_⟩
      · simpa using hrest '\n' rfl
      · simpa using hrest '\r' rfl
    · cases h
  · rintro ⟨⟨rest, hs⟩, hfeed, hreturn⟩
    have hs' : s.toList = '/' :: '/' :: rest := hs.symm
    rw [hs'] at hfeed hreturn ⊢
    rw [afterComment?, Option.some.injEq, List.dropWhile_eq_nil_iff]
    intro c hc
    rw [Bool.not_eq_true', isLineEnd, Bool.or_eq_false_iff, decide_eq_false_iff_not,
      decide_eq_false_iff_not]
    constructor
    · rintro rfl
      exact hfeed (List.mem_cons_of_mem _ (List.mem_cons_of_mem _ hc))
    · rintro rfl
      exact hreturn (List.mem_cons_of_mem _ (List.mem_cons_of_mem _ hc))

theorem toList_comment (s : String) :
    (comment s).toList = "// ".toList ++ s.toList.map fun c => if c = '\n' then ' ' else c := by
  rw [comment, String.toList_append, String.toList_ofList, String.toList_ofList]

theorem feed_not_mem_comment (s : String) : '\n' ∉ (comment s).toList := by
  rw [toList_comment, List.mem_append, not_or]
  refine ⟨by decide, fun hmem => ?_⟩
  obtain ⟨c, -, hc⟩ := List.mem_map.mp hmem
  split at hc
  · cases hc
  · rename_i hne
    exact hne hc

/-- Carriage returns are kept in a comment. -/
theorem return_mem_comment_iff {s : String} : '\r' ∈ (comment s).toList ↔ '\r' ∈ s.toList := by
  rw [toList_comment, List.mem_append, or_iff_right (by decide), List.mem_map]
  constructor
  · rintro ⟨c, hc, heq⟩
    split at heq
    · cases heq
    · rwa [← heq]
  · exact fun hc => ⟨'\r', hc, rfl⟩

/-- A comment is read as nothing else just if there is no carriage return in it. -/
theorem isComment_comment_iff {s : String} : IsComment (comment s) ↔ '\r' ∉ s.toList := by
  rw [isComment_iff, return_mem_comment_iff]
  refine ⟨fun h => h.2.2, fun h => ⟨?_, feed_not_mem_comment s, h⟩⟩
  rw [toList_comment]
  exact ⟨' ' :: s.toList.map _, rfl⟩

/-! ## 2. Carriage returns in names -/

theorem mem_intercalate_iff {c : Char} {separator : String} (h : c ∉ separator.toList)
    {ss : List String} : c ∈ (separator.intercalate ss).toList ↔ ∃ s ∈ ss, c ∈ s.toList := by
  induction ss with
  | nil => simp
  | cons s rest ih =>
    by_cases hrest : rest = []
    · simp [hrest]
    · rw [String.intercalate_cons_of_ne_nil hrest, String.toList_append, String.toList_append,
        List.mem_append, List.mem_append, or_iff_left h, ih, List.exists_mem_cons_iff]

/-- Backticks are doubled; all else in a name stays. -/
theorem return_mem_nameText_iff {s : String} : '\r' ∈ (nameText s).toList ↔ '\r' ∈ s.toList := by
  have hescape : ∀ c, '\r' ∈ escapeBacktick c ↔ c = '\r' := by
    intro c
    unfold escapeBacktick
    split <;> simp [eq_comm]
  unfold nameText
  split
  · rfl
  · rw [String.toList_ofList]
    simp [hescape]

theorem exists_mem_usable_iff {p : String → Prop} (hp : ¬ p "") {ss : List String} :
    (∃ s ∈ usable ss, p s) ↔ ∃ s ∈ ss, p (Text.trim s) := by
  simp only [usable, List.mem_filter, List.mem_map, Bool.not_eq_true', String.isEmpty_eq_false_iff]
  constructor
  · rintro ⟨_, ⟨⟨s, hs, rfl⟩, -⟩, hps⟩
    exact ⟨s, hs, hps⟩
  · rintro ⟨s, hs, hps⟩
    exact ⟨Text.trim s, ⟨⟨s, hs, rfl⟩, fun heq => hp (heq ▸ hps)⟩, hps⟩

end CypherBlocks.Cypher

namespace CypherBlocks

open Cypher (IsComment Names)

/-! ## 3. One block -/

namespace Params

/-- Whether all that blocks contribute is a comment. -/
def isNoted : Params → Bool
  | .edgeFilter _ | .andGate | .orGate | .notGate => true
  | _ => false

/-- The relationship types that are only named in a comment. -/
def notedTypes : Params → List String
  | .edgeFilter types => types
  | _ => []

end Params

namespace Block

def isNoted (b : Block) : Bool := b.params.any (·.isNoted)

def notedTypes (b : Block) : List String := b.params.toList.flatMap Params.notedTypes

end Block

section Blocks

variable {input : EmitInput} {names names' : Names} {p : Params} {o : Output}

theorem text_of_note {s : String} (h : o.clauses = [.note s]) : o.text = Cypher.comment s := by
  rw [Output.text, h]
  change "\n".intercalate [Cypher.comment s] = _
  rw [String.intercalate_singleton]

theorem return_mem_edgeFilterNote_iff {types : List String} {binding : String}
    (h : '\r' ∉ binding.toList) :
    '\r' ∈ (edgeFilterNote types binding).toList ↔ ∃ t ∈ types, '\r' ∈ (Text.trim t).toList := by
  have hlisted :
      '\r' ∈ (String.intercalate "|" ((Cypher.usable types).map Cypher.nameText)).toList ↔
      ∃ s ∈ Cypher.usable types, '\r' ∈ s.toList := by
    rw [Cypher.mem_intercalate_iff (by decide)]
    simp only [List.mem_map, exists_exists_and_eq_and, Cypher.return_mem_nameText_iff]
  rw [← Cypher.exists_mem_usable_iff (p := fun s => '\r' ∈ s.toList) (by decide)]
  unfold edgeFilterNote
  simp +decide only [Text.toString_eq_self, String.toList_append, List.mem_append, hlisted, h,
    or_false, false_or]

/-- A gate has nothing to say but its own name and that of a variable. -/
theorem emitGate_note (kind : Kind) (operation : String) (hoperation : '\r' ∉ operation.toList)
    (hbinding : ∀ v, input.binding = some v → '\r' ∉ v.toList) :
    ∃ s, (emitGate kind operation input).clauses = [.note s] ∧ '\r' ∉ s.toList := by
  have hkind : '\r' ∉ kind.displayName.toList := by cases kind <;> decide
  have hsubject : '\r' ∉ (input.binding.getD "nothing").toList := by
    cases hv : input.binding with
    | none => decide
    | some v => exact hbinding v hv
  refine ⟨_, rfl, ?_⟩
  simp +decide only [Text.toString_eq_self, String.toList_append, List.mem_append, hkind,
    hoperation, hsubject, or_false, not_false_iff]

/-- Gates and edge filters contribute a comment, in which carriage returns can only come from the
types of an edge filter. -/
theorem Emits.clauses_noted (h : Emits input names p o names') (hnoted : p.isNoted = true)
    (hbinding : ∀ v, input.binding = some v → '\r' ∉ v.toList) :
    ∃ s, o.clauses = [.note s] ∧
      ('\r' ∈ s.toList ↔ ∃ t ∈ p.notedTypes, '\r' ∈ (Text.trim t).toList) := by
  have hgate : ∀ {s : String}, '\r' ∉ s.toList →
      ('\r' ∈ s.toList ↔ ∃ t ∈ ([] : List String), '\r' ∈ (Text.trim t).toList) := by
    simp
  cases h with
  | @edgeFilter types binding hbound _ =>
    exact ⟨_, rfl, return_mem_edgeFilterNote_iff (hbinding binding hbound)⟩
  | andGate =>
    exact (emitGate_note .andGate "intersection" (by decide) hbinding).imp fun _ =>
      And.imp_right hgate
  | orGate =>
    exact (emitGate_note .orGate "union" (by decide) hbinding).imp fun _ => And.imp_right hgate
  | notGate =>
    exact (emitGate_note .notGate "negation" (by decide) hbinding).imp fun _ => And.imp_right hgate
  | _ => cases hnoted

/-- No other block leaves a comment. -/
theorem Emits.isNoted_of_note (h : Emits input names p o names') {s : String}
    (hs : .note s ∈ o.clauses) : p.isNoted = true := by
  cases h with
  | edgeFilter _ _ | andGate | orGate | notGate => rfl
  | _ => simp [Output.unchanged, filtered] at hs

theorem Emits.return_not_mem_binding (h : Emits input names p o names')
    (hbinding : ∀ v, input.binding = some v → '\r' ∉ v.toList) :
    ∀ v, o.binding = some v → '\r' ∉ v.toList := by
  have hentity : '\r' ∉ names.entity.toList := by
    rw [names.entity_eq]
    exact Cypher.not_mem_numbered (by decide) (by decide) _
  cases h with
  | search _ | selectLater _ _ | neighborhood _ _ _ _ _ => simpa using hentity
  | selectFirst _ _ => simp +decide
  | shortestPath hbound _ _ _ => simpa using hbinding _ hbound
  | _ => exact hbinding

end Blocks

/-! ## 4. A query -/

/-- What holds of the blocks that leave a comment, as far as a chain has been emitted. -/
structure Notes (done : List (Block × Output)) (a : Assembly) : Prop where
  binding : ∀ v, a.binding = some v → '\r' ∉ v.toList
  noted : ∀ x ∈ done, x.1.isNoted = true →
    ∃ s, x.2.clauses = [.note s] ∧
      ('\r' ∈ s.toList ↔ ∃ t ∈ x.1.notedTypes, '\r' ∈ (Text.trim t).toList)

theorem notes_empty : Notes [] Assembly.empty := ⟨by simp [Assembly.empty], by simp⟩

theorem Notes.add {done : List (Block × Output)} {a : Assembly} {b : Block} {p : Params}
    {o : Output} {names' : Names} (hinv : Notes done a) (hp : b.params = some p)
    (hemits : Emits ⟨a.binding, done.isEmpty, a.scope⟩ a.names p o names') :
    Notes (done ++ [(b, o)]) (a.add done.isEmpty o names') := by
  refine ⟨hemits.return_not_mem_binding hinv.binding, List.forall_mem_append.mpr ⟨hinv.noted, ?_⟩⟩
  rw [List.forall_mem_singleton]
  intro hnoted
  have hparams : p.isNoted = true := by simpa [Block.isNoted, hp] using hnoted
  simpa [Block.notedTypes, hp] using hemits.clauses_noted hparams hinv.binding

theorem notes_of_emitChain {chain : List Block} {a : Assembly}
    (h : (emitChain chain).outcome = .ok a) : Notes (emitChain chain).outputs a :=
  emitFrom_outputs_invariant Notes (fun hinv hp hemits => hinv.add hp hemits) notes_empty h

/-- Every gate and every edge filter of a graph that compiles contributes text that starts as a
comment and has no line feed in it.  The text is that comment and nothing else just if no type of an
edge filter has a carriage return within it. -/
theorem compile_comments {g : Graph} (hok : (compile g).errors = []) :
    ∃ r, Chain.resolve g = .ok r ∧ (emitChain r.chain).outputs.map (·.1) = r.chain ∧
      ∀ x ∈ (emitChain r.chain).outputs, x.1.isNoted = true →
        "//".toList <+: x.2.text.toList ∧ '\n' ∉ x.2.text.toList ∧
          (IsComment x.2.text ↔ ∀ t ∈ x.1.notedTypes, '\r' ∉ (Text.trim t).toList) := by
  obtain ⟨r, clauses, hr, hclauses, -⟩ := compile_errors_eq_nil_iff.mp hok
  obtain ⟨a, ha, -, -⟩ := chainQuery_eq_ok_iff.mp hclauses
  refine ⟨r, hr, map_fst_outputs ha, fun x hx hnoted => ?_⟩
  obtain ⟨s, hclauses, hbreaks⟩ := (notes_of_emitChain ha).noted x hx hnoted
  rw [text_of_note hclauses, Cypher.isComment_comment_iff, hbreaks]
  refine ⟨⟨' ' :: s.toList.map _, (Cypher.toList_comment s).symm⟩,
    Cypher.feed_not_mem_comment s, ?_⟩
  simp only [not_exists, not_and]

/-- An edge filter whose types have line feeds within them and carriage returns around them. -/
def notedGraph : Graph where
  blocks := [⟨"start", "", some .start⟩, ⟨"pick", "", some (.selectById "e1")⟩,
    ⟨"edges", "", some (.edgeFilter ["KNOWS\nMATCH (x) DETACH DELETE x //", "\r LIKES \r"])⟩,
      ⟨"all", "", some .andGate⟩]
  connections := [⟨"start", "pick"⟩, ⟨"pick", "edges"⟩, ⟨"edges", "all"⟩]

theorem notedGraph_comments :
    (compile notedGraph).errors = [] ∧ ∃ r, Chain.resolve notedGraph = .ok r ∧
      (r.chain.filter Block.isNoted).length = 2 ∧
      ∀ x ∈ (emitChain r.chain).outputs, x.1.isNoted = true → IsComment x.2.text := by
  have hok : (compile notedGraph).errors = [] := by decide +kernel
  obtain ⟨r, hr, hblocks, hcomments⟩ := compile_comments hok
  have hchain : Chain.resolve notedGraph = .ok ⟨notedGraph.blocks.drop 1,
      [Chain.missingEndWarning]⟩ := by
    decide +kernel
  have htypes : ∀ b ∈ notedGraph.blocks.drop 1, ∀ t ∈ b.notedTypes,
      '\r' ∉ (Text.trim t).toList := by
    decide +kernel
  cases hr.symm.trans hchain
  refine ⟨hok, _, hr, by decide, fun x hx hnoted => (hcomments x hx hnoted).2.2.mpr (htypes x.1 ?_)⟩
  have hmem : x.1 ∈ (emitChain (notedGraph.blocks.drop 1)).outputs.map (·.1) :=
    List.mem_map_of_mem hx
  rwa [hblocks] at hmem

/-- A relationship type with a carriage return within it. -/
def smuggledType : String := "KNOWS\rMATCH (x) DETACH DELETE x //"

def smuggledGraph : Graph where
  blocks := [⟨"start", "", some .start⟩, ⟨"pick", "", some (.selectById "e1")⟩,
    ⟨"edges", "", some (.edgeFilter [smuggledType])⟩]
  connections := [⟨"start", "pick"⟩, ⟨"pick", "edges"⟩]

/-- The comment ends within the type, and the rest of the type is a clause. -/
theorem smuggledGraph_runs_on :
    (compile smuggledGraph).errors = [] ∧ ∃ r, Chain.resolve smuggledGraph = .ok r ∧
      ∃ x ∈ (emitChain r.chain).outputs, x.1.isNoted = true ∧ ¬ IsComment x.2.text ∧
        Cypher.afterComment? x.2.text.toList =
          some ("\rMATCH (x) DETACH DELETE x //\x60] on n is not supported yet; " ++
            "relationships pass through unfiltered").toList := by
  have hafter : Cypher.afterComment? (Cypher.comment (edgeFilterNote [smuggledType] "n")).toList =
      some ("\rMATCH (x) DETACH DELETE x //\x60] on n is not supported yet; " ++
        "relationships pass through unfiltered").toList := by
    decide +kernel
  have hlast : (emitChain (smuggledGraph.blocks.drop 1)).outputs.getLast? =
      some (⟨"edges", "", some (.edgeFilter [smuggledType])⟩,
        .unchanged ⟨some "n", false, ["n"]⟩ [.note (edgeFilterNote [smuggledType] "n")]) := rfl
  refine ⟨by decide +kernel, ⟨smuggledGraph.blocks.drop 1, [Chain.missingEndWarning]⟩,
    by decide +kernel, _, List.mem_of_getLast? hlast, rfl, ?_⟩
  rw [text_of_note rfl, IsComment, hafter]
  exact ⟨by decide, rfl⟩

end CypherBlocks
