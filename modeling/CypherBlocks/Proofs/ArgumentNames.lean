import CypherBlocks.Proofs.Loading

/-!
# Names of arguments

A body that is read from a source has no two arguments of one name: an argument that is defined
again is a problem of the source.
-/

namespace CypherBlocks.Config

open Parse

/-! ## 1. Bodies without repeated names -/

/-- A block in which no name is repeated, nor in the blocks inside it. -/
inductive Block.Distinct : Block → Prop where
  | mk {kind : String} {labels : List String} {attributes : List Attribute} {blocks : List Block}
      (names : (attributes.map (·.name)).Nodup) (inner : ∀ b ∈ blocks, b.Distinct) :
      (Block.mk kind labels attributes blocks).Distinct

structure Body.Distinct (body : Body) : Prop where
  names : (body.attributes.map (·.name)).Nodup
  inner : ∀ b ∈ body.blocks, b.Distinct

def Item.Distinct : Item → Prop
  | .block b => b.Distinct
  | _ => True

def Content.Distinct : Content → Prop
  | .native body => body.Distinct
  | .json _ => True

theorem Block.Distinct.body {b : Block} (h : b.Distinct) : b.body.Distinct := by
  cases h with
  | mk names inner => exact ⟨names, inner⟩

theorem Body.distinct_nil : Body.Distinct ⟨[], []⟩ := ⟨List.nodup_nil, by simp⟩

/-- One more argument, of a new name. -/
theorem Body.Distinct.addAttribute {body : Body} (h : body.Distinct) {a : Attribute}
    (ha : body.attributes.any (·.name = a.name) = false) :
    Body.Distinct { body with attributes := body.attributes ++ [a] } := by
  refine ⟨?_, h.inner⟩
  rw [List.map_append, List.map_singleton, ← List.concat_eq_append, List.nodup_concat]
  refine ⟨fun hmem => ?_, h.names⟩
  obtain ⟨b, hb, hname⟩ := List.mem_map.mp hmem
  rw [List.any_eq_true.mpr ⟨b, hb, decide_eq_true hname⟩] at ha
  cases ha

theorem Body.Distinct.addBlock {body : Body} (h : body.Distinct) {b : Block} (hb : b.Distinct) :
    Body.Distinct { body with blocks := body.blocks ++ [b] } := by
  refine ⟨h.names, ?_⟩
  simpa [or_imp, forall_and] using ⟨h.inner, hb⟩

/-! ## 2. Parsing keeps names apart -/

/-- What a parse gives, wherever it begins. -/
def Gives {α : Type} (p : Parse (Reported α)) (P : α → Prop) : Prop := ∀ c, P (p c).1.1

section

variable {α β : Type} {Q : β → Prop}

theorem Gives.pure {r : Reported β} (h : Q r.1) : Gives (pure r) Q := fun _ => h

theorem Gives.after {p : Parse α} {f : α → Parse (Reported β)} (h : ∀ a, Gives (f a) Q) :
    Gives (p >>= f) Q := fun c => h (p c).1 (p c).2

theorem Gives.bind {P : α → Prop} {p : Parse (Reported α)} {f : Reported α → Parse (Reported β)}
    (hp : Gives p P) (hf : ∀ a, P a → ∀ ps, Gives (f (a, ps)) Q) : Gives (p >>= f) Q :=
  fun c => hf _ (hp c) _ (p c).2

end

theorem parseOneArgument_gives (fuel : Nat) :
    Gives (parseOneArgument fuel) fun attributes => (attributes.map (·.name)).Nodup := by
  have hnone : ∀ p : Problem,
      Gives (recoverAfterItem >>= fun _ => pure ([], [p])) fun attributes : List Attribute =>
        (attributes.map (·.name)).Nodup :=
    fun p => .after fun _ => .pure List.nodup_nil
  unfold parseOneArgument
  refine .after fun name => ?_
  split
  · exact hnone _
  · refine .after fun kind => ?_
    split
    · exact .after fun _ => .pure (List.nodup_singleton _)
    all_goals exact hnone _

/-- Every parse of a body, of an item or of a block with some fuel keeps names apart. -/
structure KeepsApart (fuel : Nat) : Prop where
  body : ∀ closer body ps, body.Distinct → Gives (parseBody fuel closer body ps) Body.Distinct
  item : Gives (parseItem fuel) Item.Distinct
  block : ∀ kind, Gives (parseBlock fuel kind) Block.Distinct

section

variable {fuel : Nat} (h : KeepsApart fuel)

include h

/-- An argument is only added if its name is new. -/
theorem KeepsApart.body_succ (closer : TokenKind) {body : Body} (ps : List Problem)
    (hbody : body.Distinct) : Gives (parseBody (fuel + 1) closer body ps) Body.Distinct := by
  rw [parseBody]
  refine .after fun kind => ?_
  split
  · exact .after fun _ => .pure hbody
  · split
    · exact .after fun _ => h.body _ _ _ hbody
    · refine .bind h.item fun item hitem more => ?_
      cases item with
      | argument a =>
        dsimp only
        split
        · exact h.body _ _ _ hbody
        · rename_i hnew
          exact h.body _ _ _ (hbody.addAttribute (Bool.eq_false_of_not_eq_true hnew))
      | block b => exact h.body _ _ _ (hbody.addBlock hitem)
      | none => exact h.body _ _ _ hbody
    · exact .after fun _ => .after fun _ => .after fun _ => .pure hbody

theorem KeepsApart.item_succ : Gives (parseItem (fuel + 1)) Item.Distinct := by
  rw [parseItem]
  refine .after fun name => .after fun kind => ?_
  split
  · exact .after fun _ => .pure trivial
  iterate 3 exact .bind (h.block _) fun b hb _ => .pure hb
  exact .after fun _ => .pure trivial

theorem KeepsApart.block_succ (kind : String) :
    Gives (parseBlock (fuel + 1) kind) Block.Distinct := by
  rw [parseBlock]
  refine .after fun reported => ?_
  obtain ⟨labels, ps⟩ := reported
  cases labels with
  | none => exact .pure ⟨List.nodup_nil, by simp⟩
  | some labels =>
    refine .after fun kind => ?_
    dsimp only
    split
    -- the last case is a block on one line
    iterate 3
      exact .bind (h.body _ _ _ Body.distinct_nil) fun body hbody _ =>
        .after fun _ => .pure ⟨hbody.names, hbody.inner⟩
    exact .bind (parseOneArgument_gives fuel) fun attributes hnames _ =>
      .after fun _ => .after fun _ => .pure ⟨hnames, by simp⟩

end

theorem keepsApart_zero : KeepsApart 0 where
  body closer body ps hbody := by
    rw [parseBody]
    exact .pure hbody
  item := by
    rw [parseItem]
    exact .pure trivial
  block kind := by
    rw [parseBlock]
    exact .pure ⟨List.nodup_nil, by simp⟩

theorem keepsApart (fuel : Nat) : KeepsApart fuel := by
  induction fuel with
  | zero => exact keepsApart_zero
  | succ fuel ih =>
    exact ⟨fun closer _ ps hbody => ih.body_succ closer ps hbody, ih.item_succ, ih.block_succ⟩

theorem parseFile_distinct (s : List Text.Symbol) : (parseFile s).1.Distinct :=
  (keepsApart (fuelPerToken * ((tokens s).length + 2))).body .eof _ [] Body.distinct_nil _

theorem distinct_of_parse {format : Format} {s : List Text.Symbol} {content : Content}
    (h : parse format s = .ok content) : content.Distinct := by
  unfold parse at h
  cases format with
  | native =>
    dsimp only at h
    split at h
    · rename_i body hfile
      cases h
      have hbody := parseFile_distinct s
      rwa [hfile] at hbody
    · cases h
  | json =>
    obtain ⟨node, -, h⟩ := bind_eq_ok_iff.mp h
    cases h
    trivial

/-! ## 3. Contents that are read -/

theorem Content.Distinct.sections {content : Content} (h : content.Distinct)
    {forms : List SectionForm} {ss : List Section} (hss : content.sections forms = .ok ss) :
    ∀ s ∈ ss, s.content.Distinct := by
  cases content with
  | native body =>
    unfold Content.sections nativeSections at hss
    dsimp only at hss
    split at hss
    · cases hss
      intro s hs
      obtain ⟨b, hb, rfl⟩ := List.mem_map.mp hs
      exact (h.inner b hb).body
    · cases hss
  | json node =>
    intro s hs
    obtain ⟨-, item, hitem⟩ := forall_mem_jsonSections hss s hs
    rw [hitem]
    trivial

/-- What is read from a source: a whole file, or a section of what is read. -/
inductive IsRead : Content → Prop where
  | file {format : Format} {s : List Text.Symbol} {content : Content}
      (parsed : parse format s = .ok content) : IsRead content
  | inside {content : Content} {forms : List SectionForm} {ss : List Section} {s : Section}
      (outer : IsRead content) (sections : content.sections forms = .ok ss) (mem : s ∈ ss) :
      IsRead s.content

theorem IsRead.distinct {content : Content} (h : IsRead content) : content.Distinct := by
  induction h with
  | file parsed => exact distinct_of_parse parsed
  | inside outer sections mem ih => exact ih.sections sections _ mem

/-- The arguments of what is read have different names. -/
theorem IsRead.nodup_arguments {content : Content} (h : IsRead content) {as : List Argument}
    (has : content.arguments = .ok as) : (as.map (·.name)).Nodup := by
  have hdistinct := h.distinct
  unfold Content.arguments at has
  split at has
  · unfold nativeArguments at has
    split at has
    · cases has
      simpa [List.map_map, Function.comp_def] using hdistinct.names
    · cases has
  · exact (jsonArguments_eq_ok_iff.mp has).2.1
  · cases has

end CypherBlocks.Config
