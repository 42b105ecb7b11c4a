import CypherBlocks.Proofs.Merging
import CypherBlocks.Proofs.Reports

/-!
# What loading promises

A graph may repeat ids and lack parameters, but not one that was loaded: its blocks are those of the
`block` sections of its files, one for one, and their ids tell them apart.  The last block with an
id is then the only one, and no block is of an unknown kind when the graph is compiled.
-/

namespace CypherBlocks

/-! ## 1. Sections and their labels -/

namespace Config

/-- A section of a form, with as many labels as the form names. -/
def Section.HasForm (s : Section) (form : SectionForm) : Prop :=
  s.kind = form.kind ∧ s.labels.length = form.labels.length

theorem length_of_labelProblem? {form : SectionForm} {labels : List String}
    (h : labelProblem? form labels = none) : labels.length = form.labels.length := by
  unfold labelProblem? at h
  split at h
  · cases h
  · split at h
    · cases h
    · rename_i hmissing
      have := List.getElem?_eq_none_iff.mp hmissing
      omega

theorem hasForm_of_nativeSections {forms : List SectionForm} {body : Body} {ss : List Section}
    (h : nativeSections forms body = .ok ss) : ∀ s ∈ ss, ∃ form ∈ forms, s.HasForm form := by
  unfold nativeSections at h
  split at h
  · rename_i hproblems
    cases h
    simp only [nativeProblems, List.append_eq_nil_iff, List.filterMap_eq_nil_iff,
      List.map_eq_nil_iff, List.filter_eq_nil_iff] at hproblems
    obtain ⟨⟨hlabels, -⟩, hkinds⟩ := hproblems
    intro s hs
    obtain ⟨b, hb, rfl⟩ := List.mem_map.mp hs
    have hknown : findForm? forms b.kind ≠ none := by simpa using hkinds b hb
    obtain ⟨form, hform⟩ := Option.ne_none_iff_exists'.mp hknown
    have hlength := hlabels b hb
    simp only [hform] at hlength
    refine ⟨form, List.mem_of_find?_eq_some hform, ?_, length_of_labelProblem? hlength⟩
    have hkind := List.find?_some hform
    exact (of_decide_eq_true hkind).symm
  · cases h

theorem forall_mem_flatten_of_mapM {ε α β : Type} {P : β → Prop} {f : α → Except ε (List β)}
    {xs : List α} {parts : List (List β)} (h : xs.mapM f = .ok parts)
    (hP : ∀ x ∈ xs, ∀ ys, f x = .ok ys → ∀ y ∈ ys, P y) : ∀ y ∈ parts.flatten, P y := by
  have hparts : ∀ ys ∈ parts, ∀ y ∈ ys, P y := by
    induction xs generalizing parts with
    | nil =>
      cases h
      simp
    | cons x xs ih =>
      obtain ⟨hx, hP⟩ := List.forall_mem_cons.mp hP
      rw [List.mapM_cons] at h
      exact forall_mem_of_bind_cons h hx fun parts hparts => ih hparts hP
  intro y hy
  obtain ⟨ys, hys, hy⟩ := List.mem_flatten.mp hy
  exact hparts ys hys y hy

/-- Below a property there is one level of properties for each label that is missing, and then JSON
again. -/
theorem forall_mem_jsonSectionsAt {kind : String} {missing labels : List String}
    {node : Json.Node} {ss : List Section} (h : jsonSectionsAt kind missing labels node = .ok ss) :
    ∀ s ∈ ss, s.kind = kind ∧ s.labels.length = labels.length + missing.length ∧ ∃ item,
      s.content = .json item := by
  induction missing generalizing labels node ss with
  -- no label is missing: what stands here are sections
  | nil =>
    unfold jsonSectionsAt at h
    split at h
    · cases h
      simp
    · cases h
      simp
    · cases h
      intro s hs
      obtain ⟨item, -, rfl⟩ := List.mem_map.mp hs
      exact ⟨rfl, rfl, item, rfl⟩
    · cases h
  -- the names of the properties are the next label
  | cons name missing ih =>
    rw [jsonSectionsAt] at h
    obtain ⟨properties, -, h⟩ := bind_eq_ok_iff.mp h
    split at h
    · cases h
    · obtain ⟨parts, hparts, h⟩ := bind_eq_ok_iff.mp h
      cases h
      refine forall_mem_flatten_of_mapM hparts fun x _ ys hys s hs => ?_
      obtain ⟨hkind, hlength, hjson⟩ := ih hys s hs
      refine ⟨hkind, ?_, hjson⟩
      rw [hlength, List.length_append, List.length_cons, List.length_cons, List.length_nil]
      omega

theorem forall_mem_jsonSections {forms : List SectionForm} {node : Json.Node} {ss : List Section}
    (h : jsonSections forms node = .ok ss) :
    ∀ s ∈ ss, (∃ form ∈ forms, s.HasForm form) ∧ ∃ item, s.content = .json item := by
  unfold jsonSections at h
  obtain ⟨properties, -, h⟩ := bind_eq_ok_iff.mp h
  obtain ⟨parts, hparts, h⟩ := bind_eq_ok_iff.mp h
  split at h
  · cases h
  · cases h
    refine forall_mem_flatten_of_mapM hparts fun x _ ys hys s hs => ?_
    dsimp only at hys
    split at hys
    · rename_i form hform
      obtain ⟨hkind, hlength, hjson⟩ := forall_mem_jsonSectionsAt hys s hs
      refine ⟨⟨form, List.mem_of_find?_eq_some hform, hkind, ?_⟩, hjson⟩
      rwa [List.length_nil, Nat.zero_add] at hlength
    · cases hys
      cases hs

theorem Content.hasForm_of_sections {content : Content} {forms : List SectionForm}
    {ss : List Section} (h : content.sections forms = .ok ss) :
    ∀ s ∈ ss, ∃ form ∈ forms, s.HasForm form := by
  cases content with
  | native body => exact hasForm_of_nativeSections h
  | json node => exact fun s hs => (forall_mem_jsonSections h s hs).1

end Config

/-! ## 2. Blocks and their sections -/

namespace Document

open Config

/-- The labels of a section are the kind and the id of a block. -/
def Heads (s : Section) (b : Block) : Prop := ∃ p, b.params = some p ∧ s.labels = [p.kind.tag, b.id]

/-- Blocks are those of the `block` sections in a source, one for one and in order. -/
def Declares (file : String) (source : List Text.Symbol) (blocks : List Block) : Prop :=
  ∃ content sections, Config.parse (formatOf file) source = .ok content ∧
    content.sections [blockForm, connectionForm] = .ok sections ∧
    List.Forall₂ Heads (sections.filter (·.kind = blockForm.kind)) blocks

/-- Blocks are those of the files at or below some paths, file by file. -/
def DeclaresAll (top : Files.Entry) (paths : List String) (blocks : List Block) : Prop :=
  ∃ files parts, graphFiles top paths = .ok files ∧ blocks = parts.flatten ∧
    List.Forall₂ (fun file part => ∃ bytes, Files.readFile top file = .ok bytes ∧
      Declares file (Text.symbols bytes) part) files parts

theorem tag_of_ofTag? {tag : String} {kind : Kind} (h : Kind.ofTag? tag = some kind) :
    kind.tag = tag := by
  unfold Kind.ofTag? at h
  simpa using List.find?_some h

theorem readBlock_kind {tag id : String} {content : Content} {b : Block}
    (h : (readBlock tag id content).2 = .ok b) : ∃ p, b.params = some p ∧ p.kind.tag = tag := by
  unfold readBlock at h
  split at h
  · cases h
  · rename_i kind hkind
    split at h
    · cases h
    · dsimp only at h
      split at h
      · cases h
      · rename_i d hd
        cases h
        refine ⟨d.params, rfl, ?_⟩
        rw [(readable_decodeBody hd).kind]
        exact tag_of_ofTag? hkind

theorem readBlocks_kinds {parts : List (String × String × Content)} {bs : List Block}
    (h : (readBlocks parts).2 = .ok bs) :
    List.Forall₂ (fun part b => ∃ p, b.params = some p ∧ p.kind.tag = part.1 ∧ b.id = part.2.1)
      parts bs := by
  induction parts generalizing bs with
  | nil =>
    cases h
    exact .nil
  | cons part parts ih =>
    rw [readBlocks] at h
    dsimp only at h
    split at h
    · cases h
    · rename_i b hb
      obtain ⟨bs', hbs, rfl⟩ := map_eq_ok_iff.mp h
      obtain ⟨p, hp, htag⟩ := readBlock_kind hb
      exact .cons ⟨p, hp, htag, (readBlock_readable hb).2⟩ (ih hbs)

theorem outline_eq_ok {content : Content} {o : Outline} (h : outline content = .ok o) :
    ∃ sections, content.sections [blockForm, connectionForm] = .ok sections ∧
      o.blocks = (sections.filter (·.kind = blockForm.kind)).map fun s =>
        (s.labels.headD "", (s.labels.drop 1).headD "", s.content) := by
  unfold outline at h
  obtain ⟨sections, hsections, h⟩ := bind_eq_ok_iff.mp h
  obtain ⟨_, -, h⟩ := bind_eq_ok_iff.mp h
  obtain ⟨_, -, h⟩ := bind_eq_ok_iff.mp h
  cases h
  exact ⟨sections, hsections, rfl⟩

/-- A `block` section has two labels. -/
theorem labels_of_blockForm {content : Content} {sections : List Section}
    (h : content.sections [blockForm, connectionForm] = .ok sections) :
    ∀ s ∈ sections.filter (·.kind = blockForm.kind), ∃ tag id, s.labels = [tag, id] := by
  intro s hs
  obtain ⟨hs, -⟩ := List.mem_filter.mp hs
  obtain ⟨form, hform, -, hlength⟩ := Content.hasForm_of_sections h s hs
  -- both forms have two labels, so it does not matter which of them it is
  have htwo : s.labels.length = 2 := by
    rcases List.mem_pair.mp hform with rfl | rfl <;> exact hlength
  exact List.length_eq_two.mp htwo

theorem readSource_declares {file : String} {source : List Text.Symbol} {g : Graph}
    (h : (readSource file source).2 = .ok g) : Declares file source g.blocks := by
  obtain ⟨content, blocks, hparse, houtline, hread, -⟩ := readSource_eq_ok_iff.mp h
  obtain ⟨sections, hsections, rfl⟩ := outline_eq_ok houtline
  refine ⟨content, sections, hparse, hsections, ?_⟩
  have hkinds := List.forall₂_map_left_iff.mp (readBlocks_kinds hread)
  refine ((List.forall₂_and_left _ _).mpr ⟨labels_of_blockForm hsections, hkinds⟩).imp ?_
  rintro s b ⟨⟨tag, id, hlabels⟩, p, hp, htag, hid⟩
  refine ⟨p, hp, ?_⟩
  rw [hlabels] at htag hid ⊢
  rw [htag, hid]
  rfl

/-! ## 3. Files -/

theorem load_declares {top : Files.Entry} {paths : List String} {g : Graph}
    (h : (load top paths).2 = .ok g) : DeclaresAll top paths g.blocks := by
  obtain ⟨found, parts, hmerges, rfl⟩ := load_eq_ok_iff.mp h
  have hfiles := graphFiles_eq_ok_iff.mpr ⟨found, hmerges.walked, rfl⟩
  have hblocks : (merged parts).blocks = (parts.map (·.blocks)).flatten := List.flatMap_def
  refine ⟨found.flatten, parts.map (·.blocks), hfiles, hblocks,
    List.forall₂_map_right_iff.mpr (hmerges.accepted.imp ?_)⟩
  rintro file part ⟨bytes, hbytes, hpart⟩
  exact ⟨bytes, hbytes, readSource_declares hpart⟩

/-- Each file is readable on its own; that ids differ across files is checked at the end. -/
theorem load_readable {top : Files.Entry} {paths : List String} {g : Graph}
    (h : (load top paths).2 = .ok g) : g.Readable := by
  obtain ⟨found, parts, hmerges, rfl⟩ := load_eq_ok_iff.mp h
  refine ⟨fun b hb => ?_, hmerges.distinct⟩
  obtain ⟨part, hpart, hb⟩ := List.mem_flatMap.mp hb
  obtain ⟨file, -, bytes, -, hsource⟩ := exists_mem_of_forall₂ hmerges.accepted.flip hpart
  exact (readSource_readable hsource).blocks b hb

end Document

/-! ## 4. Graphs that were loaded -/

variable {g : Graph}

theorem filter_id_eq_singleton {bs : List Block} (hids : (bs.map (·.id)).Nodup) {b : Block}
    (hb : b ∈ bs) : bs.filter (·.id = b.id) = [b] := by
  induction bs with
  | nil => cases hb
  | cons a bs ih =>
    rw [List.map_cons, List.nodup_cons] at hids
    obtain ⟨hnew, hids⟩ := hids
    rcases List.mem_cons.mp hb with rfl | hb
    · have hothers : ∀ c ∈ bs, c.id ≠ b.id := by
        intro c hc hsame
        rw [← hsame] at hnew
        exact hnew (List.mem_map_of_mem hc)
      have hrest : bs.filter (·.id = b.id) = [] :=
        List.filter_eq_nil_iff.mpr (by simpa using hothers)
      simp [hrest]
    · have hne : a.id ≠ b.id := by
        intro hsame
        rw [hsame] at hnew
        exact hnew (List.mem_map_of_mem hb)
      simp [hne, ih hids hb]

theorem exists_query_of_mem_errors {m : String} (h : m ∈ (compile g).errors) :
    ∃ d, query g = .error d ∧ m = d.message := by
  unfold compile at h
  split at h
  · cases h
  · rename_i d hd
    exact ⟨d, hd, List.mem_singleton.mp h⟩

/-- What can be relied on in a graph that was loaded. -/
structure Graph.WellFormed (g : Graph) : Prop where
  distinct : (g.blocks.map (·.id)).Nodup
  named : ∀ b ∈ g.blocks, Text.isBlank b.id = false
  params : ∀ b ∈ g.blocks, b.params.isSome = true
  /-- No error ends as the one about a block without parameters does. -/
  supported : ∀ m ∈ (compile g).errors, ¬ EmitError.noParameters.text.toList <:+ m.toList
  /-- A block on the walk is the only one with its id. -/
  alone : ∀ b ∈ (Chain.walk g).blocks, g.blocks.filter (·.id = b.id) = [b]

theorem Graph.Readable.isSome_params (h : g.Readable) : ∀ b ∈ g.blocks, b.params.isSome = true := by
  intro b hb
  obtain ⟨p, hp, -⟩ := (h.blocks b hb).params
  rw [Option.mem_def.mp hp]
  rfl

theorem Graph.Readable.wellFormed (h : g.Readable) : g.WellFormed where
  distinct := h.ids
  named := fun b hb => (h.blocks b hb).id
  params := fun b hb => h.isSome_params b hb
  supported := by
    intro m hm hsuffix
    obtain ⟨d, hd, rfl⟩ := exists_query_of_mem_errors hm
    obtain ⟨c, hc, hbracket⟩ := endOf?_message_of_query hd
    -- a message that ended so would end in an angle bracket
    obtain ⟨front, hfront⟩ := hsuffix
    have hend : endOf? (String.ofList front ++ EmitError.noParameters.text) = some '>' :=
      endOf?_append _ (by decide +kernel)
    have hsame : String.ofList front ++ EmitError.noParameters.text = d.message := by
      rw [← String.toList_inj, String.toList_append, String.toList_ofList, hfront]
    rw [hsame, hc, Option.some_inj] at hend
    obtain ⟨b, hb, hnone⟩ := hbracket hend
    have hsome := h.isSome_params b hb
    rw [hnone] at hsome
    cases hsome
  alone := fun b hb => filter_id_eq_singleton h.ids (Chain.mem_of_mem_walk b hb)

/-- A graph that was read or loaded has one block for each `block` section, with the kind and the id
that the section says, and is well formed. -/
theorem loaded_graph_wellFormed :
    (∀ file source g, (Document.readSource file source).2 = .ok g →
      Document.Declares file source g.blocks ∧ g.WellFormed) ∧
      ∀ top paths g, (Document.load top paths).2 = .ok g → Document.DeclaresAll top paths g.blocks ∧
        g.WellFormed :=
  ⟨fun _ _ _ h => ⟨Document.readSource_declares h, (Document.readSource_readable h).wellFormed⟩,
    fun _ _ _ h => ⟨Document.load_declares h, (Document.load_readable h).wellFormed⟩⟩

/-- The graph of both files does not compile, but no block of it is of an unknown kind. -/
theorem splitFiles_wellFormed :
    (Document.load splitFiles ["graphs"]).2 = .ok splitGraph ∧
      Document.DeclaresAll splitFiles ["graphs"] splitGraph.blocks ∧
      splitGraph.WellFormed ∧ (Chain.walk splitGraph).blocks = splitGraph.blocks ∧
        (compile splitGraph).errors ≠ [] := by
  have hload : (Document.load splitFiles ["graphs"]).2 = .ok splitGraph :=
    Document.load_eq_ok_iff.mpr ⟨[["graphs/b/a.hcl", "graphs/b-2.hcl.json"]],
      [startGraph, gateGraph],
      ⟨.cons Document.finds_graphs .nil, by simp,
      .cons Document.holds_nativePart (.cons Document.holds_jsonPart .nil), by decide⟩, rfl⟩
  obtain ⟨hdeclares, hwellFormed⟩ := loaded_graph_wellFormed.2 _ _ _ hload
  exact ⟨hload, hdeclares, hwellFormed, by decide +kernel, by decide +kernel⟩

end CypherBlocks
