import CypherBlocks.Proofs.Readable

/-!
# The texts of a graph

All texts are normalised when a graph is written: ids, labels, the texts of arguments and the ends
of connections.  So the text of a graph is that of the graph with its texts normalised, and what is
read from it can only be the same graph if its texts were in normal form before.
-/

namespace CypherBlocks

/-! ## 1. Texts and what is written for them -/

def ArgumentValue.allTexts : ArgumentValue → List String
  | .text s => [s]
  | .texts ss => ss
  | .whole _ | .real _ => []

def Block.texts (b : Block) : List String :=
  b.id :: b.label :: b.params.toList.flatMap fun p => p.arguments.flatMap (·.2.allTexts)

def Connection.texts (c : Connection) : List String := [c.source, c.target]

/-- All texts of a graph. -/
def Graph.texts (g : Graph) : List String :=
  g.blocks.flatMap Block.texts ++ g.connections.flatMap Connection.texts

def ArgumentValue.normalized : ArgumentValue → ArgumentValue
  | .text s => .text (Text.normalize s)
  | .texts ss => .texts (ss.map Text.normalize)
  | v => v

/-- An argument with its texts normalised. -/
def normalizedArgument (a : String × ArgumentValue) : String × ArgumentValue :=
  (a.1, a.2.normalized)

def Params.normalized : Params → Params
  | .textSearch p => .textSearch { p with query := Text.normalize p.query }
  | .selectById id => .selectById (Text.normalize id)
  | .neighborhood p => .neighborhood
    { p with
      direction := Text.normalize p.direction
      relationshipTypes := p.relationshipTypes.map Text.normalize
      includeStatuses := p.includeStatuses.map Text.normalize
      excludeStatuses := p.excludeStatuses.map Text.normalize }
  | .shortestPath p => .shortestPath
    { p with
      mode := Text.normalize p.mode
      targetId := Text.normalize p.targetId
      targetQuery := Text.normalize p.targetQuery }
  | .ontologyFilter types => .ontologyFilter (types.map Text.normalize)
  | .nodeFilter p => .nodeFilter { p with labels := p.labels.map Text.normalize }
  | .edgeFilter types => .edgeFilter (types.map Text.normalize)
  | p => p

def Block.normalized (b : Block) : Block :=
  ⟨Text.normalize b.id, Text.normalize b.label, b.params.map Params.normalized⟩

def Connection.normalized (c : Connection) : Connection :=
  ⟨Text.normalize c.source, Text.normalize c.target⟩

/-- The graph that the text of a graph tells of. -/
def Graph.normalized (g : Graph) : Graph :=
  ⟨g.blocks.map Block.normalized, g.connections.map Connection.normalized⟩

theorem ArgumentValue.allTexts_normalized (v : ArgumentValue) :
    v.normalized.allTexts = v.allTexts.map Text.normalize := by
  cases v <;> rfl

theorem ArgumentValue.isZero_normalized (v : ArgumentValue) : v.normalized.isZero = v.isZero := by
  cases v with
  | text s => exact Text.isEmpty_normalize s
  | texts ss => exact List.isEmpty_map
  | _ => rfl

theorem Params.kind_normalized (p : Params) : p.normalized.kind = p.kind := by
  cases p <;> rfl

theorem Params.arguments_normalized (p : Params) :
    p.normalized.arguments = p.arguments.map normalizedArgument := by
  cases p <;> rfl

theorem Block.texts_normalized (b : Block) : b.normalized.texts = b.texts.map Text.normalize := by
  obtain ⟨id, label, params⟩ := b
  cases params with
  | none => rfl
  | some p =>
    simp [Block.texts, Block.normalized, p.arguments_normalized, List.flatMap_map,
      List.map_flatMap, normalizedArgument, ArgumentValue.allTexts_normalized]

theorem Graph.texts_normalized (g : Graph) : g.normalized.texts = g.texts.map Text.normalize := by
  simp [Graph.texts, Graph.normalized, List.flatMap_map, List.map_flatMap, Block.texts_normalized,
    Connection.texts, Connection.normalized]

theorem map_normalize {ss : List String} (h : ∀ s ∈ ss, Text.normalize s = s) :
    ss.map Text.normalize = ss :=
  (List.map_congr_left h).trans (List.map_id' ss)

theorem Params.normalized_eq {p : Params}
    (h : ∀ a ∈ p.arguments, ∀ s ∈ a.2.allTexts, Text.normalize s = s) : p.normalized = p := by
  cases p <;> simp_all [Params.arguments, ArgumentValue.allTexts, Params.normalized, map_normalize]

theorem Block.normalized_eq {b : Block} (h : ∀ s ∈ b.texts, Text.normalize s = s) :
    b.normalized = b := by
  obtain ⟨id, label, params⟩ := b
  obtain ⟨hid, h⟩ := List.forall_mem_cons.mp h
  obtain ⟨hlabel, h⟩ := List.forall_mem_cons.mp h
  have hparams : params.map Params.normalized = params := by
    cases params with
    | none => rfl
    | some p =>
      rw [Option.map_some, Params.normalized_eq fun a ha s hs => h s ?_]
      simpa using ⟨_, _, ha, hs⟩
  rw [Block.normalized, hid, hlabel, hparams]

/-- A graph all of whose texts are in normal form is written as it is. -/
theorem Graph.normalized_eq {g : Graph} (h : ∀ s ∈ g.texts, Text.IsNormal s) :
    g.normalized = g := by
  obtain ⟨blocks, connections⟩ := g
  obtain ⟨hblocks, hconnections⟩ := List.forall_mem_append.mp h
  have hblock : ∀ b ∈ blocks, b.normalized = b := fun b hb =>
    Block.normalized_eq fun s hs => hblocks s (List.mem_flatMap.mpr ⟨b, hb, hs⟩)
  have hconnection : ∀ c ∈ connections, c.normalized = c := by
    intro c hc
    have hends : ∀ s ∈ c.texts, Text.normalize s = s := fun s hs =>
      hconnections s (List.mem_flatMap.mpr ⟨c, hc, hs⟩)
    rw [Connection.normalized, hends c.source (by simp [Connection.texts]),
      hends c.target (by simp [Connection.texts])]
  rw [Graph.normalized, List.map_congr_left hblock, List.map_congr_left hconnection, List.map_id',
    List.map_id']

namespace Document

theorem textLiteral_normalize (s : String) : textLiteral (Text.normalize s) = textLiteral s := by
  unfold textLiteral
  rw [Text.isNormal_normalize s]

theorem literal_normalized (v : ArgumentValue) : literal v.normalized = literal v := by
  cases v with
  | text s => exact congrArg Except.ok (textLiteral_normalize s)
  | texts ss =>
    have hlist : (ss.map Text.normalize).map textLiteral = ss.map textLiteral := by
      rw [List.map_map]
      exact List.map_congr_left fun s _ => textLiteral_normalize s
    change Except.ok _ = Except.ok _
    rw [hlist]
  | _ => rfl

/-- What is written is decided on texts as they are. -/
theorem writtenArguments_normalized (label : String) (p : Params) :
    writtenArguments (Text.normalize label) p.normalized =
      (writtenArguments label p).map normalizedArgument := by
  unfold writtenArguments
  have hcons : (labelName, ArgumentValue.text (Text.normalize label)) :: p.normalized.arguments =
      ((labelName, .text label) :: p.arguments).map normalizedArgument := by
    rw [p.arguments_normalized]
    rfl
  rw [hcons, List.filter_map]
  congr 1
  refine List.filter_congr fun a _ => ?_
  change (!a.2.normalized.isZero) = !a.2.isZero
  rw [a.2.isZero_normalized]

theorem blockText_normalized {b : Block} {p : Params} (h : b.params = some p) :
    blockText b.normalized = blockText b := by
  obtain ⟨id, label, params⟩ := b
  obtain rfl : params = some p := h
  unfold Block.normalized blockText sectionHead
  dsimp only [Option.map_some]
  rw [writtenArguments_normalized, p.kind_normalized, textLiteral_normalize, List.map_map,
    List.mapM_map]
  simp only [Function.comp_def, normalizedArgument, literal_normalized]

theorem connectionText_normalized (c : Connection) :
    connectionText c.normalized = connectionText c := by
  unfold Connection.normalized connectionText sectionHead
  rw [textLiteral_normalize, textLiteral_normalize]

theorem mapM_congr {ε α β : Type} {f g : α → Except ε β} {xs : List α} (h : ∀ x ∈ xs, f x = g x) :
    xs.mapM f = xs.mapM g := by
  induction xs with
  | nil => rfl
  | cons x xs ih =>
    obtain ⟨hx, h⟩ := List.forall_mem_cons.mp h
    rw [List.mapM_cons, List.mapM_cons, hx, ih h]

theorem write_normalized {g : Graph} (h : ∀ b ∈ g.blocks, ∃ p, b.params = some p) :
    write g.normalized = write g := by
  have hblocks : g.normalized.blocks.mapM blockText = g.blocks.mapM blockText := by
    unfold Graph.normalized
    rw [List.mapM_map]
    exact mapM_congr fun b hb => blockText_normalized (h b hb).choose_spec
  have hconnections :
      g.normalized.connections.map connectionText = g.connections.map connectionText := by
    unfold Graph.normalized
    rw [List.map_map]
    exact List.map_congr_left fun c _ => connectionText_normalized c
  unfold write
  rw [hblocks, hconnections]
  simp [Graph.normalized]

end Document

/-! ## 2. What is read from a written text -/

theorem Graph.ids_kept (g : Graph) : g.kept.blocks.map (·.id) = g.blocks.map (·.id) := by
  rw [Graph.kept, List.map_map]
  rfl

theorem Graph.Same.ids {g h : Graph} (hgh : g.Same h) :
    g.blocks.map (·.id) = h.blocks.map (·.id) := by
  rw [← List.forall₂_eq_eq_eq, List.forall₂_map_left_iff, List.forall₂_map_right_iff]
  exact hgh.blocks.imp fun b c hbc => hbc.id

/-- Sections have the ids of the blocks that they were written for. -/
theorem Document.outlined_ids {bs : List Block} {cs : List Config.Block}
    (hparams : ∀ b ∈ bs, ∃ p, b.params = some p)
    (h : List.Forall₂ Config.Block.Says cs (blockPassages bs)) :
    (cs.map outlined).map (·.2.1) = bs.map (·.id) := by
  induction bs generalizing cs with
  | nil =>
    cases h
    rfl
  | cons b bs ih =>
    obtain ⟨⟨p, hp⟩, hrest⟩ := List.forall_mem_cons.mp hparams
    obtain ⟨id, label, params⟩ := b
    obtain rfl : params = some p := hp
    rw [blockPassages_cons] at h
    obtain ⟨c, cs', hc, hcs, rfl⟩ := List.forall₂_cons_right_iff.mp h
    have hid : (outlined c).2.1 = id := by
      unfold outlined
      rw [hc.labels]
      rfl
    rw [List.map_cons, List.map_cons, List.map_cons, hid, ih hrest hcs]

/-- What is read from the text of a graph has its ids and connections, and its blocks are those of
the sections that were written. -/
theorem readSource_write {g h : Graph} (hblocks : ∀ b ∈ g.blocks, b.Parses)
    (hconnections : ∀ c ∈ g.connections, c.Fits) {text : String}
    (htext : Document.write g = .ok text) {file : String}
    (hfile : file.endsWith Document.nativeExtension = true)
    (hread : (Document.readSource file (Text.symbolsOf text)).2 = .ok h) :
    h.blocks.map (·.id) = g.blocks.map (·.id) ∧ h.connections = g.connections ∧
      ∃ cs, List.Forall₂ Config.Block.Says cs (Document.blockPassages g.kept.blocks) ∧
        (Document.readBlocks (cs.map Document.outlined)).2 = .ok h.blocks := by
  obtain ⟨content, sections, hparse, houtline, hsections, -⟩ :=
    Document.readSource_eq_ok_iff.mp hread
  obtain ⟨text', content', cs, hwrite, hparse', houtline', hcs⟩ :=
    write_outline hblocks hconnections hfile
  obtain rfl : text' = text := Except.ok.inj (hwrite.symm.trans htext)
  obtain rfl : content' = content := Except.ok.inj (hparse'.symm.trans hparse)
  obtain ⟨rfl, hends⟩ := Document.Outline.mk.inj (Except.ok.inj (houtline.symm.trans houtline'))
  have hparams : ∀ b ∈ g.kept.blocks, ∃ p, b.params = some p := by
    intro b hb
    obtain ⟨c, hc, rfl⟩ := List.mem_map.mp hb
    obtain ⟨p, hp, -⟩ := (hblocks c hc).params
    exact ⟨p.kept, by rw [Block.kept, hp]; rfl⟩
  refine ⟨?_, hends, cs, hcs, hsections⟩
  rw [(Document.readBlocks_readable hsections).2, Document.outlined_ids hparams hcs, g.ids_kept]

/-! ## 3. Writing and reading -/

/-- An argument whose number, if it is one, is an integer of 64 bits or finite. -/
def ArgumentValue.InRange : ArgumentValue → Prop
  | .whole n => Document.leastWhole ≤ n ∧ n ≤ Document.greatestWhole
  | .real x => x.IsProper
  | .text _ | .texts _ => True

instance (v : ArgumentValue) : Decidable v.InRange :=
  match v with
  | .whole n => inferInstanceAs (Decidable (Document.leastWhole ≤ n ∧ n ≤ Document.greatestWhole))
  | .real x => inferInstanceAs (Decidable x.IsProper)
  | .text _ | .texts _ => inferInstanceAs (Decidable True)

theorem ArgumentValue.InRange.fits_normalized {v : ArgumentValue} (h : v.InRange) :
    v.normalized.Fits := by
  cases v with
  | text s => exact Text.isNormal_normalize s
  | texts ss => exact List.forall_mem_map.mpr fun s _ => Text.isNormal_normalize s
  | _ => exact h

/-- A graph such as is meant to be written: every block has parameters and an id of its own that is
not blank, texts are composed, integers have 64 bits, and confidences are finite. -/
structure Graph.Writable (g : Graph) : Prop where
  params : ∀ b ∈ g.blocks, ∃ p ∈ b.params, ∀ a ∈ p.arguments, a.2.InRange
  ids : ∀ b ∈ g.blocks, Text.isBlank b.id = false
  distinct : (g.blocks.map (·.id)).Nodup
  texts : ∀ s ∈ g.texts, Text.IsComposed s

instance (g : Graph) : Decidable g.Writable :=
  decidable_of_iff ((∀ b ∈ g.blocks, ∃ p ∈ b.params, ∀ a ∈ p.arguments, a.2.InRange) ∧
      (∀ b ∈ g.blocks, Text.isBlank b.id = false) ∧ (g.blocks.map (·.id)).Nodup ∧
      ∀ s ∈ g.texts, Text.IsComposed s)
    ⟨fun h => ⟨h.1, h.2.1, h.2.2.1, h.2.2.2⟩, fun h => ⟨h.params, h.ids, h.distinct, h.texts⟩⟩

theorem Params.fits_normalized {p : Params} (h : ∀ a ∈ p.arguments, a.2.InRange) :
    ∀ a ∈ p.normalized.arguments, a.2.Fits := by
  intro a ha
  rw [p.arguments_normalized] at ha
  obtain ⟨b, hb, rfl⟩ := List.mem_map.mp ha
  exact (h b hb).fits_normalized

theorem Connection.fits_normalized (c : Connection) : c.normalized.Fits :=
  ⟨Text.isNormal_normalize _, Text.isNormal_normalize _⟩

theorem Graph.Writable.parses_normalized {g : Graph} (h : g.Writable) :
    ∀ b ∈ g.normalized.blocks, b.Parses := by
  intro b hb
  obtain ⟨c, hc, rfl⟩ := List.mem_map.mp hb
  obtain ⟨p, hp, hparams⟩ := h.params c hc
  exact ⟨⟨p.normalized, by rw [Block.normalized, hp]; rfl,
      fun a ha => .inl (Params.fits_normalized hparams a ha)⟩,
    Text.isNormal_normalize c.id, Text.isNormal_normalize c.label⟩

/-- Normalised, a graph can be read again unless two ids have become one. -/
theorem Graph.Writable.fits_normalized {g : Graph} (h : g.Writable)
    (hids : ∀ b ∈ g.normalized.blocks, Text.isBlank b.id = false)
    (hdistinct : (g.normalized.blocks.map (·.id)).Nodup) : g.normalized.Fits := by
  refine ⟨fun b hb => ?_, hdistinct, List.forall_mem_map.mpr fun c _ => c.fits_normalized⟩
  have hid := hids b hb
  obtain ⟨c, hc, rfl⟩ := List.mem_map.mp hb
  obtain ⟨p, hp, hparams⟩ := h.params c hc
  exact ⟨⟨p.normalized, by rw [Block.normalized, hp]; rfl, Params.fits_normalized hparams⟩,
    ⟨hid, Text.isNormal_normalize c.id⟩, Text.isNormal_normalize c.label⟩

theorem Graph.texts_kept (g : Graph) : g.kept.texts = g.texts := by
  have hblock : ∀ b : Block, b.kept.texts = b.texts := by
    rintro ⟨id, label, params⟩
    cases params with
    | none => rfl
    | some p => cases p <;> rfl
  simp [Graph.texts, Graph.kept, List.flatMap_map, hblock]

theorem Params.Same.texts {p q : Params} (h : p.Same q) :
    p.arguments.flatMap (·.2.allTexts) = q.arguments.flatMap (·.2.allTexts) := by
  cases p with
  | nodeFilter p =>
    cases q with
    | nodeFilter q => simp [Params.arguments, ArgumentValue.allTexts, h.1]
    | _ => cases h
  | _ =>
    obtain rfl : _ = q := h
    rfl

theorem Block.Same.texts {b c : Block} (h : b.Same c) : b.texts = c.texts := by
  obtain ⟨_, _, p⟩ := b
  obtain ⟨_, _, q⟩ := c
  obtain ⟨rfl, rfl, hparams : Option.Rel Params.Same p q⟩ := h
  cases hparams with
  | none => rfl
  | some hpq => simp [Block.texts, hpq.texts]

theorem Graph.Same.texts {g h : Graph} (hgh : g.Same h) : g.texts = h.texts := by
  have hblocks : g.blocks.map Block.texts = h.blocks.map Block.texts := by
    rw [← List.forall₂_eq_eq_eq, List.forall₂_map_left_iff, List.forall₂_map_right_iff]
    exact hgh.blocks.imp fun b c hbc => hbc.texts
  rw [Graph.texts, Graph.texts, hgh.connections, List.flatMap_def, hblocks, ← List.flatMap_def]

/-- A graph that is meant to be written can be.  If no run of marks in its texts is broken, its text
can be read, and what is read is the graph with each power of two among its confidences that does
not read back replaced by the neighbour beneath it.  So it is read as the same graph just if no run
is broken and those powers of two read back. -/
theorem write_read_same_iff {g : Graph} (hg : g.Writable) {file : String}
    (hfile : file.endsWith Document.nativeExtension = true) :
    ∃ text, Document.write g = .ok text ∧
      ((∀ s ∈ g.texts, Text.HasShortRuns s) → ∃ g',
        (Document.readSource file (Text.symbolsOf text)).2 = .ok g' ∧ g'.Same g.kept) ∧
      ((∃ g', (Document.readSource file (Text.symbolsOf text)).2 = .ok g' ∧ g'.Same g) ↔
        (∀ s ∈ g.texts, Text.HasShortRuns s) ∧
          ∀ x ∈ g.confidences, x.AtStep → x.ReadsBack) := by
  have hconnections : ∀ c ∈ g.normalized.connections, c.Fits :=
    List.forall_mem_map.mpr fun c _ => c.fits_normalized
  obtain ⟨text, _, _, hnormalized, -⟩ := write_outline hg.parses_normalized hconnections hfile
  have hwrite : Document.write g = .ok text := by
    rw [← Document.write_normalized fun b hb => ?_]
    · exact hnormalized
    · obtain ⟨p, hp, -⟩ := hg.params b hb
      exact ⟨p, hp⟩
  -- texts that are kept whole are those in normal form, and then the graph is written as it is
  have hkeeps : (∀ s ∈ g.texts, Text.HasShortRuns s) → g.Fits := by
    intro hruns
    have hnormal : g.normalized = g := Graph.normalized_eq fun s hs =>
      Text.isNormal_iff.mpr ⟨hg.texts s hs, hruns s hs⟩
    have hfits := hg.fits_normalized
    rw [hnormal] at hfits
    exact hfits hg.ids hg.distinct
  have hread : (∀ s ∈ g.texts, Text.HasShortRuns s) → ∃ g',
      (Document.readSource file (Text.symbolsOf text)).2 = .ok g' ∧ g'.Same g.kept := by
    intro hruns
    obtain ⟨text', g', hwrite', hread, hkept⟩ := write_read_kept (hkeeps hruns) hfile
    obtain rfl : text' = text := Except.ok.inj (hwrite'.symm.trans hwrite)
    exact ⟨g', hread, hkept⟩
  refine ⟨text, hwrite, hread, ?_, ?_⟩
  · rintro ⟨g', hg', hsame⟩
    have hids := (readSource_write hg.parses_normalized hconnections hnormalized hfile hg').1
    have hreadable := Document.readSource_readable hg'
    -- what was read has the normalised ids, so the normalised graph fits
    have hblank : ∀ b ∈ g.normalized.blocks, Text.isBlank b.id = false := by
      intro b hb
      have hb : b.id ∈ g'.blocks.map (·.id) := hids ▸ List.mem_map_of_mem hb
      obtain ⟨c, hc, heq⟩ := List.mem_map.mp hb
      exact heq ▸ (hreadable.blocks c hc).id
    have hfits := hg.fits_normalized hblank (hids ▸ hreadable.ids)
    obtain ⟨text', g'', hwrite', hread', hkept⟩ := write_read_kept hfits hfile
    obtain rfl : text' = text := Except.ok.inj (hwrite'.symm.trans hnormalized)
    obtain rfl : g'' = g' := Except.ok.inj (hread'.symm.trans hg')
    have htexts : g.texts.map Text.normalize = g.texts := by
      rw [← g.texts_normalized, ← Graph.texts_kept, ← hkept.texts, hsame.texts]
    have hnormal : ∀ s ∈ g.texts, Text.IsNormal s :=
      List.map_inj_left.mp (htexts.trans (List.map_id _).symm)
    have hruns : ∀ s ∈ g.texts, Text.HasShortRuns s := fun s hs =>
      (Text.isNormal_iff.mp (hnormal s hs)).2
    rw [Graph.normalized_eq hnormal] at hkept
    exact ⟨hruns, (Graph.same_kept_iff (hkeeps hruns).blocks).mp (hkept.symm.trans hsame)⟩
  · rintro ⟨hruns, hback⟩
    obtain ⟨g', hg', hkept⟩ := hread hruns
    exact ⟨g', hg', hkept.trans ((Graph.same_kept_iff (hkeeps hruns).blocks).mpr hback)⟩

/-- Texts with quotes, escapes and template signs, and confidences of a tenth and a half. -/
def quotedGraph : Graph :=
  ⟨[⟨"search \"1\"", "What is $\x7bthis\x7d?", some (.textSearch ⟨"a\\b\n%\x7b é \"q\"", 25⟩)⟩,
    ⟨"near", "", some (.neighborhood ⟨"both", -3, ["A B", ""], [], ["retired"]⟩)⟩,
    ⟨"sure", "α", some (.nodeFilter ⟨["Person"], .finite false 7205759403792794 (-56)⟩)⟩,
    ⟨"likely", "", some (.nodeFilter ⟨[], .finite false (2 ^ 52) (-53)⟩)⟩],
   [⟨"search \"1\"", "near"⟩, ⟨"missing", ""⟩]⟩

theorem quotedGraph_reads_back : quotedGraph.Writable ∧
    ∃ text g', Document.write quotedGraph = .ok text ∧
      (Document.readSource "graph.hcl" (Text.symbolsOf text)).2 = .ok g' ∧
      g'.Same quotedGraph := by
  have hwritable : quotedGraph.Writable := by decide +kernel
  have hfile : "graph.hcl".endsWith Document.nativeExtension = true := by decide +kernel
  obtain ⟨text, hwrite, -, hsame⟩ := write_read_same_iff hwritable hfile
  obtain ⟨g', hread, hsame⟩ := hsame.mpr (by decide +kernel)
  exact ⟨hwritable, text, g', hwrite, hread, hsame⟩

/-- A single filter that asks for a confidence of `2^-24`. -/
def powerGraph : Graph :=
  ⟨[⟨"f", "", some (.nodeFilter ⟨[], .finite false (2 ^ 52) (-76)⟩)⟩], []⟩

theorem powerGraph_reads_beneath : powerGraph.Writable ∧
    ∃ text g', Document.write powerGraph = .ok text ∧
      (Document.readSource "graph.hcl" (Text.symbolsOf text)).2 = .ok g' ∧
      ¬g'.Same powerGraph := by
  have hwritable : powerGraph.Writable := by decide +kernel
  have hfits : powerGraph.Fits := by decide +kernel
  have hfile : "graph.hcl".endsWith Document.nativeExtension = true := by decide +kernel
  obtain ⟨text, g', hwrite, hread, hkept⟩ := write_read_kept hfits hfile
  refine ⟨hwritable, text, g', hwrite, hread, fun hsame => ?_⟩
  have hback := (Graph.same_kept_iff hfits.blocks).mp (hkept.symm.trans hsame)
  exact absurd hback (by decide +kernel)

end CypherBlocks
