import CypherBlocks.Proofs.InfiniteText
import CypherBlocks.Proofs.WrittenTexts

/-!
# Writing what was read

A graph that was read can always be written.  Reading its text again gives the same graph just if
ids and the ends of connections are in normal form, all confidences are finite, and those that are
powers of two read back.
-/

namespace CypherBlocks

/-! ## 1. What was read can be written -/

namespace Document

theorem mapM_isOk {ε α β : Type} {f : α → Except ε β} {xs : List α}
    (h : ∀ x ∈ xs, ∃ y, f x = .ok y) : ∃ ys, xs.mapM f = .ok ys := by
  induction xs with
  | nil => exact ⟨[], rfl⟩
  | cons x xs ih =>
    obtain ⟨⟨y, hy⟩, h⟩ := List.forall_mem_cons.mp h
    obtain ⟨ys, hys⟩ := ih h
    refine ⟨y :: ys, ?_⟩
    rw [List.mapM_cons, hy, hys]
    rfl

/-- A graph that was read can be written. -/
theorem write_isOk {g : Graph} (h : g.Readable) : ∃ text, write g = .ok text := by
  have hblock : ∀ b ∈ g.blocks, ∃ s, blockText b = .ok s := by
    intro b hb
    obtain ⟨id, label, params⟩ := b
    obtain ⟨⟨p, rfl : params = some p, hparams⟩, -, hlabel⟩ := h.blocks _ hb
    have hwritten : ∀ a ∈ writtenArguments label p, a.2.Readable :=
      forall_mem_writtenArguments hlabel hparams
    obtain ⟨lines, hlines⟩ :=
      mapM_isOk (f := lineOf (((writtenArguments label p).map (·.1.length)).foldl max 0))
        fun a ha => by
      obtain ⟨s, hs⟩ := (hwritten a ha).literal_eq
      exact ⟨argumentLine _ a.1 s, by unfold lineOf; rw [hs]; rfl⟩
    exact ⟨_, blockText_eq_ok_iff.mpr ⟨lines, hlines, rfl⟩⟩
  obtain ⟨texts, htexts⟩ := mapM_isOk hblock
  unfold write
  rw [htexts]
  exact ⟨_, rfl⟩

end Document

theorem ArgumentValue.Readable.texts {v : ArgumentValue} (h : v.Readable) :
    ∀ s ∈ v.allTexts, Text.normalize s = s := by
  cases v with
  | text s => exact List.forall_mem_singleton.mpr h
  | texts ss => exact h
  | _ => exact List.forall_mem_nil _

/-- Only the id of a block may change when a block that was read is written. -/
theorem Block.Readable.normalized_eq {b : Block} (h : b.Readable) :
    b.normalized = { b with id := Text.normalize b.id } := by
  obtain ⟨id, label, params⟩ := b
  obtain ⟨⟨p, rfl : params = some p, hparams⟩, -, hlabel⟩ := h
  have hlabel : Text.normalize label = label := hlabel
  rw [Block.normalized, hlabel, Option.map_some,
    Params.normalized_eq fun a ha => (hparams a ha).texts]

theorem Block.Readable.writes {b : Block} (h : b.Readable) : b.normalized.Writes := by
  rw [h.normalized_eq]
  exact ⟨h.params, Text.isNormal_normalize b.id, h.label⟩

/-! ## 2. Confidences -/

theorem Params.confidence?_eq_some_iff {p : Params} {x : Double} :
    p.confidence? = some x ↔ ∃ a ∈ p.arguments, a.2 = .real x := by
  cases p <;> simp [Params.confidence?, Params.arguments]

theorem Graph.mem_confidences {g : Graph} {x : Double} :
    x ∈ g.confidences ↔ ∃ b ∈ g.blocks, ∃ p ∈ b.params, ∃ a ∈ p.arguments, a.2 = .real x := by
  unfold Graph.confidences
  rw [List.mem_filterMap]
  simp only [Option.bind_eq_some_iff, Params.confidence?_eq_some_iff, Option.mem_def]

/-- A graph that reading gives and whose text tells all of it: ids and the ends of connections are
in normal form, and confidences are finite and, if they are powers of two, read back. -/
structure Graph.Lossless (g : Graph) : Prop where
  ids : ∀ b ∈ g.blocks, Text.IsNormal b.id
  ends : ∀ c ∈ g.connections, Text.IsNormal c.source ∧ Text.IsNormal c.target
  confidences : ∀ x ∈ g.confidences, x.isFinite = true ∧ (x.AtStep → x.ReadsBack)

instance (g : Graph) : Decidable g.Lossless :=
  decidable_of_iff ((∀ b ∈ g.blocks, Text.IsNormal b.id) ∧
    (∀ c ∈ g.connections, Text.IsNormal c.source ∧ Text.IsNormal c.target) ∧ ∀ x ∈ g.confidences,
    x.isFinite = true ∧ (x.AtStep → x.ReadsBack)) ⟨fun h => ⟨h.1, h.2.1, h.2.2⟩, fun h =>
    ⟨h.ids, h.ends, h.confidences⟩⟩

theorem ArgumentValue.Readable.fits {v : ArgumentValue} (h : v.Readable)
    (hfinite : ∀ x, v = .real x → x.isFinite = true) : v.Fits := by
  cases v with
  | real x =>
    rcases h with hproper | ⟨neg, rfl⟩
    · exact hproper
    · cases hfinite _ rfl
  | _ => exact h

theorem Graph.Readable.fits {g : Graph} (h : g.Readable)
    (hids : ∀ b ∈ g.blocks, Text.IsNormal b.id)
    (hends : ∀ c ∈ g.connections, Text.IsNormal c.source ∧ Text.IsNormal c.target)
    (hfinite : ∀ x ∈ g.confidences, x.isFinite = true) : g.Fits := by
  refine ⟨fun b hb => ?_, h.ids, fun c hc => ⟨(hends c hc).1, (hends c hc).2⟩⟩
  obtain ⟨⟨p, hp, hparams⟩, hid, hlabel⟩ := h.blocks b hb
  refine ⟨⟨p, hp, fun a ha => ?_⟩, ⟨hid, hids b hb⟩, hlabel⟩
  exact (hparams a ha).fits fun x hx =>
    hfinite x (Graph.mem_confidences.mpr ⟨b, hb, p, hp, a, ha, hx⟩)

/-! ## 3. Reading again -/

/-- What is read again has the ids and the connections that were written, and none of the
confidences is infinite. -/
theorem reload_tells {g h : Graph} (hg : g.Readable) {text : String}
    (htext : Document.write g = .ok text) {file : String}
    (hfile : file.endsWith Document.nativeExtension = true)
    (hread : (Document.readSource file (Text.symbolsOf text)).2 = .ok h) :
    h.blocks.map (·.id) = g.normalized.blocks.map (·.id) ∧
      h.connections = g.normalized.connections ∧ ∀ x ∈ g.confidences, x.isFinite = true := by
  have hwrites : ∀ b ∈ g.normalized.blocks, b.Writes := by
    intro b hb
    obtain ⟨c, hc, rfl⟩ := List.mem_map.mp hb
    exact (hg.blocks c hc).writes
  have hnormal : Document.write g.normalized = .ok text := by
    rw [Document.write_normalized fun b hb => ?_]
    · exact htext
    · obtain ⟨p, hp, -⟩ := (hg.blocks b hb).params
      exact ⟨p, hp⟩
  -- with a plus sign in it the text would not parse
  have hbreaks : ∀ b ∈ g.normalized.blocks, ¬b.Breaks := by
    intro b hb hbreak
    obtain ⟨content, _, hparse, -⟩ := Document.readSource_eq_ok_iff.mp hread
    obtain ⟨p, hp⟩ := Document.parse_write_breaks hwrites ⟨b, hb, hbreak⟩ hnormal hfile
    rw [hp] at hparse
    cases hparse
  obtain ⟨hids, hconnections, cs, hcs, hblocks⟩ := readSource_write
    (fun b hb => (hwrites b hb).parses (hbreaks b hb))
    (List.forall_mem_map.mpr fun c _ => c.fits_normalized) hnormal hfile hread
  refine ⟨hids, hconnections, fun x hx => ?_⟩
  obtain ⟨b, hb, p, hp, a, ha, hax⟩ := Graph.mem_confidences.mp hx
  have hreadable := hg.blocks b hb
  obtain ⟨p', hp', hparams⟩ := hreadable.params
  obtain rfl : p' = p := Option.some.inj (hp'.symm.trans hp)
  have hvalue := hparams a ha
  rw [hax] at hvalue
  rcases hvalue with hproper | ⟨neg, rfl⟩
  · exact hproper.isFinite
  · have hmem : b.normalized ∈ g.normalized.blocks := List.mem_map_of_mem hb
    have hparams : b.normalized.params = some p' := by rw [hreadable.normalized_eq, hp']
    cases neg with
    | false => exact absurd ⟨p', hparams, a, ha, hax⟩ (hbreaks _ hmem)
    | true =>
      have hkept : keptArgument a ∈ p'.kept.arguments := by
        rw [p'.arguments_kept]
        exact List.mem_map_of_mem ha
      refine absurd ?_ (Document.ne_negativeInfinity_of_readBlocks hcs hblocks _
        (List.mem_map_of_mem hmem) p'.kept ?_ _ hkept)
      · rw [keptArgument, hax]
        rfl
      · rw [Block.kept, hparams]
        rfl

/-- Whether the texts of a source are made of characters.  JSON replaces bytes that are none when it
is read; in native syntax a sequence of bytes passes for a character as soon as it has the shape of
one. -/
def Document.HasCharacters (file : String) (source : List Text.Symbol) : Prop :=
  formatOf file = .json ∨ ∀ bytes, Text.Symbol.shaped bytes ∉ source

/-- A graph that was read can be written.  If its source was made of characters, reading its text
again gives the same graph just if ids and the ends of connections are in normal form and
confidences are finite and, if they are powers of two, read back. -/
theorem read_write_read_same_iff {source : List Text.Symbol} {file out : String} {g : Graph}
    (hg : (Document.readSource file source).2 = .ok g)
    (hout : out.endsWith Document.nativeExtension = true) :
    ∃ text, Document.write g = .ok text ∧ (Document.HasCharacters file source →
      ((∃ h, (Document.readSource out (Text.symbolsOf text)).2 = .ok h ∧ h.Same g) ↔
        g.Lossless)) := by
  have hreadable := Document.readSource_readable hg
  obtain ⟨text, htext⟩ := Document.write_isOk hreadable
  -- what is read again tells the ids, the connections and that no confidence is infinite; then the
  -- text is that of a graph that fits
  refine ⟨text, htext, fun _ => ⟨?_, fun hlossless => ?_⟩⟩
  · rintro ⟨h, hread, hsame⟩
    obtain ⟨htold, hconnections, hfinite⟩ := reload_tells hreadable htext hout hread
    have hids : ∀ b ∈ g.blocks, Text.IsNormal b.id := by
      rw [hsame.ids, Graph.normalized, List.map_map, List.map_inj_left] at htold
      exact fun b hb => (htold b hb).symm
    have hends : ∀ c ∈ g.connections, Text.IsNormal c.source ∧ Text.IsNormal c.target := by
      have hnormalized : g.connections.map Connection.normalized = g.connections.map id := by
        rw [List.map_id]
        exact hconnections.symm.trans hsame.connections
      intro c hc
      have hc : c.normalized = c := List.map_inj_left.mp hnormalized c hc
      exact ⟨congrArg Connection.source hc, congrArg Connection.target hc⟩
    have hfits := hreadable.fits hids hends hfinite
    obtain ⟨text', h', hwrite, hread', hkept⟩ := write_read_kept hfits hout
    obtain rfl : text' = text := Except.ok.inj (hwrite.symm.trans htext)
    obtain rfl : h' = h := Except.ok.inj (hread'.symm.trans hread)
    have hback := (Graph.same_kept_iff hfits.blocks).mp (hkept.symm.trans hsame)
    exact ⟨hids, hends, fun x hx => ⟨hfinite x hx, hback x hx⟩⟩
  · have hfits :=
      hreadable.fits hlossless.ids hlossless.ends fun x hx => (hlossless.confidences x hx).1
    obtain ⟨text', h, hwrite, hread, hkept⟩ := write_read_kept hfits hout
    obtain rfl : text' = text := Except.ok.inj (hwrite.symm.trans htext)
    exact ⟨h, hread, hkept.trans ((Graph.same_kept_iff hfits.blocks).mpr fun x hx =>
      (hlossless.confidences x hx).2)⟩

/-- A source in JSON whose one block has a value of another type, a label that looks like the start
of a template, and an id beyond ASCII. -/
def convertedSource : String :=
  "\x7b\"block\": \x7b\"select_by_id\": \x7b\"é\": " ++
    "\x7b\"id\": true, \"label\": \"a$\x7b\"\x7d\x7d\x7d\x7d"

def convertedGraph : Graph := ⟨[⟨"é", "a$\x7b", some (.selectById "true")⟩], []⟩

/-- The body of that block. -/
def convertedBody : Config.Json.Node :=
  .object ⟨1, 62⟩
    [("id", ⟨1, 35⟩, .bool ⟨1, 45⟩ true), ("label", ⟨1, 47⟩, .text ⟨1, 61⟩ "a$\x7b")]

def convertedNode : Config.Json.Node :=
  .object ⟨1, 65⟩ [("block", ⟨1, 2⟩,
    .object ⟨1, 64⟩ [("select_by_id", ⟨1, 12⟩, .object ⟨1, 63⟩ [("é", ⟨1, 29⟩, convertedBody)])])]

/-- The tokens of texts that stand in one line, with a blank after each colon and each comma. -/
def lineTokens : Nat → List (Config.Json.TokenKind × String) → List Config.Json.Token
  | column, [] => [⟨.eof, [], ⟨⟨1, column⟩, ⟨1, column⟩⟩⟩]
  | column, (kind, text) :: rest =>
    let next := column + text.length
    ⟨kind, Text.symbolsOf text, ⟨⟨1, column⟩, ⟨1, next⟩⟩⟩ ::
      lineTokens (if kind = .colon ∨ kind = .comma then next + 1 else next) rest

/-- The source is read step by step, since sorting the arguments does not compute in the kernel. -/
theorem tokens_convertedSource :
    Config.Json.tokens (Text.symbolsOf convertedSource) = lineTokens 1
      [(.openBrace, "\x7b"), (.text, "\"block\""), (.colon, ":"),
        (.openBrace, "\x7b"), (.text, "\"select_by_id\""), (.colon, ":"),
        (.openBrace, "\x7b"), (.text, "\"é\""), (.colon, ":"),
        (.openBrace, "\x7b"), (.text, "\"id\""), (.colon, ":"), (.word, "true"), (.comma, ","),
        (.text, "\"label\""), (.colon, ":"), (.text, "\"a$\x7b\""), (.closeBrace, "\x7d"),
        (.closeBrace, "\x7d"), (.closeBrace, "\x7d"), (.closeBrace, "\x7d")] := by
  decide +kernel

theorem parse_convertedSource :
    Config.parse .json (Text.symbolsOf convertedSource) = .ok (.json convertedNode) := by
  rw [Config.parse, Config.Json.readText, tokens_convertedSource]
  with_unfolding_all rfl

theorem decodeBody_convertedBody :
    (Document.decodeBody .selectById (.json convertedBody)).2 =
      .ok ⟨"a$\x7b", .selectById "true"⟩ := by
  have harguments : (Config.Content.json convertedBody).arguments = .ok
      [⟨"id", ⟨⟨1, 35⟩, ⟨1, 45⟩⟩, .ok (.bool true)⟩,
        ⟨"label", ⟨⟨1, 47⟩, ⟨1, 61⟩⟩, .ok (.text "a$\x7b")⟩] := by
    with_unfolding_all rfl
  rw [Document.decodeBody_of_sorted harguments (by decide)]
  exact Document.eq_ok_of_toOption (by decide +kernel)

theorem readBlocks_converted :
    (Document.readBlocks [("select_by_id", "é", .json convertedBody)]).2 =
      .ok convertedGraph.blocks := by
  have hblank : Text.isBlank "é" = false := by decide +kernel
  obtain ⟨log, hdecode⟩ : ∃ log, Document.decodeBody .selectById (.json convertedBody) =
      (log, .ok ⟨"a$\x7b", .selectById "true"⟩) := ⟨_, Prod.ext rfl decodeBody_convertedBody⟩
  have hkind : Kind.ofTag? "select_by_id" = some .selectById := by decide
  simp [Document.readBlocks, Document.readBlock, hkind, hblank, hdecode, Except.map, convertedGraph]

theorem readSource_convertedSource :
    (Document.readSource "graph.hcl.json" (Text.symbolsOf convertedSource)).2 =
      .ok convertedGraph := by
  have hformat : Document.formatOf "graph.hcl.json" = .json := by decide +kernel
  refine Document.readSource_eq_ok_iff.mpr
    ⟨.json convertedNode, _, hformat ▸ parse_convertedSource, rfl, readBlocks_converted, by decide⟩

theorem convertedSource_reads_again :
    (Document.readSource "graph.hcl.json" (Text.symbolsOf convertedSource)).2 = .ok convertedGraph ∧
      ∃ text h, Document.write convertedGraph = .ok text ∧
        (Document.readSource "graph.hcl" (Text.symbolsOf text)).2 = .ok h ∧
          h.Same convertedGraph := by
  have hfile : "graph.hcl".endsWith Document.nativeExtension = true := by decide +kernel
  obtain ⟨text, hwrite, hsame⟩ := read_write_read_same_iff readSource_convertedSource hfile
  obtain ⟨h, hread', hsame⟩ := (hsame (.inl (by decide +kernel))).mpr (by decide +kernel)
  exact ⟨readSource_convertedSource, text, h, hwrite, hread', hsame⟩

/-- A source whose one block has an id of two characters, a letter and the accent that goes on
it. -/
def accentedSource : String := "block \"start\" \"e\u0301\" \x7b\n\x7d\n"

def accentedGraph : Graph := ⟨[⟨"e\u0301", "", some .start⟩], []⟩

theorem accentedSource_reads_otherwise :
    (Document.readSource "graph.hcl" (Text.symbolsOf accentedSource)).2 = .ok accentedGraph ∧
      ∃ text, Document.write accentedGraph = .ok text ∧
        ¬∃ h, (Document.readSource "graph.hcl" (Text.symbolsOf text)).2 = .ok h ∧
          h.Same accentedGraph := by
  have hread : (Document.readSource "graph.hcl" (Text.symbolsOf accentedSource)).2 =
      .ok accentedGraph := Document.eq_ok_of_toOption (by decide +kernel)
  have hfile : "graph.hcl".endsWith Document.nativeExtension = true := by decide +kernel
  have hreadable := Document.readSource_readable hread
  obtain ⟨text, hwrite⟩ := Document.write_isOk hreadable
  refine ⟨hread, text, hwrite, ?_⟩
  rintro ⟨h, hread', hsame⟩
  obtain ⟨hids, -, -⟩ := reload_tells hreadable hwrite hfile hread'
  rw [hsame.ids] at hids
  exact absurd hids (by decide +kernel)

end CypherBlocks
