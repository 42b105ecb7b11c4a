import CypherBlocks.Document.Load
import CypherBlocks.Proofs.Readable

/-!
# Graphs from several files

Loading goes through the paths, then through the files that were found, and ends with the ids of all
blocks.  It gives a graph only if nothing goes wrong on the way, and then the graph of one file
follows that of the other; the first thing that goes wrong is the error.  So graphs that were loaded
apart can be loaded together, if they have no id in common.
-/

namespace CypherBlocks

/-! ## 1. One after the other -/

section

variable {ε α β : Type} {f : α → Except ε β} {xs : List α}

theorem mapM_eq_ok_iff {ys : List β} :
    xs.mapM f = .ok ys ↔ List.Forall₂ (fun x y => f x = .ok y) xs ys := by
  induction xs generalizing ys with
  | nil =>
    rw [List.mapM_nil, List.forall₂_nil_left_iff]
    exact ⟨fun h => (Except.ok.inj h).symm, fun h => h ▸ rfl⟩
  | cons x xs ih =>
    rw [List.mapM_cons, bind_eq_ok_iff, List.forall₂_cons_left_iff]
    simp only [bind_eq_ok_iff, ih]
    constructor
    · rintro ⟨y, hy, ys', hys, h⟩
      cases h
      exact ⟨y, ys', hy, hys, rfl⟩
    · rintro ⟨y, ys', hy, hys, rfl⟩
      exact ⟨y, hy, ys', hys, rfl⟩

theorem bind_eq_error_iff {x : Except ε α} {e : ε} :
    (x >>= f) = .error e ↔ x = .error e ∨ ∃ a, x = .ok a ∧ f a = .error e := by
  cases x with
  | error e' => simp [bind, Except.bind]
  | ok a => simp [bind, Except.bind]

/-- The error is that of the first item that fails. -/
theorem mapM_eq_error_iff {e : ε} : xs.mapM f = .error e ↔
    ∃ before x after ys, xs = before ++ x :: after ∧
      List.Forall₂ (fun x y => f x = .ok y) before ys ∧ f x = .error e := by
  induction xs with
  | nil =>
    constructor
    · intro h
      cases h
    · rintro ⟨before, x, after, ys, h, -, -⟩
      simp at h
  | cons x xs ih =>
    -- the first item fails, or it passes and the failure is among the others
    have hcons : (x :: xs).mapM f = .error e ↔ f x = .error e ∨ ∃ y, f x = .ok y ∧
        xs.mapM f = .error e := by
      rw [List.mapM_cons, bind_eq_error_iff]
      simp only [bind_eq_error_iff, pure, Except.pure, reduceCtorEq, and_false,
        exists_false, or_false]
    rw [hcons, ih]
    constructor
    · rintro (hx | ⟨y, hy, before, x', after, ys, rfl, hbefore, hx'⟩)
      · exact ⟨[], x, xs, [], rfl, .nil, hx⟩
      · exact ⟨x :: before, x', after, y :: ys, rfl, .cons hy hbefore, hx'⟩
    · rintro ⟨before, x', after, ys, hxs, hbefore, hx'⟩
      cases hbefore with
      | nil =>
        cases hxs
        exact .inl hx'
      | cons hy hbefore =>
        cases hxs
        exact .inr ⟨_, hy, _, x', after, _, rfl, hbefore, hx'⟩

end

namespace Document

open Files (Entry PathError)

/-! ## 2. Files -/

/-- The graph files that are found at or below a path. -/
def Finds (top : Entry) (path : String) (files : List String) : Prop :=
  Files.find top path [nativeExtension, jsonExtension] = .ok files

/-- A file can be read, and on its own it is accepted as the source of a graph. -/
def Holds (top : Entry) (file : String) (g : Graph) : Prop :=
  ∃ bytes, Files.readFile top file = .ok bytes ∧ (readSource file (Text.symbols bytes)).2 = .ok g

/-- The graphs of several files, one after the other. -/
def merged (parts : List Graph) : Graph := ⟨parts.flatMap (·.blocks), parts.flatMap (·.connections)⟩

variable {top : Entry} {paths files : List String} {g : Graph} {e : LoadError}

theorem merged_append (parts more : List Graph) :
    merged (parts ++ more) = (merged parts).append (merged more) := by
  simp [merged, Graph.append]

theorem graphFiles_eq_mapM (top : Entry) (paths : List String) : graphFiles top paths =
    (paths.mapM fun path => (Files.find top path [nativeExtension, jsonExtension]).mapError
      (LoadError.notFound path)).map List.flatten := by
  induction paths with
  | nil => rfl
  | cons path paths ih =>
    rw [graphFiles, List.mapM_cons, ih]
    cases Files.find top path [nativeExtension, jsonExtension] with
    | error cause => rfl
    | ok found =>
      generalize (paths.mapM fun path =>
        (Files.find top path [nativeExtension, jsonExtension]).mapError (LoadError.notFound path)) =
        more
      cases more <;> rfl

theorem readGraphFiles_eq_mapM (top : Entry) (files : List String) :
    (readGraphFiles top files).2 = (files.mapM fun file =>
      (readGraphFile top file).2).map merged := by
  induction files with
  | nil => rfl
  | cons file files ih =>
    rw [readGraphFiles, List.mapM_cons]
    rcases readGraphFile top file with ⟨log, e | g⟩
    · rfl
    · dsimp only
      rw [ih]
      generalize (files.mapM fun file => (readGraphFile top file).2) = more
      cases more <;> rfl

theorem readGraphFile_snd (top : Entry) (file : String) : (readGraphFile top file).2 =
    ((Files.readFile top file).mapError (LoadError.unreadable file) >>= fun bytes =>
      (readSource file (Text.symbols bytes)).2.mapError .file) := by
  unfold readGraphFile
  cases Files.readFile top file <;> rfl

theorem load_snd (top : Entry) (paths : List String) :
    (load top paths).2 = (graphFiles top paths >>= fun files =>
    if files.isEmpty then .error (.noFiles paths)
    else (readGraphFiles top files).2 >>= checkIds) := by
  unfold load
  cases graphFiles top paths with
  | error e => rfl
  | ok files =>
    dsimp only [bind, Except.bind]
    split
    · rfl
    · cases (readGraphFiles top files).2 with
      | error e => rfl
      | ok g =>
        dsimp only
        cases checkIds g <;> rfl

theorem graphFiles_eq_ok_iff :
    graphFiles top paths = .ok files ↔ ∃ found, List.Forall₂ (Finds top) paths found ∧
      found.flatten = files := by
  simp only [graphFiles_eq_mapM, map_eq_ok_iff, mapM_eq_ok_iff, mapError_eq_ok_iff]
  rfl

theorem readGraphFile_eq_ok_iff {file : String} :
    (readGraphFile top file).2 = .ok g ↔ Holds top file g := by
  simp only [readGraphFile_snd, bind_eq_ok_iff, mapError_eq_ok_iff]
  rfl

theorem readGraphFiles_eq_ok_iff :
    (readGraphFiles top files).2 = .ok g ↔ ∃ parts, List.Forall₂ (Holds top) files parts ∧
      merged parts = g := by
  simp only [readGraphFiles_eq_mapM, map_eq_ok_iff, mapM_eq_ok_iff, readGraphFile_eq_ok_iff]

/-! ## 3. Ids -/

/-- The id that is reported is that of the first block that repeats one. -/
theorem duplicateFrom?_eq_some_iff {bs : List Block} {seen : List String} {id : String} :
    Graph.duplicateFrom? seen bs = some id ↔
    ∃ before b after, bs = before ++ b :: after ∧ (before.map (·.id)).Nodup ∧
      (∀ b' ∈ before, b'.id ∉ seen) ∧
      (b.id ∈ seen ∨ b.id ∈ before.map (·.id)) ∧ b.id = id := by
  induction bs generalizing seen with
  | nil => simp [Graph.duplicateFrom?]
  | cons a bs ih =>
    rw [Graph.duplicateFrom?, exists_split_cons_iff]
    split
    · rename_i ha
      constructor
      · intro h
        exact .inl ⟨List.nodup_nil, by simp, .inl ha, Option.some.inj h⟩
      · rintro (⟨-, -, -, rfl⟩ | ⟨before, b, after, -, -, hseen, -, -⟩)
        · rfl
        · exact absurd ha (hseen a List.mem_cons_self)
    · rename_i ha
      -- what stands before the repetition begins with this block
      rw [ih]
      constructor
      · rintro ⟨before, b, after, rfl, hnodup, hseen, hb, rfl⟩
        refine .inr ⟨before, b, after, rfl, ?_, ?_, ?_, rfl⟩
        · rw [List.map_cons, List.nodup_cons]
          refine ⟨fun hmem => ?_, hnodup⟩
          obtain ⟨b', hb', hid⟩ := List.mem_map.mp hmem
          exact hseen b' hb' (hid ▸ List.mem_cons_self)
        · intro b' hb'
          rcases List.mem_cons.mp hb' with rfl | hb'
          · exact ha
          · exact fun hmem => hseen b' hb' (List.mem_cons_of_mem _ hmem)
        · simpa [or_comm, or_left_comm, or_assoc] using hb
      · rintro (⟨-, -, hb, -⟩ | ⟨before, b, after, rfl, hnodup, hseen, hb, rfl⟩)
        · simp [ha] at hb
        · rw [List.map_cons, List.nodup_cons] at hnodup
          refine ⟨before, b, after, rfl, hnodup.2, ?_, ?_, rfl⟩
          · intro b' hb' hmem
            rcases List.mem_cons.mp hmem with hid | hmem
            · exact hnodup.1 (List.mem_map.mpr ⟨b', hb', hid⟩)
            · exact hseen b' (List.mem_cons_of_mem _ hb') hmem
          · simpa [or_comm, or_left_comm, or_assoc] using hb

theorem checkIds_eq_ok_iff {h : Graph} :
    checkIds g = .ok h ↔ (g.blocks.map (·.id)).Nodup ∧ g = h := by
  unfold checkIds
  cases hid : g.duplicateId? with
  | none =>
    have hnodup := (nodup_of_duplicateFrom? hid).1
    simp [hnodup]
  | some id =>
    simp only [reduceCtorEq, false_iff, not_and]
    intro hnodup
    rw [Graph.duplicateId?, duplicateFrom?_eq_none hnodup fun b _ => List.not_mem_nil] at hid
    cases hid

theorem checkIds_eq_error_iff :
    checkIds g = .error e ↔ ∃ before b after, g.blocks = before ++ b :: after ∧
      (before.map (·.id)).Nodup ∧
    b.id ∈ before.map (·.id) ∧ e = .duplicateId b.id := by
  have hcheck : checkIds g = .error e ↔ ∃ id, g.duplicateId? = some id ∧ e = .duplicateId id := by
    unfold checkIds
    cases g.duplicateId? <;> simp [eq_comm]
  rw [hcheck]
  simp only [Graph.duplicateId?, duplicateFrom?_eq_some_iff, List.not_mem_nil, not_false_eq_true,
    implies_true, false_or, true_and]
  constructor
  · rintro ⟨id, ⟨before, b, after, hblocks, hnodup, hb, rfl⟩, he⟩
    exact ⟨before, b, after, hblocks, hnodup, hb, he⟩
  · rintro ⟨before, b, after, hblocks, hnodup, hb, he⟩
    exact ⟨b.id, ⟨before, b, after, hblocks, hnodup, hb, rfl⟩, he⟩

/-! ## 4. Merging -/

/-- At each path the graph files `found` can be found, there is at least one, each of them holds one
of `parts`, and no two blocks share an id. -/
structure Merges (top : Entry) (paths : List String) (found : List (List String))
  (parts : List Graph) : Prop where
  walked : List.Forall₂ (Finds top) paths found
  nonempty : found.flatten ≠ []
  accepted : List.Forall₂ (Holds top) found.flatten parts
  distinct : ((merged parts).blocks.map (·.id)).Nodup

/-- What can go wrong, in the order in which it is noticed. -/
inductive LoadFails (top : Entry) (paths : List String) : LoadError → Prop
  | lost {before path after found cause} :
      paths = before ++ path :: after → List.Forall₂ (Finds top) before found →
        Files.find top path [nativeExtension, jsonExtension] = .error cause →
        LoadFails top paths (.notFound path cause)
  | nothing {found} :
      List.Forall₂ (Finds top) paths found → found.flatten = [] →
        LoadFails top paths (.noFiles paths)
  | unreadable {found before file after parts cause} :
      List.Forall₂ (Finds top) paths found → found.flatten = before ++ file :: after →
        List.Forall₂ (Holds top) before parts → Files.readFile top file = .error cause →
        LoadFails top paths (.unreadable file cause)
  | refused {found before file after parts bytes cause} :
      List.Forall₂ (Finds top) paths found → found.flatten = before ++ file :: after →
        List.Forall₂ (Holds top) before parts → Files.readFile top file = .ok bytes →
        (readSource file (Text.symbols bytes)).2 = .error cause → LoadFails top paths (.file cause)
  | repeated {found parts before b after} :
      List.Forall₂ (Finds top) paths found → List.Forall₂ (Holds top) found.flatten parts →
        (merged parts).blocks = before ++ b :: after → (before.map (·.id)).Nodup →
        b.id ∈ before.map (·.id) → LoadFails top paths (.duplicateId b.id)

theorem load_eq_ok_iff :
    (load top paths).2 = .ok g ↔ ∃ found parts, Merges top paths found parts ∧
      g = merged parts := by
  rw [load_snd, bind_eq_ok_iff]
  constructor
  · rintro ⟨files, hfiles, h⟩
    obtain ⟨found, hfound, rfl⟩ := graphFiles_eq_ok_iff.mp hfiles
    split at h
    · cases h
    · rename_i hnonempty
      obtain ⟨g', hg', hids⟩ := bind_eq_ok_iff.mp h
      obtain ⟨parts, hparts, rfl⟩ := readGraphFiles_eq_ok_iff.mp hg'
      obtain ⟨hnodup, rfl⟩ := checkIds_eq_ok_iff.mp hids
      exact ⟨found, parts, ⟨hfound, by simpa using hnonempty, hparts, hnodup⟩, rfl⟩
  · rintro ⟨found, parts, h, rfl⟩
    refine ⟨found.flatten, graphFiles_eq_ok_iff.mpr ⟨found, h.walked, rfl⟩, ?_⟩
    rw [if_neg (by simpa using h.nonempty), bind_eq_ok_iff]
    exact ⟨merged parts, readGraphFiles_eq_ok_iff.mpr ⟨parts, h.accepted, rfl⟩,
      checkIds_eq_ok_iff.mpr ⟨h.distinct, rfl⟩⟩

theorem graphFiles_eq_error_iff :
    graphFiles top paths = .error e ↔ ∃ before path after found, paths = before ++ path :: after ∧
    List.Forall₂ (Finds top) before found ∧
      ∃ cause, Files.find top path [nativeExtension, jsonExtension] = .error cause ∧
        e = .notFound path cause := by
  simp only [graphFiles_eq_mapM, map_eq_error_iff, mapM_eq_error_iff, mapError_eq_ok_iff,
    mapError_eq_error_iff]
  rfl

theorem readGraphFiles_eq_error_iff :
    (readGraphFiles top files).2 = .error e ↔ ∃ before file after parts,
      files = before ++ file :: after ∧
    List.Forall₂ (Holds top) before parts ∧
      ((∃ cause, Files.readFile top file = .error cause ∧ e = .unreadable file cause) ∨
      ∃ bytes, Files.readFile top file = .ok bytes ∧ ∃ cause,
        (readSource file (Text.symbols bytes)).2 = .error cause ∧ e = .file cause) := by
  simp only [readGraphFiles_eq_mapM, map_eq_error_iff, mapM_eq_error_iff, readGraphFile_eq_ok_iff]
  simp only [readGraphFile_snd, bind_eq_error_iff, mapError_eq_ok_iff, mapError_eq_error_iff]

theorem load_eq_error_iff : (load top paths).2 = .error e ↔ LoadFails top paths e := by
  rw [load_snd, bind_eq_error_iff, graphFiles_eq_error_iff]
  constructor
  · rintro (⟨before, path, after, found, hpaths, hbefore, cause, hcause, rfl⟩ | ⟨files, hfiles, h⟩)
    · exact .lost hpaths hbefore hcause
    · obtain ⟨found, hfound, rfl⟩ := graphFiles_eq_ok_iff.mp hfiles
      split at h
      · rename_i hempty
        cases h
        exact .nothing hfound (by simpa using hempty)
      · rcases bind_eq_error_iff.mp h with hread | ⟨g, hg, hids⟩
        · obtain ⟨before, file, after, parts, hfiles, hbefore, hcause⟩ :=
            readGraphFiles_eq_error_iff.mp hread
          rcases hcause with ⟨cause, hcause, rfl⟩ | ⟨bytes, hbytes, cause, hcause, rfl⟩
          · exact .unreadable hfound hfiles hbefore hcause
          · exact .refused hfound hfiles hbefore hbytes hcause
        · obtain ⟨parts, hparts, rfl⟩ := readGraphFiles_eq_ok_iff.mp hg
          obtain ⟨before, b, after, hblocks, hnodup, hb, rfl⟩ := checkIds_eq_error_iff.mp hids
          exact .repeated hfound hparts hblocks hnodup hb
  · -- every other step has passed when a later one fails
    intro h
    cases h with
    | lost hpaths hbefore hcause => exact .inl ⟨_, _, _, _, hpaths, hbefore, _, hcause, rfl⟩
    | nothing hfound hempty =>
      refine .inr ⟨_, graphFiles_eq_ok_iff.mpr ⟨_, hfound, rfl⟩, ?_⟩
      rw [hempty]
      rfl
    | unreadable hfound hfiles hbefore hcause =>
      refine .inr ⟨_, graphFiles_eq_ok_iff.mpr ⟨_, hfound, rfl⟩, ?_⟩
      rw [if_neg (by simp [hfiles]), bind_eq_error_iff, readGraphFiles_eq_error_iff]
      exact .inl ⟨_, _, _, _, hfiles, hbefore, .inl ⟨_, hcause, rfl⟩⟩
    | refused hfound hfiles hbefore hbytes hcause =>
      refine .inr ⟨_, graphFiles_eq_ok_iff.mpr ⟨_, hfound, rfl⟩, ?_⟩
      rw [if_neg (by simp [hfiles]), bind_eq_error_iff, readGraphFiles_eq_error_iff]
      exact .inl ⟨_, _, _, _, hfiles, hbefore, .inr ⟨_, hbytes, _, hcause, rfl⟩⟩
    | @repeated found parts _ _ _ hfound hparts hblocks hnodup hb =>
      refine .inr ⟨_, graphFiles_eq_ok_iff.mpr ⟨_, hfound, rfl⟩, ?_⟩
      have hnonempty : found.flatten ≠ [] := by
        intro hempty
        rw [hempty, List.forall₂_nil_left_iff] at hparts
        simp [hparts, merged] at hblocks
      rw [if_neg (by simpa using hnonempty), bind_eq_error_iff]
      exact .inr ⟨_, readGraphFiles_eq_ok_iff.mpr ⟨_, hparts, rfl⟩,
        checkIds_eq_error_iff.mpr ⟨_, _, _, hblocks, hnodup, hb, rfl⟩⟩

/-- Joined, the paths find the files of the first and then those of the others. -/
theorem Merges.append {more : List String} {found found' : List (List String)}
    {parts parts' : List Graph} (h : Merges top paths found parts)
    (h' : Merges top more found' parts')
    (hdisjoint : ∀ b ∈ (merged parts).blocks, ∀ b' ∈ (merged parts').blocks, b.id ≠ b'.id) :
    Merges top (paths ++ more) (found ++ found') (parts ++ parts') where
  walked := List.rel_append h.walked h'.walked
  nonempty := by
    rw [List.flatten_append]
    exact List.append_ne_nil_of_left_ne_nil h.nonempty _
  accepted := by
    rw [List.flatten_append]
    exact List.rel_append h.accepted h'.accepted
  distinct := by
    rw [merged_append, Graph.append, List.map_append, List.nodup_append]
    refine ⟨h.distinct, h'.distinct, ?_⟩
    simpa using hdisjoint

/-- The files of some paths make one graph exactly if every path can be walked, a graph file is
found, every one is accepted on its own and no id is repeated; otherwise the first thing that is
wrong is the error.  Graphs that were loaded apart and share no id are loaded together one after the
other. -/
theorem load_merges (top : Entry) (paths : List String) :
    (∀ g, (load top paths).2 = .ok g ↔ ∃ found parts, Merges top paths found parts ∧
      g = merged parts) ∧
      (∀ e, (load top paths).2 = .error e ↔ LoadFails top paths e) ∧
      ((∃ found parts, Merges top paths found parts) ↔ ¬∃ e, LoadFails top paths e) ∧
      ∀ more g h, (load top paths).2 = .ok g → (load top more).2 = .ok h →
        (∀ b ∈ g.blocks, ∀ b' ∈ h.blocks, b.id ≠ b'.id) →
        (load top (paths ++ more)).2 = .ok (g.append h) := by
  refine ⟨fun g => load_eq_ok_iff, fun e => load_eq_error_iff, ?_, ?_⟩
  · simp only [← load_eq_error_iff]
    constructor
    · rintro ⟨found, parts, h⟩ ⟨e, he⟩
      rw [load_eq_ok_iff.mpr ⟨found, parts, h, rfl⟩] at he
      cases he
    · intro h
      cases hload : (load top paths).2 with
      | error e => exact absurd ⟨e, hload⟩ h
      | ok g =>
        obtain ⟨found, parts, hmerges, -⟩ := load_eq_ok_iff.mp hload
        exact ⟨found, parts, hmerges⟩
  · intro more g h hg hh hdisjoint
    obtain ⟨found, parts, hparts, rfl⟩ := load_eq_ok_iff.mp hg
    obtain ⟨found', parts', hparts', rfl⟩ := load_eq_ok_iff.mp hh
    exact load_eq_ok_iff.mpr ⟨_, _, hparts.append hparts' hdisjoint,
      (merged_append parts parts').symm⟩

/-- A path that leads to a file with the right name finds that file alone. -/
theorem finds_of_file {path : String} {bytes : List UInt8}
    (h : Files.resolve top false path = .ok (.file bytes))
    (hname : Files.hasExtension [nativeExtension, jsonExtension] (Files.baseName path) = true) :
    Finds top path [path] := by
  simp only [Finds, Files.find, h, Files.filesAt, hname]
  rfl

end Document

/-- The bytes of a text in ASCII. -/
def bytesOf (s : String) : List UInt8 := s.toList.map fun c => c.toNat.toUInt8

def nativePart : String := "block \"start\" \"s\" \x7b\n\x7d\n"

def jsonPart : String :=
  "\x7b\"block\":\x7b\"and\":\x7b\"e\":\x7b\x7d\x7d\x7d," ++
    "\"connection\":\x7b\"s\":\x7b\"e\":\x7b\x7d\x7d\x7d\x7d"

/-- Folders with a file in each notation and one that is none of them; the connection leads from one
file to the other. -/
def splitFiles : Files.Entry :=
  .folder [("graphs", .folder [("b", .folder [("a.hcl", .file (bytesOf nativePart))]),
    ("b-2.hcl.json", .file (bytesOf jsonPart)), ("notes.txt", .file [])])]

def startGraph : Graph := ⟨[⟨"s", "", some .start⟩], []⟩

def gateGraph : Graph := ⟨[⟨"e", "", some .andGate⟩], [⟨"s", "e"⟩]⟩

def splitGraph : Graph := ⟨[⟨"s", "", some .start⟩, ⟨"e", "", some .andGate⟩], [⟨"s", "e"⟩]⟩

namespace Document

theorem holds_nativePart : Holds splitFiles "graphs/b/a.hcl" startGraph := by
  have hparts : Files.pathParts "graphs/b/a.hcl" = ["graphs", "b", "a.hcl"] := by decide +kernel
  have hfile : Files.readFile splitFiles "graphs/b/a.hcl" = .ok (bytesOf nativePart) := by
    simp [Files.readFile, Files.resolve, hparts, Files.resolveFrom, splitFiles, Files.Entry.at?,
      Files.Entry.entries]
  exact ⟨bytesOf nativePart, hfile, eq_ok_of_toOption (by decide +kernel)⟩

theorem holds_jsonPart : Holds splitFiles "graphs/b-2.hcl.json" gateGraph := by
  have hparts : Files.pathParts "graphs/b-2.hcl.json" = ["graphs", "b-2.hcl.json"] := by
    decide +kernel
  have hfile : Files.readFile splitFiles "graphs/b-2.hcl.json" = .ok (bytesOf jsonPart) := by
    simp [Files.readFile, Files.resolve, hparts, Files.resolveFrom, splitFiles, Files.Entry.at?,
      Files.Entry.entries, List.lookup_cons]
  exact ⟨bytesOf jsonPart, hfile, eq_ok_of_toOption (by decide +kernel)⟩

set_option maxRecDepth 10000 in
/-- The folder `b` comes before the file `b-2.hcl.json`. -/
theorem finds_graphs : Finds splitFiles "graphs" ["graphs/b/a.hcl", "graphs/b-2.hcl.json"] := by
  have hparts : Files.pathParts "graphs" = ["graphs"] := by decide +kernel
  have hresolve : Files.resolve splitFiles false "graphs" =
      .ok (.folder [("b", .folder [("a.hcl", .file (bytesOf nativePart))]),
        ("b-2.hcl.json", .file (bytesOf jsonPart)), ("notes.txt", .file [])]) := by
    simp [Files.resolve, hparts, Files.resolveFrom, splitFiles, Files.Entry.at?,
      Files.Entry.entries]
  -- what the files hold does not matter for the search
  have hfiles : ∀ native json, Files.filesAt [nativeExtension, jsonExtension] "graphs" "graphs"
      (.folder [("b", .folder [("a.hcl", .file native)]), ("b-2.hcl.json", .file json),
        ("notes.txt", .file [])]) = .ok ["graphs/b/a.hcl", "graphs/b-2.hcl.json"] := by
    intro native json
    have hjoin : Files.joinPath (Files.joinPath "graphs" "b") "a.hcl" = "graphs/b/a.hcl" := by
      decide +kernel
    have hjoin' : Files.joinPath "graphs" "b-2.hcl.json" = "graphs/b-2.hcl.json" := by
      decide +kernel
    have hnative : Files.hasExtension [nativeExtension, jsonExtension] "a.hcl" = true := by
      decide +kernel
    have hjson : Files.hasExtension [nativeExtension, jsonExtension] "b-2.hcl.json" = true := by
      decide +kernel
    have hnotes : Files.hasExtension [nativeExtension, jsonExtension] "notes.txt" = false := by
      decide +kernel
    simp only [Files.filesAt, Files.filesBelow, hjoin, hjoin', hnative, hjson, hnotes]
    rfl
  have hname : Files.baseName "graphs" = "graphs" := by decide +kernel
  simp only [Finds, Files.find, hresolve, hname, hfiles]
  rfl

set_option maxRecDepth 10000 in
theorem finds_nativePart : Finds splitFiles "graphs/b/a.hcl" ["graphs/b/a.hcl"] := by
  have hparts : Files.pathParts "graphs/b/a.hcl" = ["graphs", "b", "a.hcl"] := by decide +kernel
  have hresolve : Files.resolve splitFiles false "graphs/b/a.hcl" =
      .ok (.file (bytesOf nativePart)) := by
    simp [Files.resolve, hparts, Files.resolveFrom, splitFiles, Files.Entry.at?,
      Files.Entry.entries]
  exact finds_of_file hresolve (by decide +kernel)

set_option maxRecDepth 10000 in
theorem finds_jsonPart : Finds splitFiles "graphs/b-2.hcl.json" ["graphs/b-2.hcl.json"] := by
  have hparts : Files.pathParts "graphs/b-2.hcl.json" = ["graphs", "b-2.hcl.json"] := by
    decide +kernel
  have hresolve : Files.resolve splitFiles false "graphs/b-2.hcl.json" =
      .ok (.file (bytesOf jsonPart)) := by
    simp [Files.resolve, hparts, Files.resolveFrom, splitFiles, Files.Entry.at?,
      Files.Entry.entries, List.lookup_cons]
  exact finds_of_file hresolve (by decide +kernel)

/-- The files of the folder make one graph, in the order in which they are found; the connection of
the second begins at a block of the first.  So do the files alone, given in that order.  A file that
is found twice repeats its ids. -/
theorem splitFiles_merged :
    (load splitFiles ["graphs"]).2 = .ok splitGraph ∧
      (load splitFiles ["graphs/b/a.hcl"]).2 = .ok startGraph ∧
      (load splitFiles ["graphs/b-2.hcl.json"]).2 = .ok gateGraph ∧
      (load splitFiles ["graphs/b/a.hcl", "graphs/b-2.hcl.json"]).2 = .ok splitGraph ∧
      (load splitFiles ["graphs", "graphs/b/a.hcl"]).2 = .error (.duplicateId "s") := by
  have hmerges := load_merges splitFiles
  have hstart : (load splitFiles ["graphs/b/a.hcl"]).2 = .ok startGraph :=
    ((hmerges ["graphs/b/a.hcl"]).1 _).mpr ⟨[["graphs/b/a.hcl"]], [startGraph],
      ⟨.cons finds_nativePart .nil, by simp, .cons holds_nativePart .nil, by decide⟩, rfl⟩
  have hgate : (load splitFiles ["graphs/b-2.hcl.json"]).2 = .ok gateGraph :=
    ((hmerges ["graphs/b-2.hcl.json"]).1 _).mpr ⟨[["graphs/b-2.hcl.json"]], [gateGraph],
      ⟨.cons finds_jsonPart .nil, by simp, .cons holds_jsonPart .nil, by decide⟩, rfl⟩
  refine ⟨?_, hstart, hgate, (hmerges ["graphs/b/a.hcl"]).2.2.2 _ _ _ hstart hgate (by decide), ?_⟩
  · exact ((hmerges ["graphs"]).1 _).mpr ⟨[["graphs/b/a.hcl", "graphs/b-2.hcl.json"]],
      [startGraph, gateGraph],
      ⟨.cons finds_graphs .nil, by simp,
      .cons holds_nativePart (.cons holds_jsonPart .nil), by decide⟩, rfl⟩
  · have htwice : (merged [startGraph, gateGraph, startGraph]).blocks =
        splitGraph.blocks ++ ⟨"s", "", some .start⟩ :: [] := rfl
    exact ((hmerges ["graphs", "graphs/b/a.hcl"]).2.1 _).mpr (.repeated
      (.cons finds_graphs (.cons finds_nativePart .nil))
      (.cons holds_nativePart (.cons holds_jsonPart (.cons holds_nativePart .nil))) htwice
        (by decide) (by decide))

end Document

end CypherBlocks
