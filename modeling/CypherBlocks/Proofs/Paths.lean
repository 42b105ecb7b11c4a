import CypherBlocks.Files.Path
import CypherBlocks.Proofs.Texts

/-!
# Paths in shortest form

Joining a name to a path cleans the path: what is left are the ways up that nothing makes up for,
and then only names.  So the paths below a path all begin with the same parts, and after these come
the names that lead down.
-/

namespace CypherBlocks.Files

/-! ## 1. Parts of a path -/

/-- What an entry of a folder can be called. -/
structure IsName (name : String) : Prop where
  notEmpty : name ≠ ""
  notHere : name ≠ "."
  notUp : name ≠ ".."
  noSlash : '/' ∉ name.toList

theorem pathParts_noSlash (path : String) : ∀ p ∈ pathParts path, '/' ∉ p.toList := by
  intro p hp
  obtain ⟨cs, hcs, rfl⟩ := List.mem_map.mp hp
  rw [String.toList_ofList]
  exact Text.not_mem_of_mem_splitOn hcs

/-- Parts without slashes can be read off from the path that they make. -/
theorem pathParts_intercalate {parts : List String} (h : ∀ p ∈ parts, '/' ∉ p.toList)
    (hne : parts ≠ []) : pathParts (String.intercalate "/" parts) = parts := by
  have hslash : ∀ cs ∈ parts.map String.toList, '/' ∉ cs := by simpa using h
  have hsplit := List.splitOn_intercalate '/' hslash (by simpa using hne)
  rw [pathParts, String.toList_intercalate, show "/".toList = ['/'] from rfl, hsplit, List.map_map]
  simp [Function.comp_def]

/-- A path begins with a slash if its first part is empty and not the only one. -/
theorem startsWith_slash_iff {p : String} (hp : '/' ∉ p.toList) (rest : List String) :
    (String.intercalate "/" (p :: rest)).startsWith "/" = true ↔ p = "" ∧ rest ≠ [] := by
  rw [String.startsWith_string_iff, show "/".toList = ['/'] from rfl]
  -- a path of one part has no slash at all
  cases rest with
  | nil =>
    rw [String.intercalate_singleton]
    refine ⟨fun h => ?_, fun h => absurd rfl h.2⟩
    exact absurd (h.subset List.mem_cons_self) hp
  | cons q rest =>
    rw [String.intercalate_cons_cons, String.toList_append, String.toList_append]
    cases hcs : p.toList with
    | nil => simp [String.toList_eq_nil_iff.mp hcs]
    | cons c cs =>
      have hc : '/' ≠ c := by
        rintro rfl
        exact hp (hcs ▸ List.mem_cons_self)
      have hne : p ≠ "" := by
        rintro rfl
        cases hcs
      simp [hc, hne]

/-! ## 2. Cleaning -/

/-- A part of a path that leads nowhere else. -/
def isSilent (part : String) : Bool := part = "" || part = "."

/-- What is done so far, the last part first, after one more part of a path. -/
def cleanStep (done : List String) (name : String) : List String :=
  if isSilent name then done
  else if name = ".." then
    match done with
    | last :: before => if last = ".." then name :: done else before
    | [] => [name]
  else name :: done

theorem cleanParts_eq_foldl (ps done : List String) :
    cleanParts ps done = (ps.foldl cleanStep done).reverse := by
  induction ps generalizing done with
  | nil => rw [cleanParts, List.foldl_nil]
  | cons name rest ih =>
    rw [cleanParts.eq_def, List.foldl_cons, cleanStep.eq_def, isSilent]
    dsimp only
    split
    · exact ih done
    · split
      · cases done with
        | nil => exact ih [name]
        | cons last before =>
          dsimp only
          split <;> exact ih _
      · exact ih (name :: done)

theorem cleanParts_append (ps qs done : List String) :
    cleanParts (ps ++ qs) done = cleanParts qs (cleanParts ps done).reverse := by
  simp only [cleanParts_eq_foldl, List.foldl_append, List.reverse_reverse]

theorem cleanStep_of_ne {name : String} (hsilent : isSilent name = false) (hup : name ≠ "..")
    (done : List String) : cleanStep done name = name :: done := by
  simp [cleanStep, hsilent, hup]

theorem IsName.isSilent {name : String} (h : IsName name) : isSilent name = false := by
  simp [Files.isSilent, h.notEmpty, h.notHere]

theorem cleanParts_name {name : String} (h : IsName name) (done : List String) :
    cleanParts [name] done = done.reverse ++ [name] := by
  rw [cleanParts_eq_foldl, List.foldl_cons, List.foldl_nil, cleanStep_of_ne h.isSilent h.notUp,
    List.reverse_cons]

/-- Without ways up, cleaning drops the silent parts. -/
theorem cleanParts_of_not_mem {parts : List String} (h : ".." ∉ parts) (done : List String) :
    cleanParts parts done = done.reverse ++ parts.filter (!isSilent ·) := by
  rw [cleanParts_eq_foldl]
  induction parts generalizing done with
  | nil => simp
  | cons part parts ih =>
    obtain ⟨hpart, hparts⟩ := not_or.mp (mt List.mem_cons.mpr h)
    rw [List.foldl_cons, ih hparts, List.filter_cons]
    cases hsilent : isSilent part with
    | true => simp [cleanStep, hsilent]
    | false => simp [cleanStep_of_ne hsilent (Ne.symm hpart)]

/-- Parts in shortest form, the last one first: a way up comes after ways up only. -/
inductive Shortest : List String → Prop where
  | nothing : Shortest []
  | up {done : List String} (before : Shortest done) (ups : ∀ p ∈ done, p = "..") :
      Shortest (".." :: done)
  | name {done : List String} {name : String} (before : Shortest done) (isName : IsName name) :
      Shortest (name :: done)

theorem Shortest.cleanStep {done : List String} (h : Shortest done) {name : String}
    (hname : '/' ∉ name.toList) : Shortest (cleanStep done name) := by
  unfold Files.cleanStep
  split
  · exact h
  · rename_i hsilent
    simp only [isSilent, Bool.or_eq_true, decide_eq_true_eq, not_or] at hsilent
    split
    · rename_i hup
      subst hup
      cases h with
      | nothing => exact .up .nothing (by simp)
      -- one more way up
      | up before ups =>
        dsimp only
        rw [if_pos rfl]
        exact .up (.up before ups) (List.forall_mem_cons.mpr ⟨rfl, ups⟩)
      -- a folder that is left again
      | name before isName =>
        dsimp only
        rw [if_neg isName.notUp]
        exact before
    · rename_i hup
      exact .name h ⟨hsilent.1, hsilent.2, hup, hname⟩

theorem shortest_cleanParts {ps done : List String} (hps : ∀ p ∈ ps, '/' ∉ p.toList)
    (hdone : Shortest done) : Shortest (cleanParts ps done).reverse := by
  rw [cleanParts_eq_foldl, List.reverse_reverse]
  induction ps generalizing done with
  | nil => exact hdone
  | cons name rest ih =>
    obtain ⟨hname, hrest⟩ := List.forall_mem_cons.mp hps
    exact ih hrest (hdone.cleanStep hname)

/-- Nothing is to be cleaned in parts that are clean. -/
theorem Shortest.cleanParts_eq {done : List String} (h : Shortest done) :
    cleanParts done.reverse [] = done.reverse := by
  induction h with
  | nothing => rfl
  | @up done _ ups ih =>
    rw [List.reverse_cons, cleanParts_append, ih, List.reverse_reverse]
    cases done with
    | nil => rfl
    | cons p done =>
      rw [ups p List.mem_cons_self]
      simp [cleanParts]
  | name _ isName ih =>
    rw [List.reverse_cons, cleanParts_append, ih, List.reverse_reverse, cleanParts_name isName]

theorem Shortest.noSlash {done : List String} (h : Shortest done) :
    ∀ p ∈ done, p ≠ "" ∧ '/' ∉ p.toList := by
  induction h with
  | nothing => simp
  | up _ _ ih => exact List.forall_mem_cons.mpr ⟨by decide, ih⟩
  | name _ isName ih => exact List.forall_mem_cons.mpr ⟨⟨isName.notEmpty, isName.noSlash⟩, ih⟩

/-- After the ways up there are only names. -/
theorem Shortest.names {done : List String} (h : Shortest done) :
    ∀ p ∈ done.reverse.dropWhile (· = ".."), IsName p := by
  induction h with
  | nothing => simp
  | up _ ups _ =>
    rw [List.reverse_cons, List.dropWhile_eq_nil_iff.mpr (by simpa [or_imp, forall_and] using ups)]
    simp
  | @name done name _ isName ih =>
    rw [List.reverse_cons, List.dropWhile_append]
    split
    · simpa [isName.notUp] using isName
    · simpa [or_imp, forall_and] using ⟨ih, isName⟩

theorem cleanParts_names {names : List String} (h : ∀ p ∈ names, IsName p) (done : List String) :
    cleanParts names done = done.reverse ++ names := by
  induction names generalizing done with
  | nil => rw [cleanParts, List.append_nil]
  | cons name rest ih =>
    obtain ⟨hname, hrest⟩ := List.forall_mem_cons.mp h
    rw [← List.singleton_append, cleanParts_append, cleanParts_name hname, ih hrest,
      List.reverse_reverse, List.append_assoc]

/-! ## 3. Paths below a path -/

/-- The parts with which the paths below a path begin.  If the path begins at the top of all files,
so do they. -/
def stem (path : String) : List String :=
  let parts := cleanParts (pathParts path) []
  if path.startsWith "/" then "" :: parts.dropWhile (· = "..") else parts

/-- The path to a place below a path. -/
def pathBelow (path : String) (place : List String) : String := place.foldl joinPath path

variable {path name : String} {place : List String}

theorem shortest_pathParts (path : String) : Shortest (cleanParts (pathParts path) []).reverse :=
  shortest_cleanParts (pathParts_noSlash path) .nothing

theorem stem_noSlash (path : String) : ∀ p ∈ stem path, '/' ∉ p.toList := by
  have hparts : ∀ p ∈ cleanParts (pathParts path) [], '/' ∉ p.toList := by
    exact fun p hp => ((shortest_pathParts path).noSlash p (List.mem_reverse.mpr hp)).2
  unfold stem
  dsimp only
  split
  · exact List.forall_mem_cons.mpr ⟨by decide, fun p hp =>
      hparts p ((List.dropWhile_sublist _).subset hp)⟩
  · exact hparts

/-- Without ways up, the paths below a path begin with its own parts. -/
theorem stem_of_not_mem (h : ".." ∉ pathParts path) :
    stem path =
      (if path.startsWith "/" then [""] else []) ++ (pathParts path).filter (!isSilent ·) := by
  have hfirst : ((pathParts path).filter (!isSilent ·)).dropWhile (· = "..") =
      (pathParts path).filter (!isSilent ·) := by
    refine List.dropWhile_eq_self_iff.mpr fun hl hup => h ?_
    rw [← of_decide_eq_true hup]
    exact (List.mem_filter.mp (List.getElem_mem hl)).1
  unfold stem
  dsimp only
  rw [cleanParts_of_not_mem h, List.reverse_nil, List.nil_append]
  split
  · rw [hfirst, List.singleton_append]
  · rw [List.nil_append]

theorem joinPath_eq (h : IsName name) :
    joinPath path name = String.intercalate "/" (stem path ++ [name]) := by
  unfold joinPath stem
  dsimp only
  rw [cleanParts_append, cleanParts_name h, List.reverse_reverse]
  split
  · have hdrop : (cleanParts (pathParts path) [] ++ [name]).dropWhile (· = "..") =
        (cleanParts (pathParts path) []).dropWhile (· = "..") ++ [name] := by
      rw [List.dropWhile_append]
      split
      · rename_i hnone
        rw [List.isEmpty_iff.mp hnone]
        simp [h.notUp]
      · rfl
    rw [hdrop, List.cons_append, String.intercalate_cons_of_ne_nil (by simp)]
    rfl
  · rfl

theorem pathParts_joinPath (h : IsName name) :
    pathParts (joinPath path name) = stem path ++ [name] := by
  rw [joinPath_eq h]
  refine pathParts_intercalate ?_ (by simp)
  exact List.forall_mem_append.mpr ⟨stem_noSlash path, by simpa using h.noSlash⟩

theorem startsWith_joinPath (h : IsName name) :
    (joinPath path name).startsWith "/" = path.startsWith "/" := by
  have hshort : Shortest (name :: (cleanParts (pathParts path) []).reverse) :=
    .name (shortest_pathParts path) h
  rw [joinPath_eq h, Bool.eq_iff_iff, stem]
  by_cases hroot : path.startsWith "/" = true
  · rw [if_pos hroot, List.cons_append, startsWith_slash_iff (by decide)]
    simp [hroot]
  · obtain ⟨p, rest, hp⟩ : ∃ p rest, cleanParts (pathParts path) [] ++ [name] = p :: rest :=
      List.exists_cons_of_ne_nil (by simp)
    have hmem : p ∈ name :: (cleanParts (pathParts path) []).reverse := by
      rw [← List.mem_reverse, List.reverse_cons, List.reverse_reverse, hp]
      exact List.mem_cons_self
    obtain ⟨hne, hslash⟩ := hshort.noSlash p hmem
    rw [if_neg hroot, hp, startsWith_slash_iff hslash]
    simp [hne, hroot]

theorem stem_joinPath (h : IsName name) : stem (joinPath path name) = stem path ++ [name] := by
  have hshort := shortest_pathParts path
  rw [stem, pathParts_joinPath h, startsWith_joinPath h]
  unfold stem
  dsimp only
  split
  · -- from the top: the ways up are gone already
    have hnames := hshort.names
    rw [List.reverse_reverse] at hnames
    generalize (cleanParts (pathParts path) []).dropWhile (· = "..") = names at hnames
    have hall : ∀ p ∈ names ++ [name], IsName p :=
      List.forall_mem_append.mpr ⟨hnames, by simpa using h⟩
    have hclean : cleanParts ("" :: names ++ [name]) [] = names ++ [name] :=
      cleanParts_names hall []
    rw [hclean, List.cons_append]
    obtain ⟨p, rest, hp⟩ :=
      List.exists_cons_of_ne_nil
        (List.append_ne_nil_of_right_ne_nil names (List.cons_ne_nil name []))
    have hp' : p ≠ ".." := (hall p (hp ▸ List.mem_cons_self)).notUp
    rw [hp]
    simp [hp']
  · have hclean := (Shortest.name hshort h).cleanParts_eq
    rwa [List.reverse_cons, List.reverse_reverse] at hclean

theorem pathBelow_cons (path name : String) (place : List String) :
    pathBelow path (name :: place) = pathBelow (joinPath path name) place := rfl

theorem stem_pathBelow (h : ∀ name ∈ place, IsName name) :
    stem (pathBelow path place) = stem path ++ place := by
  induction place generalizing path with
  | nil => rw [List.append_nil]; rfl
  | cons name place ih =>
    obtain ⟨hname, hplace⟩ := List.forall_mem_cons.mp h
    rw [pathBelow_cons, ih hplace, stem_joinPath hname, List.append_assoc, List.singleton_append]

/-- The names that lead to a place are the last parts of its path. -/
theorem pathParts_pathBelow (h : ∀ name ∈ place, IsName name) (hne : place ≠ []) :
    pathParts (pathBelow path place) = stem path ++ place := by
  obtain ⟨before, last, rfl⟩ := (List.eq_nil_or_concat' place).resolve_left hne
  obtain ⟨hbefore, hlast⟩ := List.forall_mem_append.mp h
  have hpath : pathBelow path (before ++ [last]) = joinPath (pathBelow path before) last := by
    rw [pathBelow, List.foldl_append]
    rfl
  rw [hpath, pathParts_joinPath (hlast last List.mem_cons_self), stem_pathBelow hbefore,
    List.append_assoc]

theorem pathBelow_ne_empty (h : ∀ name ∈ place, IsName name) (hne : place ≠ []) :
    pathBelow path place ≠ "" := by
  intro hempty
  have hparts : pathParts (pathBelow path place) = stem path ++ place := pathParts_pathBelow h hne
  obtain ⟨name, hname⟩ := List.exists_mem_of_ne_nil place hne
  rw [hempty] at hparts
  have hmem : name ∈ pathParts "" := by
    rw [hparts]
    exact List.mem_append_right _ hname
  exact (h name hname).notEmpty (List.mem_singleton.mp hmem)

end CypherBlocks.Files
