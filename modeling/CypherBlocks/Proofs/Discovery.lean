import CypherBlocks.Files.Find
import CypherBlocks.Proofs.ByteOrder
import CypherBlocks.Proofs.Paths

/-!
# Finding files in a tree

A search goes down from the entry that a path leads to and gives each file and link with one of the
extensions once, in the order of their places.  Links inside the path are followed, but no link that
the search meets.  Unless the path goes up again, what it gives are paths that lead to these
entries.
-/

namespace CypherBlocks.Files

/-! ## 1. Trees -/

/-- A tree as it is kept: the names in a folder are names, and they stand in increasing order. -/
inductive Entry.WellFormed : Entry → Prop where
  | file (bytes : List UInt8) : WellFormed (.file bytes)
  | link (target : String) : WellFormed (.link target)
  | closed (asFolder : Bool) : WellFormed (.closed asFolder)
  | folder {entries : List (String × Entry)} (names : ∀ x ∈ entries, IsName x.1)
      (sorted : entries.Pairwise fun x y => x.1 < y.1) (inner : ∀ x ∈ entries, x.2.WellFormed) :
      WellFormed (.folder entries)

namespace Entry

variable {e : Entry} {es : List (String × Entry)} {name : String}

/-- What is inside an entry would make a folder. -/
theorem WellFormed.contents (h : e.WellFormed) : (Entry.folder e.entries).WellFormed := by
  cases h with
  | file | link | closed => exact .folder (by simp [entries]) .nil (by simp [entries])
  | folder names sorted inner => exact .folder names sorted inner

theorem mem_of_mem_insertEntry {x : String × Entry} (h : x ∈ insertEntry name e es) :
    x = (name, e) ∨ x ∈ es := by
  induction es with
  | nil => exact .inl (List.mem_singleton.mp h)
  | cons y rest ih =>
    obtain ⟨n, z⟩ := y
    rw [insertEntry] at h
    split at h
    · exact (List.mem_cons.mp h).imp_right (List.mem_cons_of_mem _)
    · split at h
      · exact List.mem_cons.mp h
      · rcases List.mem_cons.mp h with rfl | h
        · exact .inr List.mem_cons_self
        · exact (ih h).imp_right (List.mem_cons_of_mem _)

theorem sorted_insertEntry (h : es.Pairwise fun x y => x.1 < y.1) :
    (insertEntry name e es).Pairwise fun x y => x.1 < y.1 := by
  induction es with
  | nil => exact List.pairwise_singleton _ _
  | cons y rest ih =>
    obtain ⟨n, z⟩ := y
    obtain ⟨hfirst, hrest⟩ := List.pairwise_cons.mp h
    rw [insertEntry]
    split
    · rename_i hsame
      subst hsame
      exact List.pairwise_cons.mpr ⟨hfirst, hrest⟩
    · rename_i hother
      split
      · rename_i hlt
        exact List.pairwise_cons.mpr
          ⟨List.forall_mem_cons.mpr ⟨hlt, fun x hx => lt_trans hlt (hfirst x hx)⟩, h⟩
      · -- what comes in further back is above this name, and so is all that was there
        rename_i hge
        refine List.pairwise_cons.mpr ⟨fun x hx => ?_, ih hrest⟩
        rcases mem_of_mem_insertEntry hx with rfl | hx
        · exact lt_of_le_of_ne (not_lt.mp hge) (Ne.symm hother)
        · exact hfirst x hx

theorem WellFormed.insertEntry (h : (Entry.folder es).WellFormed) (hname : IsName name)
    (he : e.WellFormed) : (Entry.folder (insertEntry name e es)).WellFormed := by
  cases h with
  | folder names sorted inner =>
    refine .folder (fun x hx => ?_) (sorted_insertEntry sorted) (fun x hx => ?_)
    · rcases mem_of_mem_insertEntry hx with rfl | hx
      · exact hname
      · exact names x hx
    · rcases mem_of_mem_insertEntry hx with rfl | hx
      · exact he
      · exact inner x hx

/-- In a folder without repeated names, each entry is found by its name. -/
theorem lookup_eq_some_iff (h : es.Pairwise fun x y => x.1 < y.1) {x : Entry} :
    es.lookup name = some x ↔ (name, x) ∈ es := by
  constructor
  · intro hlookup
    obtain ⟨before, after, rfl, -⟩ := List.lookup_eq_some_iff.mp hlookup
    simp
  · intro hmem
    obtain ⟨before, after, rfl⟩ := List.append_of_mem hmem
    refine List.lookup_eq_some_iff.mpr ⟨before, after, rfl, fun y hy => ?_⟩
    have hlt := (List.pairwise_append.mp h).2.2 y hy (name, x) List.mem_cons_self
    simpa using (ne_of_lt hlt).symm

theorem WellFormed.of_lookup (h : e.WellFormed) {x : Entry} (hx : e.entries.lookup name = some x) :
    IsName name ∧ x.WellFormed := by
  cases h.contents with
  | folder names sorted inner =>
    have hmem := (lookup_eq_some_iff sorted).mp hx
    exact ⟨names _ hmem, inner _ hmem⟩

theorem WellFormed.insertAt {place : List String} {old : Entry}
    (hplace : ∀ name ∈ place, IsName name) (he : e.WellFormed) (hold : old.WellFormed) :
    (Entry.insertAt place e old).WellFormed := by
  induction place generalizing old with
  | nil =>
    rw [Entry.insertAt]
    split
    · exact hold
    · exact he
  | cons name rest ih =>
    obtain ⟨hname, hrest⟩ := List.forall_mem_cons.mp hplace
    rw [Entry.insertAt]
    refine hold.contents.insertEntry hname (ih hrest ?_)
    cases hlookup : old.entries.lookup name with
    | none => exact .folder (by simp) .nil (by simp)
    | some x => exact (hold.of_lookup hlookup).2

/-- A tree that is made from entries at some paths is as it should be. -/
theorem wellFormed_ofPaths {files : List (String × Entry)} (h : ∀ f ∈ files, f.2.WellFormed) :
    (ofPaths files).WellFormed := by
  have hall : ∀ top : Entry, top.WellFormed →
      (files.foldl (fun top f => Entry.insertAt (placeOf f.1) f.2 top) top).WellFormed := by
    induction files with
    | nil => exact fun top htop => htop
    | cons f files ih =>
      obtain ⟨hf, hfiles⟩ := List.forall_mem_cons.mp h
      refine fun top htop => ih hfiles _ (WellFormed.insertAt ?_ hf htop)
      have hnames := (shortest_pathParts f.1).names
      rwa [List.reverse_reverse] at hnames
  exact hall _ (.folder (by simp) .nil (by simp))

theorem at?_append (e : Entry) (place more : List String) :
    e.at? (place ++ more) = (e.at? place).bind (·.at? more) := by
  induction place generalizing e with
  | nil => rfl
  | cons name place ih =>
    rw [List.cons_append, at?, at?]
    cases e.entries.lookup name with
    | none => rfl
    | some x => exact ih x

/-- An entry inside a tree is as it should be, and so are the names that lead to it. -/
theorem WellFormed.inside {place : List String} {x : Entry} (h : e.WellFormed)
    (hx : e.at? place = some x) : x.WellFormed ∧ ∀ name ∈ place, IsName name := by
  induction place generalizing e with
  | nil =>
    cases hx
    exact ⟨h, by simp⟩
  | cons name place ih =>
    rw [at?] at hx
    split at hx
    · rename_i inner hinner
      obtain ⟨hname, hwellFormed⟩ := h.of_lookup hinner
      obtain ⟨hx, hplace⟩ := ih hwellFormed hx
      exact ⟨hx, List.forall_mem_cons.mpr ⟨hname, hplace⟩⟩
    · cases hx

end Entry

/-! ## 2. Places -/

/-- Whether an entry is a folder that can be looked into. -/
def Entry.isOpen : Entry → Bool
  | .folder _ => true
  | _ => false

mutual

/-- The places of the entries that are wanted at or below an entry; open folders are none of
them. -/
def placesAt (wanted : String → Entry → Bool) (name : String) : Entry → List (List String)
  | .folder entries => placesBelow wanted entries
  | .file bytes => if wanted name (.file bytes) then [[]] else []
  | .link target => if wanted name (.link target) then [[]] else []
  | .closed asFolder => if wanted name (.closed asFolder) then [[]] else []

def placesBelow (wanted : String → Entry → Bool) : List (String × Entry) → List (List String)
  | [] => []
  | (name, e) :: rest => (placesAt wanted name e).map (name :: ·) ++ placesBelow wanted rest

end

/-- Files and links with one of the extensions. -/
def isListed (extensions : List String) (name : String) (e : Entry) : Bool :=
  !e.isFolder && hasExtension extensions name

/-- Folders that may not be opened. -/
def isBarred (_ : String) (e : Entry) : Bool := e.isFolder && !e.isOpen

theorem isBarred_iff {name : String} {e : Entry} : isBarred name e = true ↔ e = .closed true := by
  cases e with
  | closed asFolder => cases asFolder <;> simp [isBarred, Entry.isFolder, Entry.isOpen]
  | _ => simp [isBarred, Entry.isFolder, Entry.isOpen]

variable {extensions : List String} {wanted : String → Entry → Bool} {e : Entry}

/-- What a search gives, told from the places of the folders that bar it and of what it lists. -/
def searched (path : String) (barred listed : List (List String)) :
    Except PathError (List String) :=
  match barred.head? with
  | some place => .error ⟨"open", pathBelow path place, .notPermitted⟩
  | none => .ok (listed.map (pathBelow path))

theorem searched_append (path name : String) (barred barred' listed listed' : List (List String)) :
    searched path (barred.map (name :: ·) ++ barred') (listed.map (name :: ·) ++ listed') =
      (do
        let files ← searched (joinPath path name) barred listed
        return files ++ (← searched path barred' listed')) := by
  cases barred with
  | nil =>
    cases barred' with
    | nil =>
      simp only [searched, List.map_nil, List.append_nil, List.head?_nil,
        List.map_append, List.map_map]
      rfl
    | cons place rest => rfl
  | cons place rest => rfl

mutual

/-- A search ends at the first folder that bars it, or it gives the paths to what it lists. -/
theorem filesAt_eq_searched (path name : String) : ∀ e, filesAt extensions path name e =
    searched path (placesAt isBarred name e) (placesAt (isListed extensions) name e)
  | .folder entries => filesBelow_eq_searched path entries
  | .file _ | .link _ | .closed false => by
    simp only [filesAt, placesAt, isListed, isBarred, Entry.isFolder, Entry.isOpen, Bool.false_and,
      Bool.not_false, Bool.true_and, Bool.false_eq_true, if_false]
    split <;> rfl
  | .closed true => rfl

theorem filesBelow_eq_searched (path : String) : ∀ es, filesBelow extensions path es =
    searched path (placesBelow isBarred es) (placesBelow (isListed extensions) es)
  | [] => rfl
  | (name, e) :: rest => by
    rw [filesBelow, placesBelow, placesBelow, searched_append, filesAt_eq_searched,
      filesBelow_eq_searched]

end

theorem mem_placesBelow_iff {es : List (String × Entry)} {place : List String} :
    place ∈ placesBelow wanted es ↔ ∃ x ∈ es, ∃ rest ∈ placesAt wanted x.1 x.2,
      place = x.1 :: rest := by
  induction es with
  | nil => simp [placesBelow]
  | cons x es ih =>
    obtain ⟨name, e⟩ := x
    rw [placesBelow, List.mem_append, ih, List.exists_mem_cons_iff]
    simp only [List.mem_map, eq_comm]

/-- Only the entry itself is at or below one that is no open folder. -/
theorem Entry.at?_eq_some_iff (h : e.isOpen = false) {place : List String} {x : Entry} :
    e.at? place = some x ↔ place = [] ∧ e = x := by
  have hnone : e.entries = [] := by
    cases e with
    | folder => cases h
    | file | link | closed => rfl
  cases place with
  | nil => simp [Entry.at?]
  | cons name place => simp [Entry.at?, hnone]

theorem mem_placesAt_of_not_open (h : e.isOpen = false) (name : String) (place : List String) :
    place ∈ placesAt wanted name e ↔
      ∃ x, e.at? place = some x ∧ x.isOpen = false ∧ wanted (place.getLastD name) x = true := by
  have hplaces : placesAt wanted name e = if wanted name e then [[]] else [] := by
    cases e with
    | folder => cases h
    | file | link | closed => rfl
  simp only [hplaces, Entry.at?_eq_some_iff h]
  constructor
  · intro hplace
    split at hplace
    · rename_i hwanted
      cases List.mem_singleton.mp hplace
      exact ⟨e, ⟨rfl, rfl⟩, h, hwanted⟩
    · cases hplace
  · rintro ⟨x, ⟨rfl, rfl⟩, -, hwanted⟩
    rw [List.getLastD_nil] at hwanted
    rw [if_pos hwanted]
    exact List.mem_singleton_self _

/-- The places that are listed are those of the entries that are wanted and no open folders. -/
theorem Entry.WellFormed.mem_placesAt_iff (h : e.WellFormed) (name : String) (place : List String) :
    place ∈ placesAt wanted name e ↔
      ∃ x, e.at? place = some x ∧ x.isOpen = false ∧ wanted (place.getLastD name) x = true := by
  induction h generalizing name place with
  | file | link | closed => exact mem_placesAt_of_not_open rfl name place
  | @folder es names sorted inner ih =>
    rw [placesAt, mem_placesBelow_iff]
    cases place with
    | nil => simp [Entry.at?, Entry.isOpen]
    | cons first rest =>
      -- the names in a folder are sorted, so that looking one up finds the entry that the list has
      have hat : ∀ x, (Entry.folder es).at? (first :: rest) = some x ↔
          ∃ inner, (first, inner) ∈ es ∧ inner.at? rest = some x := by
        intro x
        rw [Entry.at?]
        constructor
        · intro hx
          split at hx
          · rename_i inner hinner
            exact ⟨inner, (Entry.lookup_eq_some_iff sorted).mp hinner, hx⟩
          · cases hx
        · rintro ⟨inner, hmem, hx⟩
          have hlookup : (Entry.folder es).entries.lookup first = some inner :=
            (Entry.lookup_eq_some_iff sorted).mpr hmem
          rw [hlookup]
          exact hx
      simp only [hat, List.getLastD_cons]
      constructor
      · rintro ⟨y, hy, rest', hrest, heq⟩
        cases heq
        obtain ⟨x, hx, hfile⟩ := (ih y hy _ _).mp hrest
        exact ⟨x, ⟨y.2, hy, hx⟩, hfile⟩
      · rintro ⟨x, ⟨inner, hmem, hx⟩, hfile⟩
        exact ⟨(first, inner), hmem, rest, (ih _ hmem _ _).mpr ⟨x, hx, hfile⟩, rfl⟩

theorem Entry.WellFormed.mem_barred_iff (h : e.WellFormed) (name : String) (place : List String) :
    place ∈ placesAt isBarred name e ↔ e.at? place = some (.closed true) := by
  simp only [h.mem_placesAt_iff, isBarred_iff]
  constructor
  · rintro ⟨x, hx, -, rfl⟩
    exact hx
  · exact fun hx => ⟨_, hx, rfl, rfl⟩

theorem Entry.WellFormed.mem_listed_iff (h : e.WellFormed) (name : String) (place : List String) :
    place ∈ placesAt (isListed extensions) name e ↔
      ∃ x, e.at? place = some x ∧ x.isFolder = false ∧
        hasExtension extensions (place.getLastD name) = true := by
  have hopen : ∀ x : Entry, x.isFolder = false → x.isOpen = false := by
    intro x hx
    cases x with
    | folder => cases hx
    | file | link | closed => rfl
  simp only [h.mem_placesAt_iff, isListed, Bool.and_eq_true, Bool.not_eq_true']
  constructor
  · rintro ⟨x, hx, -, hfile⟩
    exact ⟨x, hx, hfile⟩
  · rintro ⟨x, hx, hfile⟩
    exact ⟨x, hx, hopen x hfile.1, hfile⟩

/-- The places are listed in increasing order. -/
theorem Entry.WellFormed.sorted_placesAt (h : e.WellFormed) (name : String) :
    (placesAt wanted name e).Pairwise (· < ·) := by
  induction h generalizing name with
  | file | link | closed =>
    rw [placesAt]
    split <;> simp
  | @folder es names sorted inner ih =>
    rw [placesAt]
    clear names inner
    induction es with
    | nil => exact .nil
    | cons x es ihes =>
      obtain ⟨first, e⟩ := x
      obtain ⟨he, hes⟩ := List.forall_mem_cons.mp ih
      obtain ⟨hfirst, hsorted⟩ := List.pairwise_cons.mp sorted
      rw [placesBelow, List.pairwise_append, List.pairwise_map]
      refine ⟨(he first).imp fun hlt => List.cons_lt_cons_iff.mpr (.inr ⟨rfl, hlt⟩),
        ihes hsorted hes, fun p hp q hq => ?_⟩
      obtain ⟨p', -, rfl⟩ := List.mem_map.mp hp
      obtain ⟨y, hy, q', -, rfl⟩ := mem_placesBelow_iff.mp hq
      exact List.cons_lt_cons_iff.mpr (.inl (hfirst y hy))

/-! ## 3. Where paths lead -/

variable {top : Entry} {followLast : Bool} {links : Nat} {place parts : List String}

theorem wellFormed_of_resolve (h : top.WellFormed) {path : String}
    (he : resolve top followLast path = .ok e) : e.WellFormed := by
  have hfrom : ∀ links place parts, resolveFrom top followLast links place parts = .ok e →
      e.WellFormed := by
    intro links place parts hok
    -- a walk ends at a place of the tree, or at a file or a link on its way
    fun_induction resolveFrom top followLast links place parts with
    | case1 | case2 =>
      split at hok
      · rename_i hat
        cases hok
        exact (h.inside hat).1
      · cases hok
    | case3 _ _ _ _ _ ih | case4 _ _ _ _ ih | case6 _ _ _ _ _ _ _ _ ih
    | case15 _ _ _ _ _ _ _ _ _ _ ih => exact ih hok
    | case7 =>
      cases hok
      exact .file _
    | case9 | case11 =>
      cases hok
      exact .closed _
    | case13 =>
      cases hok
      exact .link _
    | case5 | case8 | case10 | case12 | case14 => cases hok
  unfold resolve at he
  split at he
  · cases he
  · exact hfrom _ _ _ he

theorem resolveFrom_silent {part : String} (h : isSilent part = true) (rest : List String) :
    resolveFrom top followLast links place (part :: rest) =
      resolveFrom top followLast links place rest := by
  rw [resolveFrom]
  exact if_pos h

/-- A silent part changes nothing, unless nothing but slashes follows. -/
theorem resolveFrom_insert_silent {part : String} (hpart : isSilent part = true)
    {tail : List String} (htail : tail.all (·.isEmpty) = false) (place front : List String) :
    resolveFrom top followLast links place (front ++ part :: tail) =
      resolveFrom top followLast links place (front ++ tail) := by
  -- a link that is followed puts its parts in front, but then there is one link less to follow
  induction links using Nat.strong_induction_on generalizing place front with
  | _ links ihlinks =>
    induction front generalizing place with
    | nil => exact resolveFrom_silent hpart tail
    | cons name front ih =>
      have htail' : tail ≠ [] := by
        rintro rfl
        cases htail
      have hmore : (front ++ tail).isEmpty = false := by simp [htail']
      have hnamed : (front ++ tail).all (·.isEmpty) = false := by
        rw [List.all_append, htail, Bool.and_false]
      have hnamed' : (front ++ part :: tail).all (·.isEmpty) = false := by
        rw [List.all_append, List.all_cons, htail, Bool.and_false, Bool.and_false]
      have hlink : ∀ n < links, ∀ start target,
          resolveFrom top followLast n start (pathParts target ++ (front ++ part :: tail)) =
            resolveFrom top followLast n start (pathParts target ++ (front ++ tail)) := by
        intro n hn start target
        rw [← List.append_assoc, ihlinks n hn, List.append_assoc]
      rw [List.cons_append, List.cons_append, resolveFrom, resolveFrom]
      simp only [hnamed, hnamed']
      cases links with
      | zero => simp [ih, hmore]
      | succ n => simp [ih, hmore, hlink n (Nat.lt_succ_self n)]

theorem resolveFrom_drop_silent {tail : List String} (htail : tail.all (·.isEmpty) = false)
    (place parts front : List String) :
    resolveFrom top followLast links place (front ++ (parts.filter (!isSilent ·) ++ tail)) =
      resolveFrom top followLast links place (front ++ (parts ++ tail)) := by
  induction parts generalizing front with
  | nil => rfl
  | cons part parts ih =>
    rw [List.filter_cons]
    cases hsilent : isSilent part with
    | true =>
      have hmore : (parts ++ tail).all (·.isEmpty) = false := by
        rw [List.all_append, htail, Bool.and_false]
      rw [List.cons_append, resolveFrom_insert_silent hsilent hmore]
      exact ih front
    | false =>
      have hih := ih (front ++ [part])
      rw [List.append_assoc, List.append_assoc] at hih
      exact hih

/-- From a folder that a path leads to, the path goes on as from its place. -/
theorem resolveFrom_append {es : List (String × Entry)}
    (h : resolveFrom top false links place parts = .ok (.folder es)) {more : List String}
    (hmore : more ≠ []) : ∃ links' place', top.at? place'.reverse = some (.folder es) ∧
      resolveFrom top false links place (parts ++ more) = resolveFrom top false links'
        place' more := by
  generalize hlast : false = followLast at h ⊢
  -- each step goes the same way with more parts to come, and where the path ends the others begin
  fun_induction resolveFrom top followLast links place parts with
  | case1 links place | case2 links place =>
    split at h
    · rename_i hat
      cases h
      exact ⟨links, place, hat, rfl⟩
    · cases h
  | case3 links place name rest hsilent ih =>
    obtain ⟨links', place', hat, hrest⟩ := ih h
    exact ⟨links', place', hat, (resolveFrom_silent hsilent _).trans hrest⟩
  | case4 links place rest _ ih =>
    obtain ⟨links', place', hat, hrest⟩ := ih h
    refine ⟨links', place', hat, ?_⟩
    rw [List.cons_append, resolveFrom, ← hrest]
    rfl
  | case6 links place name rest hsilent hup es' hfolder ih =>
    obtain ⟨links', place', hat, hrest⟩ := ih h
    refine ⟨links', place', hat, ?_⟩
    rw [List.cons_append, resolveFrom, if_neg hsilent, if_neg hup, hfolder, ← hrest]
  | case15 place name rest hsilent hup target hlink hfollow links start ih =>
    obtain ⟨links', place', hat, hrest⟩ := ih h
    refine ⟨links', place', hat, ?_⟩
    -- only a link at the very end may stay as it is, and with more to come none is at the end
    have hnotLast : (rest ++ more).isEmpty = false := by simp [hmore]
    rw [List.cons_append, resolveFrom, if_neg hsilent, if_neg hup, hlink, ← hrest,
      List.append_assoc]
    simp [hnotLast, start]
  | case5 | case7 | case8 | case9 | case10 | case11 | case12 | case13 | case14 => cases h

/-- From a place in a tree, names lead down without following a link. -/
theorem resolveFrom_names {names : List String} {x : Entry}
    (hplace : top.at? place.reverse = some e) (he : e.WellFormed) (hx : e.at? names = some x) :
    resolveFrom top false links place names = .ok x := by
  induction names generalizing place e with
  | nil =>
    cases hx
    rw [resolveFrom, hplace]
  | cons name names ih =>
    have hname := (he.inside hx).2 name List.mem_cons_self
    rw [Entry.at?] at hx
    split at hx
    · rename_i inner hinner
      have hat : top.at? (name :: place).reverse = some inner := by
        rw [List.reverse_cons, Entry.at?_append, hplace]
        simp [Entry.at?, hinner]
      rw [resolveFrom, hat]
      simp only [hname.notEmpty, hname.notHere, hname.notUp, decide_false, Bool.or_self,
        Bool.false_eq_true, if_false]
      -- what is no open folder can only be the last name, and the last one is not followed
      cases inner with
      | folder es => exact ih hat (he.of_lookup hinner).2 hx
      | file | link =>
        obtain ⟨rfl, rfl⟩ := (Entry.at?_eq_some_iff rfl).mp hx
        rfl
      | closed asFolder =>
        obtain ⟨rfl, rfl⟩ := (Entry.at?_eq_some_iff rfl).mp hx
        cases asFolder <;> rfl
    · cases hx

/-- Unless a path goes up, the paths below it lead to the entries below the one that it leads to. -/
theorem resolve_pathBelow (h : top.WellFormed) {root : String}
    (hroot : resolve top false root = .ok e) (hup : ".." ∉ pathParts root) {place : List String}
    {x : Entry} (hx : e.at? place = some x) : resolve top false (pathBelow root place) = .ok x := by
  have he := wellFormed_of_resolve h hroot
  obtain ⟨-, hnames⟩ := he.inside hx
  by_cases hplace : place = []
  · subst hplace
    cases hx
    exact hroot
  -- something is below the entry, so it is a folder
  · cases e with
    | file | link | closed => exact absurd ((Entry.at?_eq_some_iff rfl).mp hx).1 hplace
    | folder es =>
      have hparts : pathParts (pathBelow root place) = stem root ++ place :=
        pathParts_pathBelow hnames hplace
      unfold resolve at hroot ⊢
      split at hroot
      · cases hroot
      · have hnamed : place.all (·.isEmpty) = false := by
          obtain ⟨name, rest, rfl⟩ := List.exists_cons_of_ne_nil hplace
          have hname := (hnames name List.mem_cons_self).notEmpty
          rw [List.all_cons, Bool.and_eq_false_iff]
          exact .inl (String.isEmpty_eq_false_iff.mpr hname)
        obtain ⟨links', place', hat, hgoesOn⟩ := resolveFrom_append hroot hplace
        have hstem : resolveFrom top false mostLinks [] (stem root ++ place) =
            resolveFrom top false mostLinks [] (pathParts root ++ place) := by
          rw [stem_of_not_mem hup, List.append_assoc, resolveFrom_drop_silent hnamed]
          split
          · exact resolveFrom_silent rfl _
          · rfl
        rw [if_neg (by simpa using pathBelow_ne_empty hnames hplace), hparts, hstem, hgoesOn]
        exact resolveFrom_names hat he hx

/-! ## 4. What is found -/

theorem hasExtension_iff {name : String} :
    hasExtension extensions name = true ↔ ∃ extension ∈ extensions,
      extension.toList <:+ name.toList := by
  simp only [hasExtension, List.any_eq_true, ← String.endsWith_toSlice,
    String.Slice.endsWith_string_iff, String.copy_toSlice]

theorem pathBelow_lt {root : String} {p q : List String} (hp : ∀ name ∈ p, IsName name)
    (hq : ∀ name ∈ q, IsName name) (hpne : p ≠ []) (hqne : q ≠ []) (h : p < q) :
    (pathParts (pathBelow root p)).map Text.bytes < (pathParts (pathBelow root q)).map
      Text.bytes := by
  rw [pathParts_pathBelow hp hpne, pathParts_pathBelow hq hqne]
  exact List.map_lt (fun _ _ hlt => Text.bytes_lt_iff.mpr hlt) (List.append_left_lt h)

/-- The paths of what is listed are in the order of the bytes of their parts. -/
theorem Entry.WellFormed.sorted_paths (h : e.WellFormed) (root : String) :
    ((placesAt (isListed extensions) (baseName root) e).map (pathBelow root)).Pairwise
      (fun p q => (pathParts p).map Text.bytes < (pathParts q).map Text.bytes) := by
  rw [List.pairwise_map]
  refine (h.sorted_placesAt _).imp_of_mem fun {p q} hp hq hlt => ?_
  obtain ⟨x, hx, hopen, -⟩ := (h.mem_placesAt_iff _ _).mp hp
  obtain ⟨y, hy, -, -⟩ := (h.mem_placesAt_iff _ _).mp hq
  refine pathBelow_lt (h.inside hx).2 (h.inside hy).2 ?_ ?_ hlt
  · -- nothing is below an entry that is no open folder
    rintro rfl
    cases hx
    rw [((Entry.at?_eq_some_iff hopen).mp hy).1] at hlt
    exact List.lt_irrefl _ hlt
  · rintro rfl
    exact List.not_lt_nil _ hlt

theorem find_eq_searched {root : String} (hroot : resolve top false root = .ok e)
    (hne : extensions ≠ []) :
    find top root extensions = (searched root (placesAt isBarred (baseName root) e)
      (placesAt (isListed extensions) (baseName root) e)).mapError .path := by
  rw [find, if_neg (by simpa using hne), hroot, ← filesAt_eq_searched]

/-- What is found at or below the entry that a path leads to.  If every folder there can be opened,
each file or link whose name has one of the extensions is found once, and the paths are in the order
of the bytes of their parts; if the path does not go up, they lead to these entries.  Otherwise the
first folder that cannot be opened is the error. -/
theorem find_lists_files (h : top.WellFormed) {root : String}
    (hroot : resolve top false root = .ok e) (hne : extensions ≠ []) :
    ((∀ place, e.at? place ≠ some (.closed true)) →
      ∃ places : List (List String), find top root extensions = .ok (places.map (pathBelow root)) ∧
        places.Nodup ∧
        (∀ place, place ∈ places ↔ ∃ x, e.at? place = some x ∧ x.isFolder = false ∧
          ∃ extension ∈ extensions, extension.toList <:+ (place.getLastD (baseName root)).toList) ∧
        (places.map (pathBelow root)).Pairwise
          (fun p q => (pathParts p).map Text.bytes < (pathParts q).map Text.bytes) ∧
        (".." ∉ pathParts root →
          ∀ place x, e.at? place = some x → resolve top false (pathBelow root place) = .ok x)) ∧
      ((∃ place, e.at? place = some (.closed true)) →
        ∃ first, e.at? first = some (.closed true) ∧
          (∀ place, e.at? place = some (.closed true) → ¬ place < first) ∧
          find top root extensions =
            .error (.path ⟨"open", pathBelow root first, .notPermitted⟩)) := by
  -- the search fails at the first barred folder, and without one it lists all places
  have he := wellFormed_of_resolve h hroot
  have hbarred := he.mem_barred_iff (baseName root)
  have hfind := find_eq_searched hroot hne
  constructor
  · intro hopen
    have hnone : placesAt isBarred (baseName root) e = [] :=
      List.eq_nil_iff_forall_not_mem.mpr fun place hplace => hopen place ((hbarred place).mp hplace)
    rw [hnone] at hfind
    refine ⟨placesAt (isListed extensions) (baseName root) e, hfind, ?_, ?_,
      he.sorted_paths root, ?_⟩
    · exact (he.sorted_placesAt _).imp fun hlt heq => absurd (heq ▸ hlt) (List.lt_irrefl _)
    · intro place
      rw [he.mem_listed_iff]
      simp only [hasExtension_iff]
    · exact fun hup place x hx => resolve_pathBelow h hroot hup hx
  · rintro ⟨place, hplace⟩
    obtain ⟨first, rest, hsome⟩ := List.exists_cons_of_ne_nil
      (List.ne_nil_of_mem ((hbarred place).mpr hplace))
    have hsorted : (first :: rest).Pairwise (· < ·) := hsome ▸ he.sorted_placesAt (baseName root)
    simp only [hsome] at hbarred hfind
    refine ⟨first, (hbarred first).mp List.mem_cons_self, fun other hother => ?_, hfind⟩
    rcases List.mem_cons.mp ((hbarred other).mpr hother) with rfl | hlater
    · exact List.lt_irrefl _
    · exact List.lt_asymm ((List.pairwise_cons.mp hsorted).1 other hlater)

/-- Names that begin alike, a folder with an extension, and a link to a folder. -/
def tangledFiles : Entry :=
  .ofPaths [("g/nested.hcl/c.json", .file []), ("g/nested-2/a.hcl.json", .file []),
    ("g/./nested//b.hcl", .file []), ("g/l.hcl", .link "nested"), ("g/notes.txt", .file [])]

set_option maxRecDepth 10000 in
theorem resolve_tangledFiles : resolve tangledFiles false "./g" =
    .ok (.folder [("l.hcl", .link "nested"), ("nested", .folder [("b.hcl", .file [])]),
      ("nested-2", .folder [("a.hcl.json", .file [])]),
      ("nested.hcl", .folder [("c.json", .file [])]), ("notes.txt", .file [])]) := by
  have hparts : pathParts "./g" = [".", "g"] := by decide +kernel
  have htree : tangledFiles =
      .folder [("g", .folder [("l.hcl", .link "nested"), ("nested", .folder [("b.hcl", .file [])]),
      ("nested-2", .folder [("a.hcl.json", .file [])]),
      ("nested.hcl", .folder [("c.json", .file [])]), ("notes.txt", .file [])])] := rfl
  simp [resolve, hparts, resolveFrom, htree, Entry.at?, Entry.entries]

/-- Two folders and a file that may not be opened. -/
def barredFiles : Entry := .folder [("g", .folder
  [("a.hcl", .closed false), ("b", .closed true), ("c", .folder [("d", .closed true)])])]

theorem find_barredFiles :
    find barredFiles "g" [".hcl"] = .error (.path ⟨"open", "g/b", .notPermitted⟩) := by
  have hparts : pathParts "g" = ["g"] := by decide +kernel
  have hpath : pathBelow "g" ["b"] = "g/b" := by decide +kernel
  have hresolve : resolve barredFiles false "g" =
      .ok (.folder [("a.hcl", .closed false), ("b", .closed true),
        ("c", .folder [("d", .closed true)])]) := by
    simp [resolve, hparts, resolveFrom, barredFiles, Entry.at?, Entry.entries]
  rw [find_eq_searched hresolve (by simp), ← hpath]
  rfl

/-- The order is not that of the texts of the paths: `nested` comes before `nested-2`.  The link is
given and not followed.  What is found before a folder that cannot be opened is not given. -/
theorem tangledFiles_listed :
    find barredFiles "g" [".hcl"] = .error (.path ⟨"open", "g/b", .notPermitted⟩) ∧
      tangledFiles.WellFormed ∧ ".." ∉ pathParts "./g" ∧
      ∃ paths, find tangledFiles "./g" [".json", ".hcl", ".hcl.json"] = .ok paths ∧
        paths = ["g/l.hcl", "g/nested/b.hcl", "g/nested-2/a.hcl.json", "g/nested.hcl/c.json"] ∧
        paths.Pairwise (fun p q => (pathParts p).map Text.bytes < (pathParts q).map Text.bytes) ∧
        resolve tangledFiles false "g/l.hcl" = .ok (.link "nested") := by
  have hwellFormed : tangledFiles.WellFormed := by
    apply Entry.wellFormed_ofPaths
    simp only [List.forall_mem_cons, List.not_mem_nil, false_implies, implies_true, and_true]
    exact ⟨.file _, .file _, .file _, .link _, .file _⟩
  have hup : ".." ∉ pathParts "./g" := by decide +kernel
  have hpath : pathBelow "./g" ["l.hcl"] = "g/l.hcl" := by decide +kernel
  have hopen := (wellFormed_of_resolve hwellFormed resolve_tangledFiles).mem_barred_iff "g"
  have hne : [".json", ".hcl", ".hcl.json"] ≠ [] := by simp
  obtain ⟨places, hfind, -, -, hsorted, hleads⟩ :=
    (find_lists_files hwellFormed resolve_tangledFiles hne).1 fun place hplace =>
      absurd ((hopen place).mpr hplace) List.not_mem_nil
  refine ⟨find_barredFiles, hwellFormed, hup, _, hfind, ?_, hsorted,
    hpath ▸ hleads hup ["l.hcl"] _ rfl⟩
  rw [find_eq_searched resolve_tangledFiles hne] at hfind
  rw [← Except.ok.inj hfind]
  decide +kernel

end CypherBlocks.Files
