import CypherBlocks.Text.Normal
import Mathlib.Data.List.Chain
import Mathlib.Data.List.Nodup

/-!
# The normal form of a text

Composition undoes a part of what decomposition does: decomposing what was composed, and ordering
the marks, gives back the letters that were composed.  So the normal form of a normal form is
itself.  What is needed of the tables is that they are flat: a character decomposes in three rounds
at most, and only its first part is ever decomposed further.
-/

namespace CypherBlocks.Text

/-! ## 1. One round of decomposition -/

/-- The first part of a character, which may decompose further, and the parts after it. -/
def decomposition? (n : Nat) : Option (Nat × List Nat) :=
  match composites.find? (·.1 == n) with
  | some (_, a, b) => some (a, [b])
  | none =>
    match oneWayPairs.find? (·.1 == n) with
    | some (_, a, b) => some (a, [b])
    | none =>
      (singletonRuns.find? fun (first, targets) => first ≤ n && n < first + targets.length).map
        fun (first, targets) =>
        (targets.getD (n - first) n, [])

theorem decomposeFrom_succ (depth n : Nat) :
    decomposeFrom (depth + 1) n = (decomposition? n).elim [n] fun (a, bs) =>
      decomposeFrom depth a ++ bs := by
  rw [decomposeFrom, decomposition?]
  cases composites.find? (·.1 == n) with
  | some e => rfl
  | none =>
    cases oneWayPairs.find? (·.1 == n) with
    | some e => rfl
    | none =>
      cases singletonRuns.find? fun (first, targets) => first ≤ n && n < first + targets.length with
      | some run => simp
      | none => rfl

/-- The characters of a run with what each is written as. -/
def runEntries (first : Nat) : List Nat → List (Nat × Nat × List Nat)
  | [] => []
  | t :: rest => (first, t, []) :: runEntries (first + 1) rest

/-- All decompositions that are listed: a character, its first part and the others. -/
def entries : List (Nat × Nat × List Nat) :=
  (composites.map fun (c, a, b) => (c, a, [b])) ++ (oneWayPairs.map fun (c, a, b) => (c, a, [b])) ++
    singletonRuns.flatMap fun (first, targets) => runEntries first targets

theorem mem_runEntries {first i t : Nat} {targets : List Nat} (h : targets[i]? = some t) :
    (first + i, t, []) ∈ runEntries first targets := by
  induction targets generalizing first i with
  | nil => simp at h
  | cons u rest ih =>
    cases i with
    | zero =>
      obtain rfl : u = t := by simpa using h
      exact List.mem_cons_self
    | succ i =>
      have hrest : (first + 1 + i, t, []) ∈ runEntries (first + 1) rest := ih (by simpa using h)
      rw [show first + (i + 1) = first + 1 + i by omega]
      exact List.mem_cons_of_mem _ hrest

theorem mem_entries {n a : Nat} {bs : List Nat} (h : decomposition? n = some (a, bs)) :
    (n, a, bs) ∈ entries := by
  unfold decomposition? at h
  unfold entries
  rw [List.mem_append, List.mem_append]
  -- pairs that compose, then the other pairs, then the runs of single characters
  split at h
  · rename_i c x y hfind
    cases h
    have hkey : c = n := by simpa using List.find?_some hfind
    exact .inl (.inl (List.mem_map.mpr ⟨(c, a, y), List.mem_of_find?_eq_some hfind, by rw [hkey]⟩))
  · split at h
    · rename_i c x y hfind
      cases h
      have hkey : c = n := by simpa using List.find?_some hfind
      exact .inl
        (.inr (List.mem_map.mpr ⟨(c, a, y), List.mem_of_find?_eq_some hfind, by rw [hkey]⟩))
    · obtain ⟨⟨first, targets⟩, hfind, heq⟩ := Option.map_eq_some_iff.mp h
      cases heq
      have hbounds : first ≤ n ∧ n < first + targets.length := by simpa using List.find?_some hfind
      have hlt : n - first < targets.length := by omega
      refine .inr (List.mem_flatMap.mpr ⟨_, List.mem_of_find?_eq_some hfind, ?_⟩)
      have hmem : (first + (n - first), targets[n - first], []) ∈ runEntries first targets :=
        mem_runEntries (List.getElem?_eq_getElem hlt)
      rw [show first + (n - first) = n by omega] at hmem
      rw [List.getD_eq_getElem?_getD, List.getElem?_eq_getElem hlt]
      exact hmem

/-! ## 2. The tables are flat -/

/-- A set of numbers as the bits of one. -/
def codeSet (ns : List Nat) : Nat := ns.foldl (fun s n => s ||| 1 <<< n) 0

theorem testBit_codeSet (ns : List Nat) (n : Nat) : (codeSet ns).testBit n = decide (n ∈ ns) := by
  suffices h : ∀ s : Nat,
      (ns.foldl (fun s n => s ||| 1 <<< n) s).testBit n = (s.testBit n || decide (n ∈ ns)) by
    rw [codeSet, h, Nat.zero_testBit, Bool.false_or]
  induction ns with
  | nil => simp
  | cons m ns ih =>
    intro s
    have hbit : (1 <<< m).testBit n = decide (n = m) := by
      rw [Nat.testBit_shiftLeft, Bool.eq_iff_iff]
      simp only [Bool.and_eq_true, decide_eq_true_eq, Nat.testBit_one_eq_true_iff_self_eq_zero]
      omega
    rw [List.foldl_cons, ih, Nat.testBit_or, hbit, Bool.or_assoc]
    simp only [List.mem_cons, Bool.decide_or]

/-- The characters that decompose. -/
def decomposing : Nat := codeSet (entries.map (·.1))

/-- The first parts that decompose further. -/
def decomposingOnce : Nat :=
  codeSet ((entries.filter fun e => decomposing.testBit e.2.1).map (·.2.1))

/-- The first parts of those that decompose further. -/
def decomposingTwice : Nat :=
  codeSet ((entries.filter fun e => decomposingOnce.testBit e.1 && decomposing.testBit e.2.1).map
    (·.2.1))

/-- What each entry is checked for: it is about characters that are no syllables nor letters of one,
its parts after the first do not decompose, and its first part decomposes in two rounds at most. -/
def isSoundEntry (e : Nat × Nat × List Nat) : Bool :=
  firstUnstable ≤ e.1 && !isSyllable e.1 && (e.1 < leadingBase || trailingBase + trailingCount ≤
    e.1) && decide e.1.isValidChar && !isSyllable e.2.1 && decide e.2.1.isValidChar &&
    !(decomposingTwice.testBit e.1 && decomposing.testBit e.2.1) && e.2.2.all fun b =>
    !isSyllable b && decide b.isValidChar && !decomposing.testBit b

theorem all_isSoundEntry : entries.all isSoundEntry = true := by decide +kernel

/-- What the checks say of an entry. -/
structure SoundEntry (n a : Nat) (bs : List Nat) : Prop where
  unstable : firstUnstable ≤ n
  valid : n.isValidChar
  notSyllable : isSyllable n = false
  notLetter : n < leadingBase ∨ trailingBase + trailingCount ≤ n
  first : isSyllable a = false ∧ a.isValidChar
  others : ∀ b ∈ bs, isSyllable b = false ∧ b.isValidChar ∧ decomposition? b = none

theorem decomposing_of_entry {n a : Nat} {bs : List Nat} (h : (n, a, bs) ∈ entries) :
    decomposing.testBit n = true := by
  rw [decomposing, testBit_codeSet, decide_eq_true_eq]
  exact List.mem_map_of_mem h

theorem decomposition?_eq_none {n : Nat} (h : decomposing.testBit n = false) :
    decomposition? n = none := by
  by_contra hsome
  obtain ⟨⟨a, bs⟩, hab⟩ := Option.ne_none_iff_exists'.mp hsome
  rw [decomposing_of_entry (mem_entries hab)] at h
  cases h

theorem isSoundEntry_of_mem {e : Nat × Nat × List Nat} (h : e ∈ entries) : isSoundEntry e = true :=
  List.all_eq_true.mp all_isSoundEntry e h

theorem soundEntry {n a : Nat} {bs : List Nat} (h : (n, a, bs) ∈ entries) : SoundEntry n a bs := by
  have hsound := isSoundEntry_of_mem h
  simp only [isSoundEntry, Bool.and_eq_true, Bool.or_eq_true, decide_eq_true_eq, Bool.not_eq_true',
    List.all_eq_true] at hsound
  obtain ⟨⟨⟨⟨⟨⟨⟨hunstable, hsyllable⟩, hletter⟩, hvalid⟩, hfirst⟩, hfirstValid⟩, -⟩, hothers⟩ :=
    hsound
  refine ⟨hunstable, hvalid, hsyllable, hletter, ⟨hfirst, hfirstValid⟩, fun b hb => ?_⟩
  obtain ⟨⟨hb, hbValid⟩, hnone⟩ := hothers b hb
  exact ⟨hb, hbValid, decomposition?_eq_none hnone⟩

/-- Whether a character decomposes in so many rounds at most. -/
def SettlesIn : Nat → Nat → Prop
  | 0, n => decomposition? n = none
  | depth + 1, n => ∀ a bs, decomposition? n = some (a, bs) → SettlesIn depth a

/-- Three rounds are enough for every character, and two for the first part of one. -/
theorem settlesIn_first {n a : Nat} {bs : List Nat} (h : decomposition? n = some (a, bs)) :
    SettlesIn 2 a := by
  intro b cs hb c ds hc
  have hentry := mem_entries h
  have hentry' := mem_entries hb
  have hentry'' := mem_entries hc
  have honce : decomposingOnce.testBit a = true := by
    rw [decomposingOnce, testBit_codeSet, decide_eq_true_eq]
    exact List.mem_map.mpr ⟨_, List.mem_filter.mpr ⟨hentry, decomposing_of_entry hentry'⟩, rfl⟩
  have htwice : decomposingTwice.testBit b = true := by
    rw [decomposingTwice, testBit_codeSet, decide_eq_true_eq]
    refine List.mem_map.mpr ⟨_, List.mem_filter.mpr ⟨hentry', ?_⟩, rfl⟩
    rw [honce, decomposing_of_entry hentry'']
    rfl
  have hsound := isSoundEntry_of_mem hentry''
  simp only [isSoundEntry, Bool.and_eq_true, Bool.not_eq_true', htwice, Bool.true_and] at hsound
  exact decomposition?_eq_none hsound.1.2

theorem settlesIn_depth (n : Nat) : SettlesIn decompositionDepth n := fun _ _ h => settlesIn_first h

theorem decomposeFrom_of_settlesIn {depth n : Nat} (h : SettlesIn depth n) :
    decomposeFrom (depth + 1) n = decomposeFrom depth n := by
  induction depth generalizing n with
  | zero =>
    rw [decomposeFrom_succ, show decomposition? n = none from h]
    rfl
  | succ depth ih =>
    rw [decomposeFrom_succ, decomposeFrom_succ]
    cases hn : decomposition? n with
    | none => rfl
    | some e => exact congrArg (· ++ e.2) (ih (h e.1 e.2 hn))

/-! ## 3. Letters -/

/-- A character that is fully decomposed. -/
structure IsLetter (n : Nat) : Prop where
  valid : n.isValidChar
  notSyllable : isSyllable n = false
  whole : decomposition? n = none

theorem IsLetter.decompose_eq {n : Nat} (h : IsLetter n) : decompose n = [n] := by
  unfold decompose
  rw [h.notSyllable, decompositionDepth, decomposeFrom_succ, h.whole]
  split <;> rfl

theorem isLetter_of_mem_decomposeFrom {depth n m : Nat} (hvalid : n.isValidChar)
    (hn : isSyllable n = false) (hsettles : SettlesIn depth n) (hm : m ∈ decomposeFrom depth n) :
    IsLetter m := by
  induction depth generalizing n with
  | zero =>
    obtain rfl := List.mem_singleton.mp hm
    exact ⟨hvalid, hn, hsettles⟩
  | succ depth ih =>
    rw [decomposeFrom_succ] at hm
    cases hd : decomposition? n with
    | none =>
      rw [hd] at hm
      obtain rfl := List.mem_singleton.mp hm
      exact ⟨hvalid, hn, hd⟩
    | some e =>
      obtain ⟨a, bs⟩ := e
      have hsound := soundEntry (mem_entries hd)
      rw [hd] at hm
      -- only the first part is taken apart further; the table says of the others that they are
      -- letters
      rcases List.mem_append.mp hm with hm | hm
      · exact ih hsound.first.2 hsound.first.1 (hsettles a bs hd) hm
      · obtain ⟨hsyllable, hvalid, hnone⟩ := hsound.others m hm
        exact ⟨hvalid, hsyllable, hnone⟩

theorem isSyllable_iff {n : Nat} : isSyllable n = true ↔ 44032 ≤ n ∧ n < 55204 := by
  change (decide (44032 ≤ n) && decide (n < 55204)) = true ↔ _
  rw [Bool.and_eq_true, decide_eq_true_eq, decide_eq_true_eq]

theorem valid_of_isSyllable {n : Nat} (h : isSyllable n = true) : n.isValidChar := by
  rw [isSyllable_iff] at h
  exact .inl (by omega)

theorem isSyllable_eq_false {n : Nat} (h : n < 44032) : isSyllable n = false := by
  rw [← Bool.not_eq_true, isSyllable_iff]
  omega

theorem syllableLetters_eq (n : Nat) :
    syllableLetters n = [4352 + (n - 44032) / 588, 4449 + (n - 44032) / 28 % 21] ++
      if (n - 44032) % 28 = 0 then [] else [4519 + (n - 44032) % 28] := rfl

/-- The letters of the Hangul alphabet do not decompose. -/
theorem isLetter_hangul {n : Nat} (hleast : 4352 ≤ n) (hgreatest : n < 4547) : IsLetter n := by
  refine ⟨.inl (by omega), isSyllable_eq_false (by omega), ?_⟩
  by_contra hsome
  obtain ⟨⟨a, bs⟩, hab⟩ := Option.ne_none_iff_exists'.mp hsome
  have hletter : n < 4352 ∨ 4547 ≤ n := (soundEntry (mem_entries hab)).notLetter
  omega

theorem mem_syllableLetters {n m : Nat} (hn : isSyllable n = true) (hm : m ∈ syllableLetters n) :
    4352 ≤ m ∧ m < 4547 := by
  rw [isSyllable_iff] at hn
  rw [syllableLetters_eq, List.mem_append, List.mem_cons, List.mem_singleton] at hm
  rcases hm with (rfl | rfl) | hm
  · omega
  · omega
  · split at hm
    · cases hm
    · rw [List.mem_singleton] at hm
      omega

/-- Every character decomposes into letters. -/
theorem isLetter_of_mem_decompose {n m : Nat} (hvalid : n.isValidChar) (hm : m ∈ decompose n) :
    IsLetter m := by
  unfold decompose at hm
  split at hm
  · rename_i hstable
    obtain rfl := List.mem_singleton.mp hm
    have hstable : m < 192 := hstable
    refine ⟨hvalid, isSyllable_eq_false (by omega), ?_⟩
    by_contra hsome
    obtain ⟨⟨a, bs⟩, hab⟩ := Option.ne_none_iff_exists'.mp hsome
    have hunstable : 192 ≤ m := (soundEntry (mem_entries hab)).unstable
    omega
  · split at hm
    · rename_i hsyllable
      obtain ⟨hleast, hgreatest⟩ := mem_syllableLetters hsyllable hm
      exact isLetter_hangul hleast hgreatest
    · rename_i hsyllable
      exact isLetter_of_mem_decomposeFrom hvalid (Bool.of_not_eq_true hsyllable)
        (settlesIn_depth n) hm

/-! ## 4. A pair that composes -/

theorem isChain_composites : (composites.map (·.1)).IsChain (· < ·) := by decide +kernel

theorem decomposition?_composite {c a b : Nat} (h : (c, a, b) ∈ composites) :
    decomposition? c = some (a, [b]) := by
  have hnodup : (composites.map (·.1)).Nodup :=
    (List.isChain_iff_pairwise.mp isChain_composites).imp fun hlt => Nat.ne_of_lt hlt
  have hsome : (composites.find? (·.1 == c)).isSome = true :=
    List.find?_isSome.mpr ⟨_, h, beq_self_eq_true c⟩
  obtain ⟨e, hfind⟩ := Option.isSome_iff_exists.mp hsome
  have hkey : e.1 = c := by simpa using List.find?_some hfind
  obtain rfl : e = (c, a, b) :=
    List.inj_on_of_nodup_map hnodup (List.mem_of_find?_eq_some hfind) h hkey
  rw [decomposition?, hfind]

theorem decompose_of_isSyllable {n : Nat} (h : isSyllable n = true) :
    decompose n = syllableLetters n := by
  have hbounds := isSyllable_iff.mp h
  have hunstable : ¬ n < firstUnstable := by
    change ¬ n < 192
    omega
  rw [decompose, if_neg hunstable, if_pos h]

theorem decompose_of_decomposition {n a : Nat} {bs : List Nat}
    (h : decomposition? n = some (a, bs)) : decompose n = decompose a ++ bs := by
  have hsound := soundEntry (mem_entries h)
  have hfirst : decompose a = decomposeFrom decompositionDepth a := by
    unfold decompose
    rw [hsound.first.1]
    split
    · rename_i hstable
      have hletter : IsLetter a :=
        isLetter_of_mem_decompose hsound.first.2
          (by rw [decompose, if_pos hstable]; exact List.mem_singleton_self a)
      rw [decompositionDepth, decomposeFrom_succ, hletter.whole]
      rfl
    · rfl
  rw [decompose, if_neg (Nat.not_lt.mpr hsound.unstable), hsound.notSyllable, hfirst,
    decompositionDepth, decomposeFrom_of_settlesIn (settlesIn_first h), decomposeFrom_succ, h]
  rfl

/-- A pair that composes is what its composite decomposes into, as far as the first of the pair is
decomposed. -/
theorem decompose_composePair {a b c : Nat} (h : composePair a b = some c) :
    c.isValidChar ∧ decompose c = decompose a ++ [b] := by
  unfold composePair at h
  split at h
  -- a leading consonant and a vowel make a syllable without a final consonant
  · rename_i hpair
    simp only [Bool.and_eq_true, decide_eq_true_eq] at hpair
    have hbounds : ((4352 ≤ a ∧ a < 4371) ∧ 4449 ≤ b) ∧ b < 4470 := hpair
    obtain rfl : 44032 + ((a - 4352) * 21 + (b - 4449)) * 28 = c := Option.some.inj h
    have hsyllable : isSyllable (44032 + ((a - 4352) * 21 + (b - 4449)) * 28) = true := by
      rw [isSyllable_iff]
      omega
    have hletter : IsLetter a := isLetter_hangul (by omega) (by omega)
    refine ⟨valid_of_isSyllable hsyllable, ?_⟩
    rw [decompose_of_isSyllable hsyllable, syllableLetters_eq, hletter.decompose_eq,
      if_pos (by omega)]
    have hleading : 4352 + (44032 + ((a - 4352) * 21 + (b - 4449)) * 28 - 44032) / 588 = a := by
      omega
    have hvowel : 4449 + (44032 + ((a - 4352) * 21 + (b - 4449)) * 28 - 44032) / 28 % 21 = b := by
      omega
    rw [hleading, hvowel]
    rfl
  · split at h
    -- such a syllable and a final consonant make another syllable
    · rename_i hpair
      simp only [Bool.and_eq_true, decide_eq_true_eq] at hpair
      obtain ⟨⟨⟨ha, hrest⟩, hleast⟩, hgreatest⟩ := hpair
      have hbounds := isSyllable_iff.mp ha
      have hrest : (a - 44032) % 28 = 0 := hrest
      have hleast : 4519 < b := hleast
      have hgreatest : b < 4547 := hgreatest
      obtain rfl : a + (b - 4519) = c := Option.some.inj h
      have hsyllable : isSyllable (a + (b - 4519)) = true := by
        rw [isSyllable_iff]
        omega
      refine ⟨valid_of_isSyllable hsyllable, ?_⟩
      rw [decompose_of_isSyllable hsyllable, decompose_of_isSyllable ha, syllableLetters_eq,
        syllableLetters_eq, if_neg (by omega), if_pos hrest]
      have hleading : (a + (b - 4519) - 44032) / 588 = (a - 44032) / 588 := by omega
      have hvowel : (a + (b - 4519) - 44032) / 28 % 21 = (a - 44032) / 28 % 21 := by omega
      have htrailing : 4519 + (a + (b - 4519) - 44032) % 28 = b := by omega
      rw [hleading, hvowel, htrailing]
      rfl
    -- all other pairs stand in the table
    · obtain ⟨⟨c', x, y⟩, hfind, heq⟩ := Option.map_eq_some_iff.mp h
      obtain rfl : c' = c := heq
      have hkeys : x = a ∧ y = b := by simpa using List.find?_some hfind
      obtain ⟨rfl, rfl⟩ := hkeys
      have hpair : decomposition? c' = some (x, [y]) :=
        decomposition?_composite (List.mem_of_find?_eq_some hfind)
      exact ⟨(soundEntry (mem_entries hpair)).valid, decompose_of_decomposition hpair⟩

/-! ## 5. Ordered marks -/

theorem orderMarksReversed_append (done ns ms : List Nat) :
    orderMarksReversed done (ns ++ ms) = orderMarksReversed (orderMarksReversed done ns) ms := by
  induction ns generalizing done with
  | nil => rfl
  | cons n ns ih =>
    rw [List.cons_append, orderMarksReversed, orderMarksReversed]
    exact ih _

theorem insertMark_comm {a b : Nat} (h : combiningClass a ≠ combiningClass b) (done : List Nat) :
    insertMark a (insertMark b done) = insertMark b (insertMark a done) := by
  induction done with
  | nil =>
    simp only [insertMark]
    by_cases hab : combiningClass a < combiningClass b
    · rw [if_pos hab, if_neg (by omega)]
    · rw [if_neg hab, if_pos (by omega)]
  | cons m rest ih =>
    by_cases ha : combiningClass a < combiningClass m <;> by_cases hb :
      combiningClass b < combiningClass m <;> simp only [insertMark, ha, hb, if_true, if_false, ih]
    · rw [if_pos (by omega)]
    · rw [if_pos (by omega)]
    · by_cases hab : combiningClass a < combiningClass b
      · rw [if_pos hab, if_neg (by omega)]
      · rw [if_neg hab, if_pos (by omega)]

/-- A mark may stand before marks of other classes or after them. -/
theorem orderMarksReversed_move {n : Nat} {ms : List Nat} (hn : combiningClass n ≠ 0)
    (hms : ∀ m ∈ ms, combiningClass m ≠ 0 ∧ combiningClass m ≠ combiningClass n)
    (done rest : List Nat) :
    orderMarksReversed done (n :: (ms ++ rest)) = orderMarksReversed done (ms ++ n :: rest) := by
  induction ms generalizing done with
  | nil => rfl
  | cons m ms ih =>
    obtain ⟨⟨hm, hdiffer⟩, hms⟩ := List.forall_mem_cons.mp hms
    have hcomm := insertMark_comm hdiffer done
    rw [List.cons_append, List.cons_append, orderMarksReversed, orderMarksReversed, if_neg hn,
      if_neg hm, hcomm, orderMarksReversed, if_neg hm, ← ih hms, orderMarksReversed, if_neg hn]

theorem mem_insertMark {n m : Nat} {done : List Nat} :
    m ∈ insertMark n done ↔ m = n ∨ m ∈ done := by
  induction done with
  | nil => simp [insertMark]
  | cons k rest ih =>
    rw [insertMark]
    split
    · rw [List.mem_cons, ih, List.mem_cons, or_left_comm]
    · rw [List.mem_cons]

theorem mem_orderMarksReversed {m : Nat} {done ns : List Nat} :
    m ∈ orderMarksReversed done ns ↔ m ∈ done ∨ m ∈ ns := by
  induction ns generalizing done with
  | nil => simp [orderMarksReversed]
  | cons n ns ih =>
    have hplace : m ∈ (if combiningClass n = 0 then n :: done else insertMark n done) ↔
        m = n ∨ m ∈ done := by
      split
      · exact List.mem_cons
      · exact mem_insertMark
    rw [orderMarksReversed, ih, hplace, List.mem_cons, or_assoc, or_left_comm]

theorem mem_orderMarks {m : Nat} {ns : List Nat} : m ∈ orderMarks ns ↔ m ∈ ns := by
  rw [orderMarks, List.mem_reverse, mem_orderMarksReversed]
  simp

/-- Two characters that may follow each other in ordered text. -/
def InOrder (a b : Nat) : Prop := combiningClass b = 0 ∨ combiningClass a ≤ combiningClass b

theorem isChain_insertMark {n : Nat} {done : List Nat} (h : done.IsChain (flip InOrder)) :
    (insertMark n done).IsChain (flip InOrder) := by
  induction done with
  | nil => exact List.isChain_singleton n
  | cons m rest ih =>
    have hrest : rest.IsChain (flip InOrder) := h.tail
    by_cases hlt : combiningClass n < combiningClass m
    · have hnext := ih hrest
      rw [insertMark, if_pos hlt]
      cases rest with
      | nil => exact List.isChain_pair.mpr (.inr (Nat.le_of_lt hlt))
      | cons k rest =>
        -- what now follows the first mark is either what followed it before or the new mark
        rw [insertMark] at hnext ⊢
        split at hnext
        · rename_i hnk
          rw [if_pos hnk]
          exact List.isChain_cons_cons.mpr ⟨(List.isChain_cons_cons.mp h).1, hnext⟩
        · rename_i hnk
          rw [if_neg hnk]
          exact List.isChain_cons_cons.mpr ⟨.inr (Nat.le_of_lt hlt), hnext⟩
    · rw [insertMark, if_neg hlt]
      exact List.isChain_cons_cons.mpr ⟨.inr (Nat.le_of_not_lt hlt), h⟩

theorem isChain_orderMarksReversed {done : List Nat} (h : done.IsChain (flip InOrder))
    (ns : List Nat) : (orderMarksReversed done ns).IsChain (flip InOrder) := by
  induction ns generalizing done with
  | nil => exact h
  | cons n ns ih =>
    rw [orderMarksReversed]
    apply ih
    split
    · rename_i hzero
      cases done with
      | nil => exact List.isChain_singleton n
      | cons m rest => exact List.isChain_cons_cons.mpr ⟨.inl hzero, h⟩
    · exact isChain_insertMark h

theorem isChain_orderMarks (ns : List Nat) : (orderMarks ns).IsChain InOrder :=
  List.isChain_reverse.mpr (isChain_orderMarksReversed List.isChain_nil ns)

/-- What is in order stays as it is. -/
theorem orderMarksReversed_of_isChain {done ns : List Nat}
    (h : (done.reverse ++ ns).IsChain InOrder) :
    orderMarksReversed done ns = ns.reverse ++ done := by
  induction ns generalizing done with
  | nil => rfl
  | cons n ns ih =>
    have hplace : (if combiningClass n = 0 then n :: done else insertMark n done) = n :: done := by
      cases done with
      | nil => split <;> rfl
      | cons m rest =>
        split
        · rfl
        · rename_i hmark
          have hlink : InOrder m n := (List.isChain_append.mp h).2.2 m (by simp) n rfl
          rw [insertMark, if_neg (Nat.not_lt.mpr (hlink.resolve_left hmark))]
    rw [orderMarksReversed, hplace, ih (by simpa using h)]
    simp

theorem orderMarks_of_isChain {ns : List Nat} (h : ns.IsChain InOrder) : orderMarks ns = ns := by
  rw [orderMarks, orderMarksReversed_of_isChain (by simpa using h), List.append_nil,
    List.reverse_reverse]

/-! ## 6. What was composed -/

theorem flatMap_decompose {ns : List Nat} (h : ∀ n ∈ ns, IsLetter n) :
    ns.flatMap decompose = ns := by
  induction ns with
  | nil => rfl
  | cons n ns ih =>
    obtain ⟨hn, h⟩ := List.forall_mem_cons.mp h
    rw [List.flatMap_cons, hn.decompose_eq, ih h]
    rfl

/-- The last of some marks in order has the highest class. -/
theorem combiningClass_le_of_isChain {m : Nat} {skipped : List Nat}
    (hmarks : ∀ k ∈ m :: skipped, combiningClass k ≠ 0)
    (h : ((m :: skipped).reverse).IsChain InOrder) :
    ∀ k ∈ m :: skipped, combiningClass k ≤ combiningClass m := by
  rw [List.isChain_reverse] at h
  induction skipped generalizing m with
  | nil => simp
  | cons l skipped ih =>
    obtain ⟨hlink, htail⟩ := List.isChain_cons_cons.mp h
    obtain ⟨hm, hmarks⟩ := List.forall_mem_cons.mp hmarks
    have hle : combiningClass l ≤ combiningClass m := hlink.resolve_left hm
    exact List.forall_mem_cons.mpr ⟨Nat.le_refl _, fun k hk => (ih hmarks htail k hk).trans hle⟩

/-- Marks that stay after a starter, and the characters still to come, all decomposed and in
order. -/
structure Pending (skipped rest : List Nat) : Prop where
  letters : ∀ n ∈ skipped.reverse ++ rest, IsLetter n
  marks : ∀ m ∈ skipped, combiningClass m ≠ 0
  order : (skipped.reverse ++ rest).IsChain InOrder

section Pending

variable {n : Nat} {skipped rest : List Nat}

theorem Pending.flatMap_skipped (h : Pending skipped rest) :
    skipped.reverse.flatMap decompose = skipped.reverse :=
  flatMap_decompose fun n hn => h.letters n (List.mem_append_left rest hn)

/-- The next mark stays. -/
theorem Pending.skip (h : Pending skipped (n :: rest)) (hn : combiningClass n ≠ 0) :
    Pending (n :: skipped) rest where
  letters := by simpa using h.letters
  marks := List.forall_mem_cons.mpr ⟨hn, h.marks⟩
  order := by simpa using h.order

/-- The next character is a starter. -/
theorem Pending.start (h : Pending skipped (n :: rest)) : IsLetter n ∧ Pending [] rest := by
  have hletters := List.forall_mem_append.mp h.letters
  refine ⟨hletters.2 n List.mem_cons_self, fun m hm =>
    hletters.2 m (List.mem_cons_of_mem n hm), by simp, ?_⟩
  exact (List.isChain_append.mp h.order).2.1.tail

/-- The next character is not blocked: the marks before it are all of lower classes, so it may be
taken out. -/
theorem Pending.take (h : Pending skipped (n :: rest))
    (hfree : ∀ m ∈ skipped.head?, combiningClass m < combiningClass n) :
    (∀ m ∈ skipped, combiningClass m < combiningClass n) ∧ Pending skipped rest := by
  obtain ⟨hbefore, hafter, hlink⟩ := List.isChain_append.mp h.order
  cases skipped with
  | nil =>
    exact ⟨by simp, fun m hm => h.letters m (List.mem_cons_of_mem n hm), by simp, hafter.tail⟩
  | cons m skipped =>
    have hlt : combiningClass m < combiningClass n := hfree m rfl
    have hle := combiningClass_le_of_isChain h.marks hbefore
    refine ⟨fun k hk => Nat.lt_of_le_of_lt (hle k hk) hlt, ?_, h.marks, ?_⟩
    · have hletters := List.forall_mem_append.mp h.letters
      exact List.forall_mem_append.mpr ⟨hletters.1, fun k hk =>
        hletters.2 k (List.mem_cons_of_mem n hk)⟩
    · refine List.isChain_append.mpr ⟨hbefore, hafter.tail, fun k hk l hl => ?_⟩
      obtain rfl : k = m := by simpa using hk.symm
      have hnext : InOrder n l := (List.isChain_cons.mp hafter).1 l hl
      exact hnext.imp_right fun hnl => (Nat.le_of_lt hlt).trans hnl

end Pending

/-- A character after marks of lower classes may as well stand before them. -/
theorem orderMarksReversed_moveMark {n : Nat} {skipped : List Nat}
    (hmarks : ∀ m ∈ skipped, combiningClass m ≠ 0)
    (hlower : ∀ m ∈ skipped, combiningClass m < combiningClass n) (done rest : List Nat) :
    orderMarksReversed done (n :: (skipped.reverse ++ rest)) =
      orderMarksReversed done (skipped.reverse ++ n :: rest) := by
  cases skipped with
  | nil => rfl
  | cons m skipped =>
    have hn : combiningClass n ≠ 0 := by
      have := hlower m List.mem_cons_self
      omega
    apply orderMarksReversed_move hn
    intro k hk
    rw [List.mem_reverse] at hk
    exact ⟨hmarks k hk, Nat.ne_of_lt (hlower k hk)⟩

/-- What comes after a starter: a character that composes with it, unless it is blocked, the next
starter, or a mark that stays. -/
theorem composeFrom_some (s n : Nat) (skipped rest : List Nat) :
    composeFrom (some s) skipped (n :: rest) =
      (if skipped.head?.any fun m => combiningClass n ≤ combiningClass m then none
        else composePair s n).elim
        (if combiningClass n = 0 then s :: (skipped.reverse ++ composeFrom (some n) [] rest)
          else composeFrom (some s) (n :: skipped) rest)
        fun c => composeFrom (some c) skipped rest := by
  conv_lhs => unfold composeFrom
  cases skipped with
  | nil => cases composePair s n <;> rfl
  | cons m skipped =>
    simp only [List.head?_cons, Option.any_some, List.cons_append]
    by_cases hblocked : combiningClass n ≤ combiningClass m
    · simp [hblocked]
    · simp only [decide_eq_false hblocked]
      cases composePair s n <;> rfl

/-- Decomposing what is composed, and ordering the marks, is ordering what was there before. -/
theorem orderMarksReversed_composeFrom {starter : Option Nat} {skipped rest : List Nat}
    (h : Pending skipped rest) (done : List Nat) :
    orderMarksReversed done ((composeFrom starter skipped rest).flatMap decompose) =
      orderMarksReversed done (starter.toList.flatMap decompose ++ (skipped.reverse ++ rest)) := by
  -- by induction on what is still to compose; the marks passed over stay pending, in order with
  -- what comes
  induction rest generalizing starter skipped done with
  | nil =>
    have hcompose : composeFrom starter skipped [] = starter.toList ++ skipped.reverse := by
      cases starter <;> rfl
    rw [hcompose, List.flatMap_append, h.flatMap_skipped, List.append_nil]
  | cons n rest ih =>
    cases starter with
    | none =>
      rw [composeFrom]
      split
      · obtain ⟨hn, hrest⟩ := h.start
        rw [List.flatMap_append, h.flatMap_skipped, orderMarksReversed_append, ih hrest,
          ← orderMarksReversed_append]
        simp [hn.decompose_eq]
      · rename_i hmark
        rw [ih (h.skip hmark)]
        simp
    | some s =>
      rw [composeFrom_some]
      cases hpair : (if skipped.head?.any fun m => combiningClass n ≤ combiningClass m then none
        else composePair s n) with
      | some c =>
        -- the pair composes: the mark moves to the front of those that stay
        rw [Option.ite_none_left_eq_some] at hpair
        obtain ⟨hfree, hcompose⟩ := hpair
        have hfree : ∀ m ∈ skipped.head?, combiningClass m < combiningClass n := by
          intro m hm
          rw [Option.mem_def.mp hm] at hfree
          simpa using hfree
        obtain ⟨hlower, hrest⟩ := h.take hfree
        rw [Option.elim_some, ih hrest]
        have hmove :=
          orderMarksReversed_moveMark h.marks hlower (orderMarksReversed done (decompose s)) rest
        rw [← orderMarksReversed_append, ← orderMarksReversed_append] at hmove
        simpa [(decompose_composePair hcompose).2] using hmove
      | none =>
        -- nothing composes: the next starter, or one more mark that stays
        rw [Option.elim_none]
        split
        · obtain ⟨hn, hrest⟩ := h.start
          rw [List.flatMap_cons, List.flatMap_append, h.flatMap_skipped, ← List.append_assoc,
            orderMarksReversed_append, ih hrest, ← orderMarksReversed_append]
          simp [hn.decompose_eq]
        · rename_i hmark
          rw [ih (h.skip hmark)]
          simp

theorem valid_of_mem_composeFrom {starter : Option Nat} {skipped rest : List Nat}
    (hstarter : ∀ n ∈ starter, n.isValidChar) (hskipped : ∀ n ∈ skipped, n.isValidChar)
    (hrest : ∀ n ∈ rest, n.isValidChar) :
    ∀ n ∈ composeFrom starter skipped rest, n.isValidChar := by
  induction rest generalizing starter skipped with
  | nil =>
    have hcompose : composeFrom starter skipped [] = starter.toList ++ skipped.reverse := by
      cases starter <;> rfl
    simpa [hcompose, or_imp, forall_and] using And.intro hstarter hskipped
  | cons n rest ih =>
    obtain ⟨hn, hrest⟩ := List.forall_mem_cons.mp hrest
    have hkept : ∀ m ∈ n :: skipped, m.isValidChar := List.forall_mem_cons.mpr ⟨hn, hskipped⟩
    have hafter : ∀ m ∈ composeFrom (some n) [] rest, m.isValidChar :=
      ih (by simpa using hn) (by simp) hrest
    -- a character comes from the text or is composed by the table, and the table has characters
    -- only
    cases starter with
    | none =>
      rw [composeFrom]
      split
      · simpa [or_imp, forall_and] using And.intro hskipped hafter
      · exact ih hstarter hkept hrest
    | some s =>
      rw [composeFrom_some]
      cases hpair : (if skipped.head?.any fun m => combiningClass n ≤ combiningClass m then none
        else composePair s n) with
      | some c =>
        rw [Option.ite_none_left_eq_some] at hpair
        exact ih (by simpa using (decompose_composePair hpair.2).1) hskipped hrest
      | none =>
        rw [Option.elim_none]
        split
        · have hs : s.isValidChar := hstarter s rfl
          simpa [or_imp, forall_and] using And.intro hs (And.intro hskipped hafter)
        · exact ih hstarter hkept hrest

/-! ## 7. Runs of marks -/

/-- Whether no run in some letters is too long, after one of the given length. -/
def ShortRuns : Nat → List Nat → Prop
  | _, [] => True
  | count, n :: rest => (attaches n = true → count < longestRun) ∧ ShortRuns (runStep count n) rest

instance decidableShortRuns : (count : Nat) → (ns : List Nat) → Decidable (ShortRuns count ns)
  | _, [] => inferInstanceAs (Decidable True)
  | count, n :: rest =>
    have := decidableShortRuns (runStep count n) rest
    inferInstanceAs (Decidable ((attaches n = true → count < longestRun) ∧ _))

theorem shortRuns_append {count : Nat} {ns ms : List Nat} :
    ShortRuns count (ns ++ ms) ↔ ShortRuns count ns ∧ ShortRuns (ns.foldl runStep count) ms := by
  induction ns generalizing count with
  | nil => simp [ShortRuns]
  | cons n ns ih => rw [List.cons_append, ShortRuns, ShortRuns, ih, and_assoc, List.foldl_cons]

theorem runStep_of_attaches {n : Nat} (h : attaches n = true) (count : Nat) :
    runStep count n = count + 1 := if_pos h

theorem attaches_of_mark {n : Nat} (h : combiningClass n ≠ 0) : attaches n = true := by
  simp [attaches, h]

/-- Two marks may change places. -/
theorem shortRuns_swap {n m : Nat} (hn : attaches n = true) (hm : attaches m = true) (count : Nat)
    (ns rest : List Nat) :
    ShortRuns count (ns ++ n :: m :: rest) ↔ ShortRuns count (ns ++ m :: n :: rest) := by
  simp only [shortRuns_append, ShortRuns, runStep_of_attaches, hn, hm]

theorem shortRuns_insertMark {n : Nat} (hn : combiningClass n ≠ 0) (count : Nat)
    (done rest : List Nat) :
    ShortRuns count ((insertMark n done).reverse ++ rest) ↔
      ShortRuns count (done.reverse ++ n :: rest) := by
  induction done generalizing rest with
  | nil => rfl
  | cons m done ih =>
    rw [insertMark]
    split
    · rename_i hlt
      have hm : combiningClass m ≠ 0 := by omega
      rw [List.reverse_cons, List.append_assoc, List.singleton_append, ih, List.reverse_cons,
        List.append_assoc, List.singleton_append]
      exact shortRuns_swap (attaches_of_mark hn) (attaches_of_mark hm) count done.reverse rest
    · simp

/-- Ordering the marks does not change how long a run is. -/
theorem shortRuns_orderMarksReversed (count : Nat) (done ns : List Nat) :
    ShortRuns count (orderMarksReversed done ns).reverse ↔
      ShortRuns count (done.reverse ++ ns) := by
  induction ns generalizing done with
  | nil => rw [orderMarksReversed, List.append_nil]
  | cons n ns ih =>
    rw [orderMarksReversed, ih]
    split
    · rw [List.reverse_cons, List.append_assoc, List.singleton_append]
    · rename_i hmark
      exact shortRuns_insertMark hmark count done ns

theorem shortRuns_orderMarks (count : Nat) (ns : List Nat) :
    ShortRuns count (orderMarks ns) ↔ ShortRuns count ns :=
  shortRuns_orderMarksReversed count [] ns

/-- The most marks that one letter brings with it. -/
theorem marksOf_le (n : Nat) : marksOf n ≤ 2 := by
  have hall : ∀ e ∈ ownMarks, e.2.2 ≤ 2 := by decide
  unfold marksOf
  split
  · rename_i hfind
    exact hall _ (List.mem_of_find?_eq_some hfind)
  · omega

theorem runStep_le (count n : Nat) : runStep count n ≤ max (count + 1) 2 := by
  have hmarks := marksOf_le n
  unfold runStep
  split <;> omega

theorem shortRuns_of_length {count : Nat} {ns : List Nat} (hcount : count + ns.length ≤ longestRun)
    (hlength : 2 + ns.length ≤ longestRun) : ShortRuns count ns := by
  induction ns generalizing count with
  | nil => exact True.intro
  | cons n ns ih =>
    have hstep := runStep_le count n
    rw [List.length_cons] at hcount hlength
    exact ⟨fun _ => by omega, ih (by omega) (by omega)⟩

/-- Of a few letters only those that attach to what stands before them can make a run too long. -/
theorem shortRuns_iff_lead {count : Nat} {ns : List Nat} (hcount : count ≤ longestRun)
    (hlength : 2 + ns.length ≤ longestRun) :
    ShortRuns count ns ↔ count + (ns.takeWhile attaches).length ≤ longestRun := by
  induction ns generalizing count with
  | nil => simpa [ShortRuns] using hcount
  | cons n ns ih =>
    rw [List.length_cons] at hlength
    rw [ShortRuns, List.takeWhile_cons]
    cases hn : attaches n with
    | true =>
      rw [runStep_of_attaches hn, if_pos rfl, List.length_cons]
      constructor
      · rintro ⟨hlt, hrest⟩
        have hlead := (ih (hlt rfl) (by omega)).mp hrest
        omega
      · intro hlead
        exact ⟨fun _ => by omega, (ih (by omega) (by omega)).mpr (by omega)⟩
    | false =>
      have hstep : runStep count n = marksOf n := by simp [runStep, hn]
      have hmarks := marksOf_le n
      rw [hstep]
      refine iff_of_true ⟨by simp, shortRuns_of_length (by omega) (by omega)⟩ ?_
      simpa using hcount

theorem foldl_runStep_le {count : Nat} {ns : List Nat} (hcount : count ≤ longestRun)
    (h : ShortRuns count ns) : ns.foldl runStep count ≤ longestRun := by
  induction ns generalizing count with
  | nil => exact hcount
  | cons n ns ih =>
    obtain ⟨hn, hns⟩ := h
    refine ih ?_ hns
    have hmarks := marksOf_le n
    unfold runStep
    split
    · exact hn ‹_›
    · exact hmarks.trans (by decide)

theorem length_decomposition {n a : Nat} {bs : List Nat} (h : decomposition? n = some (a, bs)) :
    bs.length ≤ 1 := by
  unfold decomposition? at h
  split at h
  · cases h
    exact Nat.le_refl 1
  · split at h
    · cases h
      exact Nat.le_refl 1
    · obtain ⟨run, -, hrun⟩ := Option.map_eq_some_iff.mp h
      cases hrun
      exact Nat.zero_le 1

theorem length_decomposeFrom_le (depth n : Nat) : (decomposeFrom depth n).length ≤ depth + 1 := by
  induction depth generalizing n with
  | zero => exact Nat.le_refl 1
  | succ depth ih =>
    rw [decomposeFrom_succ]
    cases hn : decomposition? n with
    | none => simp
    | some e =>
      have hfirst := ih e.1
      have hothers : e.2.length ≤ 1 := length_decomposition hn
      rw [Option.elim_some, List.length_append]
      omega

theorem length_decompose_le (n : Nat) : (decompose n).length ≤ 4 := by
  unfold decompose
  split
  · simp
  · split
    · rw [syllableLetters_eq]
      split <;> simp
    · exact length_decomposeFrom_le decompositionDepth n

theorem decomposeFrom_ne_nil (depth n : Nat) : decomposeFrom depth n ≠ [] := by
  induction depth generalizing n with
  | zero => exact List.cons_ne_nil n []
  | succ depth ih =>
    rw [decomposeFrom_succ]
    cases decomposition? n with
    | none => exact List.cons_ne_nil n []
    | some e => exact List.append_ne_nil_of_left_ne_nil (ih e.1) e.2

theorem decompose_ne_nil (n : Nat) : decompose n ≠ [] := by
  unfold decompose
  split
  · exact List.cons_ne_nil n []
  · split
    · exact List.cons_ne_nil _ _
    · exact decomposeFrom_ne_nil decompositionDepth n

/-- A character fits after a run exactly if its letters make no run too long. -/
theorem shortRuns_decompose_iff {count : Nat} (hcount : count ≤ longestRun) (n : Nat) :
    ShortRuns count (decompose n) ↔
      ¬ longestRun < count + ((decompose n).takeWhile attaches).length := by
  have hlength := length_decompose_le n
  rw [shortRuns_iff_lead hcount (by change 2 + _ ≤ 30; omega), Nat.not_lt]

theorem shortRuns_zero_decompose (n : Nat) : ShortRuns 0 (decompose n) := by
  have hlength := length_decompose_le n
  exact shortRuns_of_length (by change 0 + _ ≤ 30; omega) (by change 2 + _ ≤ 30; omega)

theorem isLetter_joiner : IsLetter joiner := ⟨by decide, by decide, by decide +kernel⟩

/-- After a joiner a new run begins. -/
theorem shortRuns_joiner (count : Nat) (ns : List Nat) :
    ShortRuns count (joiner :: ns) ↔ ShortRuns 0 ns := by
  have hattaches : attaches joiner = false := by decide
  have hstep : runStep count joiner = 0 := by
    have hmarks : marksOf joiner = 0 := by decide
    simp [runStep, hattaches, hmarks]
  simp [ShortRuns, hattaches, hstep]

/-- Broken runs are short. -/
theorem shortRuns_breakRuns {count : Nat} (hcount : count ≤ longestRun) (ns : List Nat) :
    ShortRuns count ((breakRuns count ns).flatMap decompose) := by
  induction ns generalizing count with
  | nil => exact True.intro
  | cons n ns ih =>
    rw [breakRuns]
    by_cases hfits : longestRun < count + ((decompose n).takeWhile attaches).length
    · have hn := shortRuns_zero_decompose n
      rw [if_pos hfits, List.flatMap_cons, List.flatMap_cons, isLetter_joiner.decompose_eq,
        List.singleton_append, shortRuns_joiner, shortRuns_append]
      exact ⟨hn, ih (foldl_runStep_le (Nat.zero_le _) hn)⟩
    · have hn := (shortRuns_decompose_iff hcount n).mpr hfits
      rw [if_neg hfits, List.flatMap_cons, shortRuns_append]
      exact ⟨hn, ih (foldl_runStep_le hcount hn)⟩

/-- Short runs are not broken. -/
theorem breakRuns_of_shortRuns {count : Nat} {ns : List Nat} (hcount : count ≤ longestRun)
    (h : ShortRuns count (ns.flatMap decompose)) : breakRuns count ns = ns := by
  induction ns generalizing count with
  | nil => rfl
  | cons n ns ih =>
    rw [List.flatMap_cons, shortRuns_append] at h
    rw [breakRuns, if_neg ((shortRuns_decompose_iff hcount n).mp h.1),
      ih (foldl_runStep_le hcount h.1) h.2]

theorem valid_of_mem_breakRuns {count : Nat} {ns : List Nat} (h : ∀ n ∈ ns, n.isValidChar) :
    ∀ n ∈ breakRuns count ns, n.isValidChar := by
  induction ns generalizing count with
  | nil => simp [breakRuns]
  | cons n ns ih =>
    obtain ⟨hn, hns⟩ := List.forall_mem_cons.mp h
    rw [breakRuns]
    split
    · exact List.forall_mem_cons.mpr
        ⟨isLetter_joiner.valid, List.forall_mem_cons.mpr ⟨hn, ih hns⟩⟩
    · exact List.forall_mem_cons.mpr ⟨hn, ih hns⟩

/-! ## 8. The normal form -/

/-- What composing gives is decomposed into the letters that were composed. -/
theorem orderMarks_compose {ns : List Nat} (h : ∀ n ∈ ns, n.isValidChar) :
    orderMarks ((compose ns).flatMap decompose) = orderMarks (ns.flatMap decompose) := by
  have hletters : ∀ n ∈ orderMarks (ns.flatMap decompose), IsLetter n := by
    intro n hn
    obtain ⟨m, hm, hn⟩ := List.mem_flatMap.mp (mem_orderMarks.mp hn)
    exact isLetter_of_mem_decompose (h m hm) hn
  have horder := isChain_orderMarks (ns.flatMap decompose)
  have hpending : Pending [] (orderMarks (ns.flatMap decompose)) := ⟨hletters, by simp, horder⟩
  rw [compose, orderMarks, orderMarksReversed_composeFrom hpending]
  exact orderMarks_of_isChain horder

theorem compose_compose {ns : List Nat} (h : ∀ n ∈ ns, n.isValidChar) :
    compose (compose ns) = compose ns := by
  conv_lhs => rw [compose, orderMarks_compose h]
  rfl

theorem valid_of_mem_compose {ns : List Nat} (h : ∀ n ∈ ns, n.isValidChar) :
    ∀ n ∈ compose ns, n.isValidChar := by
  refine valid_of_mem_composeFrom (by simp) (by simp) fun n hn => ?_
  obtain ⟨m, hm, hn⟩ := List.mem_flatMap.mp (mem_orderMarks.mp hn)
  exact (isLetter_of_mem_decompose (h m hm) hn).valid

theorem valid_of_mem_codePoints {s : String} : ∀ n ∈ codePoints s, n.isValidChar := by
  intro n hn
  obtain ⟨c, -, rfl⟩ := List.mem_map.mp hn
  exact c.valid

theorem codePoints_ofCodePoints {ns : List Nat} (h : ∀ n ∈ ns, n.isValidChar) :
    codePoints (ofCodePoints ns) = ns := by
  rw [codePoints, ofCodePoints, String.toList_ofList, List.map_map]
  refine (List.map_congr_left fun n hn => ?_).trans (List.map_id ns)
  change (Char.ofNat n).toNat = n
  rw [Char.ofNat, dif_pos (h n hn)]
  rfl

section Stable

variable {n : Nat} {ns : List Nat}

theorem not_attaches_of_stable (h : n < firstUnstable) : attaches n = false := by
  have hclass : combiningClass n = 0 := if_pos (Nat.lt_trans h (by decide))
  have hranges : ∀ r ∈ attachingLetters, firstUnstable ≤ r.1 := by decide
  have houtside : inRanges attachingLetters n = false := by
    rw [inRanges, List.any_eq_false]
    intro r hr
    have hfirst := hranges r hr
    simp only [Bool.and_eq_true, decide_eq_true_eq]
    omega
  simp [attaches, hclass, houtside]

theorem decompose_of_stable (h : n < firstUnstable) : decompose n = [n] := if_pos h

theorem flatMap_decompose_of_stable (h : ∀ n ∈ ns, n < firstUnstable) :
    ns.flatMap decompose = ns := by
  induction ns with
  | nil => rfl
  | cons n ns ih =>
    obtain ⟨hn, hns⟩ := List.forall_mem_cons.mp h
    rw [List.flatMap_cons, decompose_of_stable hn, ih hns]
    rfl

theorem shortRuns_of_stable (h : ∀ n ∈ ns, n < firstUnstable) (count : Nat) :
    ShortRuns count ns := by
  induction ns generalizing count with
  | nil => exact True.intro
  | cons n ns ih =>
    obtain ⟨hn, hns⟩ := List.forall_mem_cons.mp h
    exact ⟨by simp [not_attaches_of_stable hn], ih hns _⟩

theorem all_composites_unstable :
    composites.all (fun e => decide (firstUnstable ≤ e.2.2)) = true := by
  decide +kernel

theorem composePair_of_stable {a b : Nat} (h : b < firstUnstable) : composePair a b = none := by
  have hb : b < 192 := h
  have hvowel : ¬ vowelBase ≤ b := by
    change ¬ 4449 ≤ b
    omega
  have htrailing : ¬ trailingBase < b := by
    change ¬ 4519 < b
    omega
  have hfind : (composites.find? fun (_, x, y) => x == a && y == b) = none := by
    rw [List.find?_eq_none]
    rintro ⟨c, x, y⟩ he
    have hlast : firstUnstable ≤ y := by
      simpa using List.all_eq_true.mp all_composites_unstable _ he
    simp only [Bool.and_eq_true, beq_iff_eq, not_and]
    omega
  simp [composePair, hvowel, htrailing, hfind]

theorem composeFrom_of_stable (h : ∀ n ∈ ns, n < firstUnstable) (s : Nat) :
    composeFrom (some s) [] ns = s :: ns := by
  induction ns generalizing s with
  | nil => rfl
  | cons n ns ih =>
    obtain ⟨hn, hns⟩ := List.forall_mem_cons.mp h
    have hclass : combiningClass n = 0 := if_pos (Nat.lt_trans hn (by decide))
    rw [composeFrom_some, composePair_of_stable hn, if_pos hclass, ih hns]
    rfl

theorem compose_of_stable (h : ∀ n ∈ ns, n < firstUnstable) : compose ns = ns := by
  have horder : ns.IsChain InOrder := by
    refine List.Pairwise.isChain (List.pairwise_of_forall_mem_list fun a _ b hb => .inl ?_)
    exact if_pos (Nat.lt_trans (h b hb) (by decide))
  rw [compose, flatMap_decompose_of_stable h, orderMarks_of_isChain horder]
  cases ns with
  | nil => rfl
  | cons n ns =>
    obtain ⟨hn, hns⟩ := List.forall_mem_cons.mp h
    have hclass : combiningClass n = 0 := if_pos (Nat.lt_trans hn (by decide))
    rw [composeFrom, if_pos hclass, composeFrom_of_stable hns]
    rfl

end Stable

theorem ofCodePoints_codePoints (s : String) : ofCodePoints (codePoints s) = s := by
  simp [ofCodePoints, codePoints, Function.comp_def]

theorem stable_of_isStable {s : String} (h : isStable s = true) :
    ∀ n ∈ codePoints s, n < firstUnstable := by
  simpa [codePoints, isStable] using h

/-- Looking for characters that may change saves work and changes nothing. -/
theorem normalize_eq (s : String) :
    normalize s = ofCodePoints (compose (breakRuns 0 (codePoints s))) := by
  unfold normalize
  split
  · rename_i hstable
    have hcodes := stable_of_isStable hstable
    have hruns : ShortRuns 0 ((codePoints s).flatMap decompose) := by
      rw [flatMap_decompose_of_stable hcodes]
      exact shortRuns_of_stable hcodes 0
    rw [breakRuns_of_shortRuns (Nat.zero_le _) hruns, compose_of_stable hcodes,
      ofCodePoints_codePoints]
  · rfl

/-- Whether a text is in normal form. -/
def IsNormal (s : String) : Prop := normalize s = s

instance (s : String) : Decidable (IsNormal s) := inferInstanceAs (Decidable (normalize s = s))

/-- Whether a text is its own canonical composition. -/
def IsComposed (s : String) : Prop := ofCodePoints (compose (codePoints s)) = s

theorem isComposed_of_isStable {s : String} (h : isStable s = true) : IsComposed s := by
  rw [IsComposed, compose_of_stable (stable_of_isStable h), ofCodePoints_codePoints]

-- composing looks through long tables, which stable texts do not need
instance (s : String) : Decidable (IsComposed s) :=
  decidable_of_iff (isStable s = true ∨ ofCodePoints (compose (codePoints s)) = s)
    ⟨fun h => h.elim isComposed_of_isStable id, .inr⟩

/-- Whether no run of marks in a text is longer than what is kept in one piece. -/
def HasShortRuns (s : String) : Prop := ShortRuns 0 ((codePoints s).flatMap decompose)

instance (s : String) : Decidable (HasShortRuns s) :=
  inferInstanceAs (Decidable (ShortRuns 0 ((codePoints s).flatMap decompose)))

theorem isNormal_of_stable {s : String} (h : ∀ c ∈ s.toList, c.toNat < firstUnstable) :
    IsNormal s := by
  rw [IsNormal, normalize, if_pos (by simpa [isStable] using h)]

theorem hasShortRuns_normalize (s : String) : HasShortRuns (normalize s) := by
  have hvalid : ∀ n ∈ breakRuns 0 (codePoints s), n.isValidChar :=
    valid_of_mem_breakRuns valid_of_mem_codePoints
  have hbroken := shortRuns_breakRuns (Nat.zero_le longestRun) (codePoints s)
  rw [HasShortRuns, normalize_eq, codePoints_ofCodePoints (valid_of_mem_compose hvalid),
    ← shortRuns_orderMarks, orderMarks_compose hvalid, shortRuns_orderMarks]
  exact hbroken

theorem isComposed_normalize (s : String) : IsComposed (normalize s) := by
  have hvalid : ∀ n ∈ breakRuns 0 (codePoints s), n.isValidChar :=
    valid_of_mem_breakRuns valid_of_mem_codePoints
  rw [IsComposed, normalize_eq, codePoints_ofCodePoints (valid_of_mem_compose hvalid),
    compose_compose hvalid]

/-- A text is in normal form exactly if it is composed and its runs of marks are short. -/
theorem isNormal_iff {s : String} : IsNormal s ↔ IsComposed s ∧ HasShortRuns s := by
  constructor
  · intro h
    rw [← show normalize s = s from h]
    exact ⟨isComposed_normalize s, hasShortRuns_normalize s⟩
  · rintro ⟨hcomposed, hruns⟩
    rw [IsNormal, normalize_eq, breakRuns_of_shortRuns (Nat.zero_le _) hruns]
    exact hcomposed

-- thirty-one marks on one letter are composed, but one too many
example :
    let s := String.ofList ('a' :: List.replicate 31 (Char.ofNat 0x316))
    IsComposed s ∧ ¬HasShortRuns s := by
  decide +kernel

theorem isNormal_normalize (s : String) : IsNormal (normalize s) :=
  isNormal_iff.mpr ⟨isComposed_normalize s, hasShortRuns_normalize s⟩

/-- Only the empty text has an empty normal form. -/
theorem isEmpty_normalize (s : String) : (normalize s).isEmpty = s.isEmpty := by
  rw [Bool.eq_iff_iff, String.isEmpty_iff, String.isEmpty_iff]
  refine ⟨fun h => ?_, fun h => by rw [h]; rfl⟩
  have hvalid : ∀ n ∈ breakRuns 0 (codePoints s), n.isValidChar :=
    valid_of_mem_breakRuns valid_of_mem_codePoints
  have hcomposed : compose (breakRuns 0 (codePoints s)) = [] := by
    rw [normalize_eq] at h
    rw [← codePoints_ofCodePoints (valid_of_mem_compose hvalid), h]
    rfl
  -- no letter is lost when they are ordered and composed
  have hletters : ∀ n, n ∉ (breakRuns 0 (codePoints s)).flatMap decompose := by
    intro n hn
    have horder := orderMarks_compose hvalid
    rw [hcomposed] at horder
    rw [← mem_orderMarks, ← horder] at hn
    cases hn
  have hbroken : breakRuns 0 (codePoints s) = [] := by
    refine List.eq_nil_iff_forall_not_mem.mpr fun n hn => ?_
    obtain ⟨m, hm⟩ := List.exists_mem_of_ne_nil _ (decompose_ne_nil n)
    exact hletters m (List.mem_flatMap.mpr ⟨n, hn, hm⟩)
  have hcodes : codePoints s = [] := by
    cases hs : codePoints s with
    | nil => rfl
    | cons n ns =>
      rw [hs, breakRuns] at hbroken
      split at hbroken <;> cases hbroken
  rw [← ofCodePoints_codePoints s, hcodes]
  rfl

end CypherBlocks.Text
