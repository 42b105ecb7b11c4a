import CypherBlocks.Proofs.ArgumentNames
import CypherBlocks.Proofs.ByteOrder
import CypherBlocks.Proofs.Conversions

/-!
# Decoding the body of a block

Each argument of a body comes to something by itself: a value for its name, nothing if it is null,
or an error.  A body is accepted exactly if all of its arguments are, and then each value is in its
place and everything else is as in a block without arguments.  If a body is not accepted, the error
is that of the first argument that has one, in the order of the names.  So it does not matter in
which order the arguments are written.
-/

namespace CypherBlocks

open Config (Argument Content Range Value)

theorem Params.argumentTy?_labelName (kind : Kind) :
    argumentTy? kind Document.labelName = none := by
  cases h : argumentTy? kind Document.labelName with
  | none => rfl
  | some ty =>
    obtain ⟨v, hv, -⟩ := exists_mem_of_argumentTy? h
    exact absurd (List.mem_map_of_mem hv) (labelName_not_mem _)

theorem Params.ne_labelName_of_argumentTy? {kind : Kind} {name : String} {ty : ArgumentTy}
    (h : argumentTy? kind name = some ty) : name ≠ Document.labelName := by
  rintro rfl
  rw [argumentTy?_labelName] at h
  cases h

theorem Params.mem_names_of_argumentTy? {p : Params} {name : String} {ty : ArgumentTy}
    (h : argumentTy? p.kind name = some ty) : name ∈ p.arguments.map (·.1) := by
  have hnames : (zero p.kind).arguments.map (·.1) = p.arguments.map (·.1) := by cases p <;> rfl
  obtain ⟨v, hv, -⟩ := exists_mem_of_argumentTy? h
  rw [← hnames]
  exact List.mem_map_of_mem hv

theorem mem_setArgument_self {arguments : List (String × ArgumentValue)} {name : String}
    (h : name ∈ arguments.map (·.1)) (v : ArgumentValue) :
    (name, v) ∈ setArgument arguments name v := by
  obtain ⟨a, ha, rfl⟩ := List.mem_map.mp h
  exact List.mem_map.mpr ⟨a, ha, if_pos rfl⟩

theorem mem_setArgument_of_ne {arguments : List (String × ArgumentValue)}
    {a : String × ArgumentValue} (ha : a ∈ arguments) {name : String} (h : a.1 ≠ name)
    (v : ArgumentValue) : a ∈ setArgument arguments name v :=
  List.mem_map.mpr ⟨a, ha, if_neg h⟩

namespace Document

/-! ## 1. One argument -/

/-- What an argument comes to, whatever other arguments there are. -/
def outcome (kind : Kind) (a : Argument) :
    List Log.Record × Except BodyError (Option ArgumentValue) :=
  match a.value with
  | .error p => ([], .error (.problem p))
  | .ok v =>
    if a.name = labelName then
      ((decodeValue .text v).1,
        ((decodeValue .text v).2.map some).mapError (.misfit a.range a.name))
    else
      match Params.argumentTy? kind a.name with
      | none => ([], .error (.unsupported a.range a.name))
      | some ty =>
        if v.isNull then
          ([Log.debug "Argument is null, leaving zero value." [("argument", .text a.name)]],
            .ok none)
        else ((decodeValue ty v).1,
          ((decodeValue ty v).2.map some).mapError (.misfit a.range a.name))

/-- Puts the value of an argument in its place. -/
def Decoded.assign (d : Decoded) (name : String) : Option ArgumentValue → Decoded
  | none => d
  | some (.text s) =>
    if name = labelName then { d with label := s }
    else { d with params := d.params.set name (.text s) }
  | some x => if name = labelName then d else { d with params := d.params.set name x }

theorem decodeArgument_eq (d : Decoded) (a : Argument) :
    decodeArgument d a = ((outcome d.params.kind a).1,
      (outcome d.params.kind a).2.map (d.assign a.name)) := by
  unfold decodeArgument outcome
  cases a.value with
  | error p => rfl
  | ok v =>
    -- the label is taken before the other names, and without asking whether it is null
    by_cases hlabel : a.name = labelName
    · simp only [hlabel, if_true]
      rcases decodeValue .text v with ⟨log, e | x⟩
      · rfl
      · cases x <;> simp [Except.map, Except.mapError, Decoded.assign]
    · simp only [hlabel, if_false]
      cases Params.argumentTy? d.params.kind a.name with
      | none => rfl
      | some ty =>
        cases v.isNull with
        | true => rfl
        | false =>
          simp only [Bool.false_eq_true, if_false]
          rcases decodeValue ty v with ⟨log, e | x⟩
          · rfl
          · cases x <;> simp [Except.map, Except.mapError, Decoded.assign, hlabel]

/-- Why an argument is not accepted: its expression has no value, its name is not known, or its
value does not fit. -/
inductive Fails (kind : Kind) (a : Argument) : BodyError → Prop where
  | evaluation {p : Config.Problem} (value : a.value = .error p) : Fails kind a (.problem p)
  | unsupported {v : Value} (value : a.value = .ok v) (noLabel : a.name ≠ labelName)
      (noArgument : Params.argumentTy? kind a.name = none) :
      Fails kind a (.unsupported a.range a.name)
  | label {v : Value} {cause : Misfit} (value : a.value = .ok v) (label : a.name = labelName)
      (misfit : (decodeValue .text v).2 = .error cause) :
      Fails kind a (.misfit a.range a.name cause)
  | argument {v : Value} {ty : ArgumentTy} {cause : Misfit} (value : a.value = .ok v)
      (argument : Params.argumentTy? kind a.name = some ty) (notNull : v.isNull = false)
      (misfit : (decodeValue ty v).2 = .error cause) : Fails kind a (.misfit a.range a.name cause)

/-- The value that an argument gives to its name. -/
inductive Yields (kind : Kind) (a : Argument) : Option ArgumentValue → Prop where
  | null {v : Value} {ty : ArgumentTy} (value : a.value = .ok v)
      (argument : Params.argumentTy? kind a.name = some ty) (null : v.isNull = true) :
      Yields kind a none
  | label {v : Value} {x : ArgumentValue} (value : a.value = .ok v) (label : a.name = labelName)
      (converts : Converts .text v x) : Yields kind a (some x)
  | argument {v : Value} {ty : ArgumentTy} {x : ArgumentValue} (value : a.value = .ok v)
      (argument : Params.argumentTy? kind a.name = some ty) (notNull : v.isNull = false)
      (converts : Converts ty v x) : Yields kind a (some x)

variable {kind : Kind} {a : Argument}

theorem Fails.outcome_eq {e : BodyError} (h : Fails kind a e) : (outcome kind a).2 = .error e := by
  unfold outcome
  cases h with
  | evaluation value => rw [value]
  | unsupported value noLabel noArgument => simp only [value, noLabel, if_false, noArgument]
  | label value label misfit =>
    simp only [value, label, if_true, misfit, Except.map, Except.mapError]
  | argument value argument notNull misfit =>
    have noLabel := Params.ne_labelName_of_argumentTy? argument
    simp only [value, noLabel, if_false, argument, notNull, Bool.false_eq_true, misfit, Except.map,
      Except.mapError]

theorem Yields.outcome_eq {x : Option ArgumentValue} (h : Yields kind a x) :
    (outcome kind a).2 = .ok x := by
  unfold outcome
  cases h with
  | null value argument null =>
    have noLabel := Params.ne_labelName_of_argumentTy? argument
    simp only [value, noLabel, if_false, argument, null, if_true]
  | label value label converts =>
    have hdecode := (decodeValue_eq_ok_iff (by simp)).mpr converts
    simp only [value, label, if_true, hdecode, Except.map, Except.mapError]
  | argument value argument notNull converts =>
    have noLabel := Params.ne_labelName_of_argumentTy? argument
    have hdecode := (decodeValue_eq_ok_iff fun _ => notNull).mpr converts
    simp only [value, noLabel, if_false, argument, notNull, Bool.false_eq_true, hdecode, Except.map,
      Except.mapError]

/-- There is no third way. -/
theorem yields_or_fails (kind : Kind) (a : Argument) :
    (∃ x, Yields kind a x) ∨ ∃ e, Fails kind a e := by
  cases hvalue : a.value with
  | error p => exact .inr ⟨_, .evaluation hvalue⟩
  | ok v =>
    by_cases hlabel : a.name = labelName
    · cases hdecode : (decodeValue .text v).2 with
      | error cause => exact .inr ⟨_, .label hvalue hlabel hdecode⟩
      | ok x => exact .inl ⟨_, .label hvalue hlabel ((decodeValue_eq_ok_iff (by simp)).mp hdecode)⟩
    · cases hargument : Params.argumentTy? kind a.name with
      | none => exact .inr ⟨_, .unsupported hvalue hlabel hargument⟩
      | some ty =>
        cases hnull : v.isNull with
        | true => exact .inl ⟨_, .null hvalue hargument hnull⟩
        | false =>
          cases hdecode : (decodeValue ty v).2 with
          | error cause => exact .inr ⟨_, .argument hvalue hargument hnull hdecode⟩
          | ok x =>
            exact .inl ⟨_, .argument hvalue hargument hnull
              ((decodeValue_eq_ok_iff fun _ => hnull).mp hdecode)⟩

theorem outcome_eq_error_iff {e : BodyError} : (outcome kind a).2 = .error e ↔ Fails kind a e := by
  refine ⟨fun h => ?_, Fails.outcome_eq⟩
  rcases yields_or_fails kind a with ⟨x, hx⟩ | ⟨e', he⟩
  · rw [hx.outcome_eq] at h
    cases h
  · cases he.outcome_eq.symm.trans h
    exact he

theorem outcome_eq_ok_iff {x : Option ArgumentValue} :
    (outcome kind a).2 = .ok x ↔ Yields kind a x := by
  refine ⟨fun h => ?_, Yields.outcome_eq⟩
  rcases yields_or_fails kind a with ⟨x', hx⟩ | ⟨e, he⟩
  · cases hx.outcome_eq.symm.trans h
    exact hx
  · rw [he.outcome_eq] at h
    cases h

/-- A value sets the argument of its name and no other. -/
theorem Yields.arguments_assign {d : Decoded} {x : ArgumentValue}
    (h : Yields d.params.kind a (some x)) :
    (d.assign a.name (some x)).params.kind = d.params.kind ∧
      (d.assign a.name (some x)).arguments = setArgument d.arguments a.name x ∧
      a.name ∈ d.arguments.map (·.1) := by
  cases h with
  | label value label converts =>
    cases converts with
    | @text _ s _ =>
      refine ⟨?_, ?_, ?_⟩
      · simp [Decoded.assign, label]
      · simp only [Decoded.assign, label, if_true, Decoded.arguments]
        exact (setArgument_cons_self _ _ _ d.params.labelName_not_mem).symm
      · simp [Decoded.arguments, label]
  | argument value argument notNull converts =>
    have noLabel := Params.ne_labelName_of_argumentTy? argument
    obtain ⟨hkind, hset⟩ := Params.arguments_set (converts.ty_eq ▸ argument)
    have hassign : d.assign a.name (some x) = { d with params := d.params.set a.name x } := by
      cases x <;> simp [Decoded.assign, noLabel]
    rw [hassign]
    refine ⟨hkind, ?_, List.mem_cons_of_mem _ (Params.mem_names_of_argumentTy? argument)⟩
    rw [Decoded.arguments, Decoded.arguments, setArgument_cons_of_ne x noLabel.symm, hset]

/-! ## 2. All arguments, one after the other -/

variable {d d' : Decoded} {as : List Argument}

theorem decodeArguments_cons (d : Decoded) (a : Argument) (as : List Argument) :
    (decodeArguments d (a :: as)).2 = ((decodeArgument d a).2 >>= fun d' =>
      (decodeArguments d' as).2) := by
  rw [decodeArguments]
  rcases decodeArgument d a with ⟨log, e | d'⟩ <;> rfl

theorem decodeArgument_eq_ok_iff :
    (decodeArgument d a).2 = .ok d' ↔ ∃ x, Yields d.params.kind a x ∧ d.assign a.name x = d' := by
  rw [decodeArgument_eq, map_eq_ok_iff]
  simp only [outcome_eq_ok_iff]

theorem decodeArgument_eq_error_iff {e : BodyError} :
    (decodeArgument d a).2 = .error e ↔ Fails d.params.kind a e := by
  rw [decodeArgument_eq, ← outcome_eq_error_iff]
  cases (outcome d.params.kind a).2 <;> simp [Except.map]

/-- An argument leaves the kind as it is. -/
theorem kind_of_decodeArgument (h : (decodeArgument d a).2 = .ok d') :
    d'.params.kind = d.params.kind := by
  obtain ⟨x, hx, rfl⟩ := decodeArgument_eq_ok_iff.mp h
  cases x with
  | none => rfl
  | some x => exact hx.arguments_assign.1

/-- All arguments are taken over exactly if each of them gives something. -/
theorem exists_decodeArguments_iff :
    (∃ d', (decodeArguments d as).2 = .ok d') ↔ ∀ a ∈ as, ∃ x, Yields d.params.kind a x := by
  induction as generalizing d with
  | nil => simp [decodeArguments]
  | cons a as ih =>
    simp only [decodeArguments_cons, bind_eq_ok_iff, List.forall_mem_cons]
    constructor
    · rintro ⟨d', d₁, hd₁, h⟩
      obtain ⟨x, hx, -⟩ := decodeArgument_eq_ok_iff.mp hd₁
      refine ⟨⟨x, hx⟩, ?_⟩
      rw [← kind_of_decodeArgument hd₁]
      exact ih.mp ⟨d', h⟩
    · rintro ⟨⟨x, hx⟩, has⟩
      have hd₁ : (decodeArgument d a).2 = .ok (d.assign a.name x) :=
        decodeArgument_eq_ok_iff.mpr ⟨x, hx, rfl⟩
      rw [← kind_of_decodeArgument hd₁] at has
      obtain ⟨d', h⟩ := ih.mpr has
      exact ⟨d', _, hd₁, h⟩

/-- Each value is put in its place, and what no value is for stays. -/
theorem decodeArguments_places (hdistinct : (as.map (·.name)).Nodup)
    (h : (decodeArguments d as).2 = .ok d') :
    d'.params.kind = d.params.kind ∧
      (∀ a ∈ as, ∀ x, Yields d.params.kind a (some x) → (a.name, x) ∈ d'.arguments) ∧
      ∀ b ∈ d.arguments, (∀ a ∈ as, a.name = b.1 → Yields d.params.kind a none) →
        b ∈ d'.arguments := by
  induction as generalizing d with
  | nil =>
    cases h
    exact ⟨rfl, by simp, fun b hb _ => hb⟩
  | cons a as ih =>
    rw [decodeArguments_cons] at h
    obtain ⟨d₁, hd₁, h⟩ := bind_eq_ok_iff.mp h
    obtain ⟨hfresh, hdistinct⟩ := List.nodup_cons.mp hdistinct
    have hkind := kind_of_decodeArgument hd₁
    obtain ⟨x, hx, rfl⟩ := decodeArgument_eq_ok_iff.mp hd₁
    obtain ⟨hkind', hplaced, hkept⟩ := ih hdistinct h
    rw [hkind] at hkind' hplaced hkept
    -- no other argument has the name of this one
    have hother : ∀ b ∈ as, b.name ≠ a.name :=
      fun b hb heq => hfresh (List.mem_map.mpr ⟨b, hb, heq⟩)
    refine ⟨hkind', List.forall_mem_cons.mpr ⟨?_, hplaced⟩, ?_⟩
    · intro y hy
      obtain rfl : x = some y := Except.ok.inj (hx.outcome_eq.symm.trans hy.outcome_eq)
      obtain ⟨-, hset, hmem⟩ := hx.arguments_assign
      refine hkept _ ?_ fun b hb heq => absurd heq (hother b hb)
      rw [hset]
      exact mem_setArgument_self hmem y
    · intro b hb hnone
      obtain ⟨ha, hnone⟩ := List.forall_mem_cons.mp hnone
      refine hkept b ?_ hnone
      cases x with
      | none => exact hb
      | some y =>
        have hne : b.1 ≠ a.name := by
          intro heq
          have hcontra := hx.outcome_eq.symm.trans (ha heq.symm).outcome_eq
          cases hcontra
        rw [hx.arguments_assign.2.1]
        exact mem_setArgument_of_ne hb hne y

/-- The error is that of the first argument that fails. -/
theorem decodeArguments_eq_error_iff {e : BodyError} : (decodeArguments d as).2 = .error e ↔
    ∃ before a after, as = before ++ a :: after ∧ (∀ b ∈ before, ∃ x, Yields d.params.kind b x) ∧
      Fails d.params.kind a e := by
  induction as generalizing d with
  | nil => simp [decodeArguments]
  | cons a as ih =>
    rw [decodeArguments_cons, exists_split_cons_iff]
    -- either this argument fails, or it yields something and the failure is in the rest
    cases ha : (decodeArgument d a).2 with
    | error e' =>
      have hfails := decodeArgument_eq_error_iff.mp ha
      constructor
      · intro h
        cases h
        exact .inl ⟨by simp, hfails⟩
      · rintro (⟨-, ha'⟩ | ⟨before, b, after, -, hbefore, -⟩)
        · exact ha.symm.trans (decodeArgument_eq_error_iff.mpr ha')
        · obtain ⟨x, hx⟩ := hbefore a List.mem_cons_self
          cases hx.outcome_eq.symm.trans hfails.outcome_eq
    | ok d₁ =>
      obtain ⟨x, hx, -⟩ := decodeArgument_eq_ok_iff.mp ha
      have hkind := kind_of_decodeArgument ha
      change (decodeArguments d₁ as).2 = .error e ↔ _
      rw [ih, hkind]
      constructor
      · rintro ⟨before, b, after, rfl, hbefore, hb⟩
        exact .inr ⟨before, b, after, rfl, List.forall_mem_cons.mpr ⟨⟨x, hx⟩, hbefore⟩, hb⟩
      · rintro (⟨-, ha'⟩ | ⟨before, b, after, rfl, hbefore, hb⟩)
        · cases hx.outcome_eq.symm.trans ha'.outcome_eq
        · exact ⟨before, b, after, rfl, (List.forall_mem_cons.mp hbefore).2, hb⟩

/-! ## 3. Arguments in the order of their names -/

theorem sortByName_perm (as : List Argument) : (sortByName as).Perm as := List.mergeSort_perm as _

theorem sortByName_pairwise (as : List Argument) :
    (sortByName as).Pairwise fun a b => a.name ≤ b.name := by
  have htrans : ∀ a b c : Argument, decide (a.name ≤ b.name) = true →
      decide (b.name ≤ c.name) = true → decide (a.name ≤ c.name) = true := by
    simpa using fun a b c : Argument => le_trans
  have htotal : ∀ a b : Argument,
      (decide (a.name ≤ b.name) || decide (b.name ≤ a.name)) = true := by
    simpa using fun a b : Argument => le_total a.name b.name
  exact (List.pairwise_mergeSort htrans htotal as).imp of_decide_eq_true

theorem nodup_sortByName (h : (as.map (·.name)).Nodup) : ((sortByName as).map (·.name)).Nodup :=
  ((sortByName_perm as).map _).nodup_iff.mpr h

/-- Of the arguments that fail, the first by name is the one that is reported. -/
theorem decodeArguments_sortByName_eq_error_iff (hdistinct : (as.map (·.name)).Nodup)
    {e : BodyError} :
    (decodeArguments d (sortByName as)).2 = .error e ↔
      ∃ a ∈ as, Fails d.params.kind a e ∧ ∀ b ∈ as, (∃ e', Fails d.params.kind b e') →
        Text.bytes a.name ≤ Text.bytes b.name := by
  have hmem : ∀ b, b ∈ as ↔ b ∈ sortByName as := fun b => (sortByName_perm as).mem_iff.symm
  simp only [decodeArguments_eq_error_iff, hmem, Text.bytes_le_iff]
  have hsorted := sortByName_pairwise as
  have hdistinct := nodup_sortByName hdistinct
  generalize sortByName as = bs at hsorted hdistinct
  constructor
  · rintro ⟨before, a, after, rfl, hbefore, ha⟩
    refine ⟨a, by simp, ha, fun b hb ⟨e', hb'⟩ => ?_⟩
    rcases List.mem_append.mp hb with hb | hb
    · obtain ⟨x, hx⟩ := hbefore b hb
      cases hx.outcome_eq.symm.trans hb'.outcome_eq
    · rcases List.mem_cons.mp hb with rfl | hb
      · exact le_refl _
      · exact (List.pairwise_cons.mp (List.pairwise_append.mp hsorted).2.1).1 b hb
  · rintro ⟨a, ha, hfails, hfirst⟩
    obtain ⟨before, after, rfl⟩ := List.append_of_mem ha
    refine ⟨before, a, after, rfl, fun b hb => ?_, hfails⟩
    rcases yields_or_fails d.params.kind b with hx | he
    · exact hx
    -- it would come before the first one that fails, or have the same name
    · have hle := hfirst b (List.mem_append_left _ hb) he
      have hge := (List.pairwise_append.mp hsorted).2.2 b hb a List.mem_cons_self
      rw [List.map_append, List.nodup_append] at hdistinct
      exact absurd (le_antisymm hge hle)
        (hdistinct.2.2 _ (List.mem_map_of_mem hb) _ (List.mem_map_of_mem List.mem_cons_self))

/-! ## 4. Places do not matter -/

/-- The same error at another place. -/
def BodyError.placed (r : Range) : BodyError → BodyError
  | .problem p => .problem p
  | .unsupported _ name => .unsupported r name
  | .misfit _ name cause => .misfit r name cause

/-- The same argument at another place. -/
def placed (r : Range) (a : Argument) : Argument := { a with range := r }

theorem outcome_placed (kind : Kind) (r : Range) (a : Argument) :
    outcome kind (placed r a) = ((outcome kind a).1, (outcome kind a).2.mapError (.placed r)) := by
  have hmisfit : ∀ (x : Except Misfit ArgumentValue),
      (x.map some).mapError (BodyError.misfit r a.name) =
      ((x.map some).mapError (BodyError.misfit a.range a.name)).mapError (.placed r) := by
    intro x
    cases x <;> rfl
  unfold outcome placed
  cases a.value with
  | error p => rfl
  | ok v =>
    by_cases hlabel : a.name = labelName
    · simp only [hlabel, if_true]
      rw [← hlabel, hmisfit]
    · simp only [hlabel, if_false, hmisfit]
      cases Params.argumentTy? kind a.name with
      | none => rfl
      | some ty => cases v.isNull <;> rfl

theorem decodeArguments_placed (r : Range) (d : Decoded) (as : List Argument) :
    decodeArguments d (as.map (placed r)) = ((decodeArguments d as).1,
      (decodeArguments d as).2.mapError (.placed r)) := by
  induction as generalizing d with
  | nil => rfl
  | cons a as ih =>
    have hname : (placed r a).name = a.name := rfl
    rw [List.map_cons, decodeArguments, decodeArguments, decodeArgument_eq, decodeArgument_eq,
      outcome_placed, hname]
    rcases outcome d.params.kind a with ⟨log, e | x⟩
    · rfl
    · simp only [Except.mapError, Except.map, ih]

theorem sortByName_placed (r : Range) (as : List Argument) :
    sortByName (as.map (placed r)) = (sortByName as).map (placed r) := by
  have hnames : ∀ a ∈ as, ∀ b ∈ as,
      decide (a.name ≤ b.name) = decide ((placed r a).name ≤ (placed r b).name) :=
    fun _ _ _ _ => rfl
  exact (List.map_mergeSort hnames).symm

/-- Arguments with different names can be sorted in one way only. -/
theorem sortByName_eq_of_perm {bs : List Argument} (hdistinct : (as.map (·.name)).Nodup)
    (h : as.Perm bs) : sortByName as = sortByName bs := by
  have hperm : (sortByName as).Perm (sortByName bs) :=
    (sortByName_perm as).trans (h.trans (sortByName_perm bs).symm)
  refine hperm.eq_of_pairwise ?_ (sortByName_pairwise as) (sortByName_pairwise bs)
  intro a b ha hb hab hba
  exact List.inj_on_of_nodup_map (nodup_sortByName hdistinct) ha (hperm.mem_iff.mpr hb)
    (le_antisymm hab hba)

/-- Arguments of the same names and values, in any order and at any places. -/
def SameArguments (as bs : List Argument) : Prop :=
  (as.map fun a => (a.name, a.value)).Perm (bs.map fun a => (a.name, a.value))

theorem SameArguments.placed {bs : List Argument} (h : SameArguments as bs) (r : Range) :
    (as.map (placed r)).Perm (bs.map (placed r)) := by
  have hmap := h.map fun p : String × Except Config.Problem Value => Argument.mk p.1 r p.2
  rwa [List.map_map, List.map_map] at hmap

/-- The order in which arguments are written does not matter. -/
theorem decodeArguments_sortByName_congr {bs : List Argument}
    (hdistinct : (as.map (·.name)).Nodup) (h : SameArguments as bs) (r : Range) (d : Decoded) :
    (decodeArguments d (sortByName as)).1 = (decodeArguments d (sortByName bs)).1 ∧
      (decodeArguments d (sortByName as)).2.mapError (BodyError.placed r) =
        (decodeArguments d (sortByName bs)).2.mapError (BodyError.placed r) := by
  have hdistinct' : ((as.map (Document.placed r)).map (·.name)).Nodup := by
    rwa [List.map_map]
  have hsorted := sortByName_eq_of_perm hdistinct' (h.placed r)
  rw [sortByName_placed, sortByName_placed] at hsorted
  have hdecode := congrArg (decodeArguments d) hsorted
  rw [decodeArguments_placed, decodeArguments_placed] at hdecode
  exact Prod.mk.inj hdecode

/-! ## 5. Whole bodies -/

/-- An argument gives something exactly if it has a value, a name that is known and a value that
fits. -/
theorem exists_yields_iff :
    (∃ x, Yields kind a x) ↔
      ∃ v, a.value = .ok v ∧ (a.name = labelName ∧ (∃ x, Converts .text v x) ∨
    ∃ ty, Params.argumentTy? kind a.name = some ty ∧ (v.isNull = true ∨ ∃ x, Converts ty v x)) := by
  constructor
  · rintro ⟨x, hx⟩
    cases hx with
    | @null v ty value argument null => exact ⟨v, value, .inr ⟨ty, argument, .inl null⟩⟩
    | @label v x value label converts => exact ⟨v, value, .inl ⟨label, x, converts⟩⟩
    | @argument v ty x value argument notNull converts =>
      exact ⟨v, value, .inr ⟨ty, argument, .inr ⟨x, converts⟩⟩⟩
  · rintro ⟨v, value, ⟨label, x, converts⟩ | ⟨ty, argument, hfits⟩⟩
    · exact ⟨_, .label value label converts⟩
    · cases hnull : v.isNull with
      | true => exact ⟨_, .null value argument hnull⟩
      | false =>
        rcases hfits with null | ⟨x, converts⟩
        · rw [hnull] at null
          cases null
        · exact ⟨_, .argument value argument hnull converts⟩

theorem exists_yields_of_not_null {x : Option ArgumentValue} (h : Yields kind a x) {v : Value}
    (hv : a.value = .ok v) (hnull : v.isNull = false) {ty : ArgumentTy}
    (hty : a.name = labelName ∧ ty = .text ∨ Params.argumentTy? kind a.name = some ty) :
    ∃ y, Yields kind a (some y) ∧ Converts ty v y := by
  cases h with
  | null value argument null =>
    cases hv.symm.trans value
    rw [hnull] at null
    cases null
  | label value label converts =>
    cases hv.symm.trans value
    rcases hty with ⟨-, rfl⟩ | hty
    · exact ⟨_, .label value label converts, converts⟩
    · exact absurd label (Params.ne_labelName_of_argumentTy? hty)
  | argument value argument notNull converts =>
    cases hv.symm.trans value
    rcases hty with ⟨label, -⟩ | hty
    · exact absurd label (Params.ne_labelName_of_argumentTy? argument)
    · cases argument.symm.trans hty
      exact ⟨_, .argument value argument notNull converts, converts⟩

/-- A label is never null. -/
theorem yields_none_of_null {x : Option ArgumentValue} (h : Yields kind a x) {v : Value}
    (hv : a.value = .ok v) (hnull : v.isNull = true) : Yields kind a none := by
  cases h with
  | null value argument null => exact .null value argument null
  | label value label converts =>
    cases hv.symm.trans value
    rw [converts.isNull_eq_false] at hnull
    cases hnull
  | argument value argument notNull converts =>
    cases hv.symm.trans value
    rw [hnull] at notNull
    cases notNull

/-- A name has one value. -/
theorem Decoded.mem_arguments_iff {name : String} {x : ArgumentValue}
    (h : (name, x) ∈ d.arguments) (y : ArgumentValue) : (name, y) ∈ d.arguments ↔ y = x := by
  refine ⟨fun hy => ?_, fun hy => hy ▸ h⟩
  exact (Prod.mk.inj (List.inj_on_of_nodup_map d.nodup_arguments hy h rfl)).2

theorem decodeBody_eq {content : Content} (h : content.arguments = .ok as) (kind : Kind) :
    decodeBody kind content = decodeArguments ⟨"", Params.zero kind⟩ (sortByName as) := by
  rw [decodeBody, h]

/-- The arguments of a body that is read have different names.  Such a body is accepted exactly if
each argument has a value that fits its name; then each value is in its place, and what has none is
zero.  Otherwise the error is that of the first argument, in the order of the bytes of their names,
that has one.  The order in which they are written changes nothing but the places in an error. -/
theorem decodeBody_exact :
    (∀ content as, Config.IsRead content → content.arguments = .ok as → (as.map (·.name)).Nodup) ∧
    ∀ kind content as, content.arguments = .ok as → (as.map (·.name)).Nodup →
      ((∃ d, (decodeBody kind content).2 = .ok d) ↔
        ∀ a ∈ as, ∃ v, a.value = .ok v ∧ (a.name = labelName ∧ (∃ x, Converts .text v x) ∨
          ∃ ty, Params.argumentTy? kind a.name = some ty ∧
            (v.isNull = true ∨ ∃ x, Converts ty v x))) ∧
      (∀ d, (decodeBody kind content).2 = .ok d →
        d.params.kind = kind ∧
        (∀ a ∈ as, ∀ v, a.value = .ok v → v.isNull = false →
          ∀ ty, a.name = labelName ∧ ty = .text ∨ Params.argumentTy? kind a.name = some ty →
            ∀ y, (a.name, y) ∈ d.arguments ↔ Converts ty v y) ∧
        ∀ b ∈ (Decoded.mk "" (Params.zero kind)).arguments,
          (∀ a ∈ as, a.name = b.1 → ∃ v, a.value = .ok v ∧ v.isNull = true) →
            ∀ y, (b.1, y) ∈ d.arguments ↔ y = b.2) ∧
      (∀ e, (decodeBody kind content).2 = .error e ↔
        ∃ a ∈ as, Fails kind a e ∧ ∀ b ∈ as, (∃ e', Fails kind b e') →
          Text.bytes a.name ≤ Text.bytes b.name) ∧
      ∀ content' bs, content'.arguments = .ok bs → SameArguments as bs → ∀ r,
        (decodeBody kind content).1 = (decodeBody kind content').1 ∧
          (decodeBody kind content).2.mapError (BodyError.placed r) =
            (decodeBody kind content').2.mapError (BodyError.placed r) := by
  refine ⟨fun content as hread has => hread.nodup_arguments has,
    fun kind content as has hdistinct => ?_⟩
  -- the arguments are read in the order of their names, and every part is about that reading
  have hmem : ∀ a, a ∈ sortByName as ↔ a ∈ as := fun a => (sortByName_perm as).mem_iff
  have hkind : (Decoded.mk "" (Params.zero kind)).params.kind = kind := Params.kind_zero kind
  have haccepted : (∃ d, (decodeArguments ⟨"", Params.zero kind⟩ (sortByName as)).2 = .ok d) ↔
      ∀ a ∈ as, ∃ x, Yields kind a x := by
    simp only [exists_decodeArguments_iff, hmem, hkind]
  refine ⟨?_, ?_, ?_, ?_⟩
  · rw [decodeBody_eq has, haccepted]
    simp only [exists_yields_iff]
  · intro d hd
    rw [decodeBody_eq has] at hd
    have hyields := haccepted.mp ⟨d, hd⟩
    obtain ⟨hkept, hplaced, hzero⟩ := decodeArguments_places (nodup_sortByName hdistinct) hd
    simp only [hmem, hkind] at hkept hplaced hzero
    refine ⟨hkept, fun a ha v hv hnull ty hty => ?_, fun b hb hnone => ?_⟩
    · obtain ⟨x, hx⟩ := hyields a ha
      obtain ⟨y, hy, hconverts⟩ := exists_yields_of_not_null hx hv hnull hty
      -- a name stands for one value, and so nothing else is in its place
      intro z
      rw [Decoded.mem_arguments_iff (hplaced a ha y hy)]
      exact ⟨fun hz => hz ▸ hconverts, fun hz => hz.unique hconverts⟩
    · refine Decoded.mem_arguments_iff (hzero b hb fun a ha hname => ?_)
      obtain ⟨v, hv, hnull⟩ := hnone a ha hname
      obtain ⟨x, hx⟩ := hyields a ha
      exact yields_none_of_null hx hv hnull
  · intro e
    rw [decodeBody_eq has, decodeArguments_sortByName_eq_error_iff hdistinct, hkind]
  · intro content' bs hbs hsame r
    rw [decodeBody_eq has, decodeBody_eq hbs]
    exact decodeArguments_sortByName_congr hdistinct hsame r _

/-- A depth that is no number, and an argument that a walk does not have. -/
def brokenWalk : String := "label = true\ndepth = true\nZoom = null\n"

def brokenBody : Config.Body :=
  ⟨[⟨"label", .literal (.bool true), ⟨⟨1, 1⟩, ⟨1, 13⟩⟩⟩,
    ⟨"depth", .literal (.bool true), ⟨⟨2, 1⟩, ⟨2, 13⟩⟩⟩,
    ⟨"Zoom", .literal .null, ⟨⟨3, 1⟩, ⟨3, 12⟩⟩⟩], []⟩

/-- The tokens of a line that gives an argument a word for its value. -/
def wordLine (line : Nat) (name word : String) : List Config.Token :=
  let sign := name.length + 2
  let last := sign + 2 + word.length
  [⟨.identifier, name, ⟨⟨line, 1⟩, ⟨line, name.length + 1⟩⟩⟩,
    ⟨.assign, "=", ⟨⟨line, sign⟩, ⟨line, sign + 1⟩⟩⟩,
    ⟨.identifier, word, ⟨⟨line, sign + 2⟩, ⟨line, last⟩⟩⟩,
    ⟨.newline, "\n", ⟨⟨line, last⟩, ⟨line + 1, 1⟩⟩⟩]

theorem parse_brokenWalk :
    Config.parse .native (Text.symbolsOf brokenWalk) = .ok (.native brokenBody) := by
  have htokens : Config.tokens (Text.symbolsOf brokenWalk) =
      wordLine 1 "label" "true" ++ wordLine 2 "depth" "true" ++ wordLine 3 "Zoom" "null" ++
        [Config.Cursor.endToken ⟨4, 1⟩] := by
    decide +kernel
  rw [Config.parse, Config.parseFile, htokens]
  rfl

/-- A direction that is left open, and the greatest depth there is. -/
def deepestWalk : List Config.Attribute :=
  [⟨"direction", .literal .null, ⟨⟨1, 1⟩, ⟨1, 17⟩⟩⟩,
   ⟨"depth", .literal (.number ⟨512, false, .finite 9223372036854775807 0⟩), ⟨⟨2, 1⟩, ⟨2, 28⟩⟩⟩]

/-- Of the two arguments that fail, the one with a capital letter comes first.  The greatest depth
is taken over as it is, in either order. -/
theorem walks_decode :
    (decodeBody .neighborhood (.native brokenBody)).2 =
      .error (.unsupported ⟨⟨3, 1⟩, ⟨3, 12⟩⟩ "Zoom") ∧
      ∃ d, (decodeBody .neighborhood (.native ⟨deepestWalk, []⟩)).2 = .ok d ∧
        (decodeBody .neighborhood (.native ⟨deepestWalk.reverse, []⟩)).2 = .ok d ∧
        ("depth", .whole 9223372036854775807) ∈ d.arguments ∧
          ("direction", .text "") ∈ d.arguments := by
  obtain ⟨hread, hexact⟩ := decodeBody_exact
  constructor
  · let zoom : Argument := ⟨"Zoom", ⟨⟨3, 1⟩, ⟨3, 12⟩⟩, .ok (.null .dynamic)⟩
    let depth : Argument := ⟨"depth", ⟨⟨2, 1⟩, ⟨2, 13⟩⟩, .ok (.bool true)⟩
    let label : Argument := ⟨"label", ⟨⟨1, 1⟩, ⟨1, 13⟩⟩, .ok (.bool true)⟩
    have harguments : (Content.native brokenBody).arguments = .ok [label, depth, zoom] := rfl
    obtain ⟨-, -, herror, -⟩ :=
      hexact .neighborhood _ _ harguments (hread _ _ (.file parse_brokenWalk) harguments)
    have hfails : Fails .neighborhood zoom (.unsupported zoom.range zoom.name) :=
      .unsupported rfl (by decide) (by decide)
    -- capital letters come before small ones
    have hfirst : ∀ b ∈ [label, depth, zoom], Text.bytes zoom.name ≤ Text.bytes b.name := by
      decide +kernel
    exact (herror _).mpr ⟨zoom, by simp, hfails, fun b hb _ => hfirst b hb⟩
  · let direction : Argument := ⟨"direction", ⟨⟨1, 1⟩, ⟨1, 17⟩⟩, .ok (.null .dynamic)⟩
    let greatest : Value := .number ⟨512, false, .finite 9223372036854775807 0⟩
    let depth : Argument := ⟨"depth", ⟨⟨2, 1⟩, ⟨2, 28⟩⟩, .ok greatest⟩
    have hconverts : Converts .whole greatest (.whole 9223372036854775807) :=
      .whole (.number _) (by norm_num [Binary.value?, Binary.scaled]) (by norm_num) (by norm_num)
    have hdirection : Params.argumentTy? .neighborhood "direction" = some .text := rfl
    have hdepth : Params.argumentTy? .neighborhood "depth" = some .whole := rfl
    have harguments : (Content.native ⟨deepestWalk, []⟩).arguments = .ok [direction, depth] := rfl
    obtain ⟨hok, hvalues, -, horder⟩ := hexact .neighborhood _ _ harguments (by decide)
    obtain ⟨d, hd⟩ := hok.mpr (by
      simp only [List.forall_mem_cons, List.not_mem_nil, false_implies, implies_true, and_true]
      exact ⟨⟨_, rfl, .inr ⟨_, hdirection, .inl rfl⟩⟩, _, rfl,
        .inr ⟨_, hdepth, .inr ⟨_, hconverts⟩⟩⟩)
    obtain ⟨-, hplaced, hzero⟩ := hvalues d hd
    refine ⟨d, hd, ?_, ?_, ?_⟩
    · obtain ⟨-, hsame⟩ :=
        horder (.native ⟨deepestWalk.reverse, []⟩) [depth, direction] rfl (List.Perm.swap _ _ _)
          direction.range
      rw [hd] at hsame
      -- that the errors are alike leaves open whether there is one
      cases hreverse : (decodeBody .neighborhood (.native ⟨deepestWalk.reverse, []⟩)).2 with
      | error e => simp [hreverse, Except.mapError] at hsame
      | ok d' => simpa [hreverse, Except.mapError] using hsame.symm
    · exact (hplaced depth (by simp) greatest rfl rfl .whole (.inr hdepth) _).mpr hconverts
    · refine (hzero ("direction", .text "") (by decide) ?_ _).mpr rfl
      simp only [List.forall_mem_cons, List.not_mem_nil, false_implies, implies_true, and_true]
      exact ⟨fun _ => ⟨_, rfl, rfl⟩, fun h => absurd h (by decide)⟩

end Document

end CypherBlocks
