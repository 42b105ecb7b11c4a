import CypherBlocks.Proofs.Bodies

/-!
# Arguments that are null

An argument that is null says nothing: with it the body of a block gives the same label and the same
parameters as without it.  The label is the one exception: it is taken as a text before anything is
asked about it, and null is no text.
-/

namespace CypherBlocks

open Config (Argument Attribute Content JsonProperty Problem Value)

/-! ## 1. Properties as arguments -/

namespace Config

theorem map_statedArguments (properties : List JsonProperty) :
    (statedArguments properties).map (fun a => (a.name, a.value)) =
    (properties.map fun p => (p.1, Json.value p.2.2)).filter (·.1 ≠ "//") := by
  rw [statedArguments, List.map_map, List.filter_map]
  rfl

end Config

namespace Document

variable {kind : Kind} {a : Argument} {d : Decoded} {as bs : List Argument}
  {content content' : Content} {name : String}

/-! ## 2. A null among the arguments -/

theorem decodeArguments_insert_null (h : Yields d.params.kind a none)
    (before after : List Argument) :
    (decodeArguments d (before ++ a :: after)).2 = (decodeArguments d (before ++ after)).2 := by
  induction before generalizing d with
  | nil =>
    have hskip : (decodeArgument d a).2 = .ok d := decodeArgument_eq_ok_iff.mpr ⟨none, h, rfl⟩
    rw [List.nil_append, List.nil_append, decodeArguments_cons, hskip]
    rfl
  | cons b before ih =>
    rw [List.cons_append, List.cons_append, decodeArguments_cons, decodeArguments_cons]
    cases hb : (decodeArgument d b).2 with
    | error e => rfl
    | ok d₁ =>
      rw [← kind_of_decodeArgument hb] at h
      exact ih h

/-- A new argument goes between the others and leaves them in their order. -/
theorem exists_sortByName_cons (hdistinct : ((a :: as).map (·.name)).Nodup) :
    ∃ before after, sortByName (a :: as) = before ++ a :: after ∧
      sortByName as = before ++ after := by
  have hperm := sortByName_perm (a :: as)
  have hpairwise := sortByName_pairwise (a :: as)
  obtain ⟨before, after, hsorted⟩ := List.append_of_mem (hperm.mem_iff.mpr List.mem_cons_self)
  rw [hsorted] at hperm hpairwise
  refine ⟨before, after, hsorted, ?_⟩
  have hothers : as.Perm (before ++ after) :=
    (List.perm_cons a).mp (hperm.symm.trans List.perm_middle)
  have hsublist : (before ++ after).Sublist (before ++ a :: after) :=
    (List.sublist_cons_self a after).append_left before
  have hsame : sortByName (before ++ after) = before ++ after := by
    apply List.mergeSort_of_pairwise
    exact (hpairwise.sublist hsublist).imp decide_eq_true
  rw [sortByName_eq_of_perm (List.nodup_cons.mp hdistinct).2 hothers, hsame]

/-- An argument that gives nothing may as well be left out. -/
theorem decodeArguments_sortByName_cons_null (hdistinct : ((a :: as).map (·.name)).Nodup)
    (h : Yields d.params.kind a none) :
    (decodeArguments d (sortByName (a :: as))).2 = (decodeArguments d (sortByName as)).2 := by
  obtain ⟨before, after, hwith, hwithout⟩ := exists_sortByName_cons hdistinct
  rw [hwith, hwithout, decodeArguments_insert_null h]

/-- Among arguments that all give something, the one that fails is to blame. -/
theorem decodeArguments_sortByName_cons_fails (hdistinct : ((a :: as).map (·.name)).Nodup)
    (has : ∀ b ∈ as, ∃ x, Yields d.params.kind b x) {e : BodyError} (h : Fails d.params.kind a e) :
    (decodeArguments d (sortByName (a :: as))).2 = .error e := by
  refine (decodeArguments_sortByName_eq_error_iff hdistinct).mpr ⟨a, List.mem_cons_self, h,
    fun b hb ⟨e', hb'⟩ => ?_⟩
  rcases List.mem_cons.mp hb with rfl | hb
  · exact List.le_refl _
  · obtain ⟨x, hx⟩ := has b hb
    cases hx.outcome_eq.symm.trans hb'.outcome_eq

/-- A null is no label, whatever its type. -/
theorem fails_of_null_label {v : Value} (hvalue : a.value = .ok v) (hnull : v.isNull = true)
    (hlabel : a.name = labelName) (kind : Kind) :
    ∃ cause, Fails kind a (.misfit a.range a.name cause) := by
  rcases yields_or_fails kind a with ⟨x, hx⟩ | ⟨e, he⟩
  · cases yields_none_of_null hx hvalue hnull with
    | null value argument null => exact absurd hlabel (Params.ne_labelName_of_argumentTy? argument)
  · cases he with
    | evaluation value => cases hvalue.symm.trans value
    | unsupported value noLabel noArgument => exact absurd hlabel noLabel
    | label value label misfit => exact ⟨_, .label value label misfit⟩
    | argument value argument notNull misfit => exact ⟨_, .argument value argument notNull misfit⟩

/-! ## 3. A null in a body -/

/-- One body is the other with an argument that is null, of a name that it does not have.  It can be
written anywhere, and what follows it moves. -/
inductive AddsNull (name : String) : Content → Content → Prop
  | native {attributes attributes' : List Attribute} {blocks : List Config.Block} {v : Value}
      (fresh : name ∉ attributes.map (·.name)) (null : v.isNull = true)
      (added : ((name, .ok v) :: attributes.map fun a => (a.name, a.expr.value)).Perm
        (attributes'.map fun a => (a.name, a.expr.value))) :
      AddsNull name (.native ⟨attributes, blocks⟩) (.native ⟨attributes', blocks⟩)
  | json {last last' : Config.Position} {properties properties' : List JsonProperty} {v : Value}
      (fresh : name ∉ properties.map (·.1)) (null : v.isNull = true)
      (added : ((name, .ok v) :: properties.map fun p => (p.1, Config.Json.value p.2.2)).Perm
        (properties'.map fun p => (p.1, Config.Json.value p.2.2))) :
      AddsNull name (.json (.object last properties)) (.json (.object last' properties'))

theorem SameArguments.names (h : SameArguments as bs) :
    (as.map (·.name)).Perm (bs.map (·.name)) := by
  have hnames := h.map Prod.fst
  rwa [List.map_map, List.map_map] at hnames

/-- The arguments of the longer body are those of the other and the null. -/
theorem AddsNull.exists_arguments (h : AddsNull name content content') (hname : name ≠ "//")
    (has : content.arguments = .ok as) :
    name ∉ as.map (·.name) ∧ ∃ v bs, v.isNull = true ∧ content'.arguments = .ok bs ∧ ∀ r,
      SameArguments (⟨name, r, .ok v⟩ :: as) bs := by
  cases h with
  | @native attributes attributes' blocks v fresh null added =>
    cases blocks with
    | cons b blocks => cases has
    | nil =>
      cases has
      rw [List.map_map]
      refine ⟨fresh, v, _, null, rfl, fun r => ?_⟩
      rw [SameArguments, List.map_cons, List.map_map, List.map_map]
      exact added
  | @json last last' properties properties' v fresh null added =>
    obtain ⟨rfl, hnodup, -⟩ := Config.jsonArguments_eq_ok_iff.mp has
    have hfresh : name ∉ (Config.statedArguments properties).map (·.name) := by
      intro hmem
      rw [Config.statedArguments, List.map_map] at hmem
      exact fresh ((List.filter_sublist.map _).mem hmem)
    -- comments are left out on both sides, and the null is no comment
    have hsame : ∀ r, SameArguments (⟨name, r, .ok v⟩ :: Config.statedArguments properties)
        (Config.statedArguments properties') := by
      intro r
      have hfilter := added.filter (·.1 ≠ "//")
      rw [List.filter_cons_of_pos (by simpa using hname)] at hfilter
      rwa [SameArguments, List.map_cons, Config.map_statedArguments, Config.map_statedArguments]
    have harguments : Config.jsonArguments [] properties' =
        .ok (Config.statedArguments properties') := by
      refine Config.jsonArguments_eq_ok_iff.mpr ⟨rfl, ?_, fun _ _ => List.not_mem_nil⟩
      refine (hsame ⟨last, last⟩).names.nodup_iff.mp ?_
      exact List.nodup_cons.mpr ⟨hfresh, hnodup⟩
    exact ⟨hfresh, v, _, null, harguments, hsame⟩

theorem supported_ne_comment (h : name = labelName ∨ (Params.argumentTy? kind name).isSome = true) :
    name ≠ "//" := by
  rintro rfl
  rcases h with h | h
  · exact absurd h (by decide)
  · cases kind <;> exact absurd h (by decide)

theorem exists_arguments_of_decodeBody (h : (decodeBody kind content).2 = .ok d) :
    ∃ as, content.arguments = .ok as ∧
      (decodeArguments ⟨"", Params.zero kind⟩ (sortByName as)).2 = .ok d ∧
      ∀ a ∈ as, ∃ x, Yields kind a x := by
  cases has : content.arguments with
  | error p =>
    rw [decodeBody, has] at h
    cases h
  | ok as =>
    rw [decodeBody_eq has] at h
    refine ⟨as, rfl, h, ?_⟩
    have hsorted := exists_decodeArguments_iff.mp ⟨d, h⟩
    rw [show (Decoded.mk "" (Params.zero kind)).params.kind = kind from Params.kind_zero kind]
      at hsorted
    exact fun a ha => hsorted a ((sortByName_perm as).mem_iff.mpr ha)

theorem exists_misfit_of_placed {r : Config.Range} {x : Except BodyError Decoded} {cause : Misfit}
    (h : x.mapError (BodyError.placed r) = .error (.misfit r name cause)) :
    ∃ range, x = .error (.misfit range name cause) := by
  obtain ⟨e, he, hplaced⟩ := mapError_eq_error_iff.mp h
  cases e with
  | misfit range name' cause' =>
    cases hplaced
    exact ⟨range, he⟩
  | _ => cases hplaced

/-- With a null added, a body that is read and accepted gives the same label and parameters, unless
the null is the label: then it is not accepted, and the label is to blame. -/
theorem null_omittable_iff (hread : Config.IsRead content)
    (haccepted : (decodeBody kind content).2 = .ok d)
    (hsupported : name = labelName ∨ (Params.argumentTy? kind name).isSome = true)
    (hadds : AddsNull name content content') :
    ((decodeBody kind content').2 = .ok d ↔ name ≠ labelName) ∧
      (name = labelName → ∃ range cause,
        (decodeBody kind content').2 = .error (.misfit range labelName cause)) := by
  obtain ⟨as, has, hdecoded, hyields⟩ := exists_arguments_of_decodeBody haccepted
  obtain ⟨hfresh, v, bs, hnull, hbs, hsame⟩ :=
    hadds.exists_arguments (supported_ne_comment hsupported) has
  have hkind : (Decoded.mk "" (Params.zero kind)).params.kind = kind := Params.kind_zero kind
  -- where the null stands does not matter, so it may stand first
  let range : Config.Range := ⟨⟨1, 1⟩, ⟨1, 1⟩⟩
  let null : Argument := ⟨name, range, .ok v⟩
  have hdistinct : ((null :: as).map (·.name)).Nodup :=
    List.nodup_cons.mpr ⟨hfresh, hread.nodup_arguments has⟩
  have hmoved : (decodeBody kind content').2.mapError (BodyError.placed range) =
      (decodeArguments ⟨"", Params.zero kind⟩ (sortByName (null :: as))).2.mapError
        (BodyError.placed range) := by
    rw [decodeBody_eq hbs]
    exact (decodeArguments_sortByName_congr hdistinct (hsame range) range _).2.symm
  by_cases hlabel : name = labelName
  · subst hlabel
    obtain ⟨cause, hfails⟩ := fails_of_null_label (a := null) rfl hnull rfl kind
    rw [decodeArguments_sortByName_cons_fails hdistinct (by rwa [hkind]) (by rwa [hkind])] at hmoved
    obtain ⟨range', hmisfit⟩ := exists_misfit_of_placed hmoved
    refine ⟨⟨fun hok => ?_, fun hne => absurd rfl hne⟩, fun _ => ⟨range', cause, hmisfit⟩⟩
    rw [hmisfit] at hok
    cases hok
  · refine ⟨⟨fun _ => hlabel, fun _ => ?_⟩, fun h => absurd h hlabel⟩
    obtain ⟨ty, hty⟩ := Option.isSome_iff_exists.mp (hsupported.resolve_left hlabel)
    have hnone : Yields kind null none := .null rfl hty hnull
    rw [decodeArguments_sortByName_cons_null hdistinct (by rwa [hkind]), hdecoded] at hmoved
    exact mapError_eq_ok_iff.mp hmoved

/-- A query that is taken as a text. -/
def trueQuery (line : Nat) : Attribute := ⟨"query", .literal (.bool true), ⟨⟨line, 1⟩, ⟨line, 13⟩⟩⟩

def nullLimit : Attribute := ⟨"limit", .literal .null, ⟨⟨1, 1⟩, ⟨1, 13⟩⟩⟩

def nullLabel (line : Nat) : Attribute := ⟨"label", .literal .null, ⟨⟨line, 1⟩, ⟨line, 13⟩⟩⟩

theorem parse_trueQuery :
    Config.parse .native (Text.symbolsOf "query = true\n") = .ok (.native ⟨[trueQuery 1], []⟩) := by
  have htokens : Config.tokens (Text.symbolsOf "query = true\n") =
      wordLine 1 "query" "true" ++ [Config.Cursor.endToken ⟨2, 1⟩] := by
    decide +kernel
  rw [Config.parse, Config.parseFile, htokens]
  rfl

theorem decodeBody_trueQuery :
    (decodeBody .textSearch (.native ⟨[trueQuery 1], []⟩)).2 =
      .ok ⟨"", .textSearch ⟨"true", 0⟩⟩ :=
  eq_ok_of_toOption (by decide +kernel)

/-- A limit that is null may stand before the query, but a label that is null may not stand after
it. -/
theorem nullLimit_omittable :
    (decodeBody .textSearch (.native ⟨[nullLimit, trueQuery 2], []⟩)).2 = .ok ⟨"",
      .textSearch ⟨"true", 0⟩⟩ ∧
      (decodeBody .textSearch (.native ⟨[trueQuery 1, nullLabel 2], []⟩)).2 ≠ .ok ⟨"",
        .textSearch ⟨"true", 0⟩⟩ := by
  have hlimit : AddsNull "limit" (.native ⟨[trueQuery 1], []⟩)
      (.native ⟨[nullLimit, trueQuery 2], []⟩) :=
    .native (v := .null .dynamic) (by decide) rfl (List.Perm.refl _)
  have hlabel : AddsNull "label" (.native ⟨[trueQuery 1], []⟩)
      (.native ⟨[trueQuery 1, nullLabel 2], []⟩) :=
    .native (v := .null .dynamic) (by decide) rfl (List.Perm.swap _ _ _)
  constructor
  · exact (null_omittable_iff (.file parse_trueQuery) decodeBody_trueQuery (.inr rfl) hlimit).1.mpr
      (by decide)
  · intro h
    exact (null_omittable_iff (.file parse_trueQuery) decodeBody_trueQuery (.inl rfl) hlabel).1.mp h
      rfl

/-- An empty body is accepted, and with a label that is null it is refused. -/
theorem nullLabel_refused :
    (decodeBody .textSearch (.native ⟨[], []⟩)).2 = .ok ⟨"", .textSearch ⟨"", 0⟩⟩ ∧
      Config.parse .native (Text.symbolsOf "label = null\n") = .ok (.native ⟨[nullLabel 1], []⟩) ∧
      (decodeBody .textSearch (.native ⟨[nullLabel 1], []⟩)).2 =
        .error (.misfit ⟨⟨1, 1⟩, ⟨1, 13⟩⟩ "label" .isNull) := by
  have htokens : Config.tokens (Text.symbolsOf "label = null\n") =
      wordLine 1 "label" "null" ++ [Config.Cursor.endToken ⟨2, 1⟩] := by
    decide +kernel
  refine ⟨?_, ?_, ?_⟩
  · exact eq_ok_of_toOption (by decide +kernel)
  · rw [Config.parse, Config.parseFile, htokens]
    rfl
  · rw [decodeBody_of_sorted rfl (List.pairwise_singleton _ _)]
    with_unfolding_all rfl

end Document

end CypherBlocks
