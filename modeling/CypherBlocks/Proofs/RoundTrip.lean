import CypherBlocks.Proofs.GraphText
import Mathlib.Data.List.Nodup
import Mathlib.Data.List.Perm.Basic

/-!
# Writing a graph and reading it again

Arguments are read in the order of their names and those that say nothing are left out, so reading
starts from empty parameters and sets one after the other.  What is set at the end does not depend
on the order, since names differ: each step brings one argument into place and leaves the others
alone.
-/

namespace CypherBlocks

/-! ## 1. Arguments as a list -/

/-- The arguments with one of them set. -/
def setArgument (arguments : List (String × ArgumentValue)) (name : String) (v : ArgumentValue) :
    List (String × ArgumentValue) :=
  arguments.map fun a => if a.1 = name then (name, v) else a

theorem setArgument_cons_self (name : String) (v w : ArgumentValue)
    {arguments : List (String × ArgumentValue)} (h : name ∉ arguments.map (·.1)) :
    setArgument ((name, w) :: arguments) name v = (name, v) :: arguments := by
  have hrest : ∀ a ∈ arguments, (if a.1 = name then (name, v) else a) = a := by
    intro a ha
    rw [if_neg]
    rintro rfl
    exact h (List.mem_map_of_mem ha)
  rw [setArgument, List.map_cons, if_pos rfl, List.map_congr_left hrest, List.map_id']

theorem setArgument_cons_of_ne {name : String} (v : ArgumentValue) {a : String × ArgumentValue}
    (h : a.1 ≠ name) (arguments : List (String × ArgumentValue)) :
    setArgument (a :: arguments) name v = a :: setArgument arguments name v := by
  rw [setArgument, List.map_cons, if_neg h, setArgument]

namespace Params

theorem nodup_arguments (p : Params) : (p.arguments.map (·.1)).Nodup := by
  cases p <;> simp only [arguments, List.map_cons, List.map_nil] <;> decide

theorem labelName_not_mem (p : Params) : Document.labelName ∉ p.arguments.map (·.1) := by
  cases p <;> simp only [arguments, List.map_cons, List.map_nil] <;> decide

theorem argumentTy?_of_mem {p : Params} {a : String × ArgumentValue} (h : a ∈ p.arguments) :
    argumentTy? p.kind a.1 = some a.2.ty := by
  cases p <;> simp only [arguments, List.mem_cons, List.not_mem_nil, or_false] at h <;>
    (first | contradiction | (rcases h with rfl | rfl | rfl | rfl | rfl <;> rfl) )

theorem exists_mem_of_argumentTy? {kind : Kind} {name : String} {ty : ArgumentTy}
    (h : argumentTy? kind name = some ty) : ∃ v, (name, v) ∈ (zero kind).arguments ∧ v.ty = ty := by
  obtain ⟨v, hv, rfl⟩ := Option.map_eq_some_iff.mp h
  obtain ⟨before, after, heq, -⟩ := List.lookup_eq_some_iff.mp hv
  exact ⟨v, by simp [heq], rfl⟩

/-- Setting an argument of the right type sets that argument and no other. -/
theorem arguments_set {p : Params} {name : String} {v : ArgumentValue}
    (h : argumentTy? p.kind name = some v.ty) :
    (p.set name v).kind = p.kind ∧ (p.set name v).arguments = setArgument p.arguments name v := by
  obtain ⟨w, hw, hty⟩ := exists_mem_of_argumentTy? h
  cases p <;> simp only [kind, zero, arguments, List.mem_cons, List.not_mem_nil, or_false,
    Prod.mk.injEq] at hw <;> first
      | contradiction
      | rcases hw with ⟨rfl, rfl⟩ | ⟨rfl, rfl⟩ | ⟨rfl, rfl⟩ | ⟨rfl, rfl⟩ | ⟨rfl, rfl⟩ <;>
          subst_vars <;> cases v <;> first | exact ⟨rfl, rfl⟩ | cases hty

end Params

/-! ## 2. The same number, the same parameters -/

/-- The same number: zero has two signs. -/
def Double.Same (x y : Double) : Prop := x = y ∨ x.isZero = true ∧ y.isZero = true

def ArgumentValue.Same : ArgumentValue → ArgumentValue → Prop
  | .real x, .real y => x.Same y
  | v, w => v = w

/-- The same parameters, confidences compared as numbers. -/
def Params.Same : Params → Params → Prop
  | .nodeFilter p, .nodeFilter q => p.labels = q.labels ∧ p.minConfidence.Same q.minConfidence
  | p, q => p = q

theorem ArgumentValue.Same.refl (v : ArgumentValue) : v.Same v := by
  cases v with
  | real x => exact .inl rfl
  | _ => rfl

/-- Two values of one type that both say nothing are the same. -/
theorem ArgumentValue.same_of_isZero {v w : ArgumentValue} (hty : v.ty = w.ty)
    (hv : v.isZero = true) (hw : w.isZero = true) : v.Same w := by
  cases v <;> cases w <;> cases hty
  · simp_all [ArgumentValue.Same, ArgumentValue.isZero]
  · simp_all [ArgumentValue.Same, ArgumentValue.isZero]
  · exact .inr ⟨hv, hw⟩
  · simp_all [ArgumentValue.Same, ArgumentValue.isZero]

/-- Two arguments of one name with the same value. -/
def SameArgument (a b : String × ArgumentValue) : Prop := a.1 = b.1 ∧ a.2.Same b.2

/-- Parameters are what their arguments say. -/
theorem Params.same_of_arguments {p q : Params} (hkind : p.kind = q.kind)
    (h : List.Forall₂ SameArgument p.arguments q.arguments) : p.Same q := by
  rcases p with _ | _ | ⟨_, _⟩ | _ | ⟨_, _, _, _, _⟩ | ⟨_, _, _, _⟩ | _ | ⟨_,
    _⟩ | _ | _ | _ | _ | _ <;> rcases q with _ | _ | ⟨_, _⟩ | _ | ⟨_, _, _, _, _⟩ | ⟨_, _, _,
    _⟩ | _ | ⟨_, _⟩ | _ | _ | _ | _ | _ <;> cases hkind <;> simp_all [Params.arguments,
    SameArgument, ArgumentValue.Same, Params.Same]

theorem Params.kind_zero (kind : Kind) : (zero kind).kind = kind := by
  cases kind <;> rfl

/-- A block whose file gives no arguments: each one has the right type and says nothing. -/
theorem Params.zero_arguments (p : Params) :
    List.Forall₂ (fun a b => a.1 = b.1 ∧ a.2.ty = b.2.ty ∧ a.2.isZero = true)
      (zero p.kind).arguments p.arguments := by
  cases p <;> simp [zero, kind, arguments, ArgumentValue.ty, ArgumentValue.isZero,
    Double.isZero, Double.zero]

/-- Members of two lists that correspond, with where the second one is from. -/
theorem forall₂_mem {α β : Type} {R : α → β → Prop} {xs : List α} {ys : List β}
    (h : List.Forall₂ R xs ys) : List.Forall₂ (fun x y => R x y ∧ y ∈ ys) xs ys := by
  obtain ⟨hlength, hzip⟩ := List.forall₂_iff_zip.mp h
  exact List.forall₂_iff_zip.mpr ⟨hlength, fun {x y} hxy => ⟨hzip hxy, (List.of_mem_zip hxy).2⟩⟩

theorem exists_mem_of_forall₂ {α β : Type} {R : α → β → Prop} {xs : List α} {ys : List β}
    (h : List.Forall₂ R xs ys) {x : α} (hx : x ∈ xs) : ∃ y ∈ ys, R x y := by
  induction h with
  | nil => cases hx
  | @cons z y xs ys hzy _ ih =>
    rcases List.mem_cons.mp hx with rfl | hx
    · exact ⟨y, List.mem_cons_self, hzy⟩
    · obtain ⟨w, hw, hxw⟩ := ih hx
      exact ⟨w, List.mem_cons_of_mem y hw, hxw⟩

namespace Document

/-! ## 3. One argument after the other -/

/-- The label and the parameters as one list of arguments. -/
def Decoded.arguments (d : Decoded) : List (String × ArgumentValue) :=
  (labelName, .text d.label) :: d.params.arguments

theorem Decoded.nodup_arguments (d : Decoded) : (d.arguments.map (·.1)).Nodup :=
  List.nodup_cons.mpr ⟨d.params.labelName_not_mem, d.params.nodup_arguments⟩

theorem Decoded.eq_of_mem {d : Decoded} {a b : String × ArgumentValue} (ha : a ∈ d.arguments)
    (hb : b ∈ d.arguments) (h : a.1 = b.1) : a = b :=
  List.inj_on_of_nodup_map d.nodup_arguments ha hb h

/-- An argument of a file that is taken over as a name and a value. -/
def Gives (a : Config.Argument) (x : String × ArgumentValue) : Prop :=
  a.name = x.1 ∧ ∃ w, a.value = .ok w ∧ w.isNull = false ∧ (decodeValue x.2.ty w).2 = .ok x.2

/-- Taking over an argument of the block sets it and no other. -/
theorem decodeArgument_gives {d target : Decoded} {a : Config.Argument}
    {x : String × ArgumentValue} (ha : Gives a x) (hx : x ∈ target.arguments)
    (hkind : d.params.kind = target.params.kind) :
    ∃ log d', decodeArgument d a = (log, .ok d') ∧ d'.params.kind = target.params.kind ∧
      d'.arguments = setArgument d.arguments x.1 x.2 := by
  obtain ⟨name, v⟩ := x
  obtain ⟨hname, w, hw, hnull, hdecode⟩ := ha
  cases hd : decodeValue v.ty w with
  | mk log r =>
    obtain rfl : r = .ok v := by rw [hd] at hdecode; exact hdecode
    -- the label is no parameter of any kind
    rcases List.mem_cons.mp hx with heq | hmem
    · cases heq
      refine ⟨log, { d with label := target.label }, ?_, hkind,
        (setArgument_cons_self _ _ _ d.params.labelName_not_mem).symm⟩
      unfold decodeArgument
      change decodeValue .text w = _ at hd
      simp only [hw, hname, if_true, hd]
    · have hne : name ≠ labelName := by
        rintro rfl
        exact target.params.labelName_not_mem (List.mem_map_of_mem hmem)
      have hty : Params.argumentTy? d.params.kind name = some v.ty := by
        rw [hkind]
        exact Params.argumentTy?_of_mem hmem
      obtain ⟨hset, harguments⟩ := Params.arguments_set hty
      refine ⟨log, { d with params := d.params.set name v }, ?_, hset.trans hkind, ?_⟩
      · unfold decodeArgument
        simp only [hw, hname, hne, if_false, hty, hnull, Bool.false_eq_true, hd]
      · rw [Decoded.arguments, Decoded.arguments, setArgument_cons_of_ne v hne.symm, harguments]

/-- How far reading has come: each argument is as it should be or still to come. -/
structure Toward (d target : Decoded) (remaining : List (String × ArgumentValue)) : Prop where
  kind : d.params.kind = target.params.kind
  arguments : List.Forall₂ (fun a b => a.1 = b.1 ∧ b ∈ target.arguments ∧
    (a.2.Same b.2 ∨ b ∈ remaining)) d.arguments target.arguments

/-- Reading starts from arguments that say nothing; those that say something are to come. -/
theorem toward_zero (target : Decoded) {remaining : List (String × ArgumentValue)}
    (hremaining : ∀ a ∈ target.arguments, a.2.isZero = false → a ∈ remaining) :
    Toward ⟨"", Params.zero target.params.kind⟩ target remaining := by
  have hzero : List.Forall₂ (fun a b => a.1 = b.1 ∧ a.2.ty = b.2.ty ∧ a.2.isZero = true)
      (Decoded.mk "" (Params.zero target.params.kind)).arguments target.arguments :=
    .cons ⟨rfl, rfl, rfl⟩ target.params.zero_arguments
  refine ⟨Params.kind_zero _, (forall₂_mem hzero).imp fun a b hab => ?_⟩
  obtain ⟨⟨hname, hty, ha⟩, hb⟩ := hab
  refine ⟨hname, hb, ?_⟩
  cases hbzero : b.2.isZero with
  | true => exact .inl (ArgumentValue.same_of_isZero hty ha hbzero)
  | false => exact .inr (hremaining b hb hbzero)

theorem Toward.step {d d' target : Decoded} {x : String × ArgumentValue}
    {remaining : List (String × ArgumentValue)} (h : Toward d target (x :: remaining))
    (hx : x ∈ target.arguments) (hkind : d'.params.kind = target.params.kind)
    (hset : d'.arguments = setArgument d.arguments x.1 x.2) : Toward d' target remaining := by
  refine ⟨hkind, ?_⟩
  rw [hset, setArgument, List.forall₂_map_left_iff]
  refine h.arguments.imp fun a b hab => ?_
  obtain ⟨hname, hb, hsame⟩ := hab
  by_cases hax : a.1 = x.1
  · have hbx : b = x := Decoded.eq_of_mem hb hx (hname.symm.trans hax)
    rw [if_pos hax, hbx]
    exact ⟨rfl, hx, .inl (.refl _)⟩
  · rw [if_neg hax]
    refine ⟨hname, hb, hsame.imp_right fun hmem => ?_⟩
    rcases List.mem_cons.mp hmem with rfl | hmem
    · exact absurd hname hax
    · exact hmem

theorem Toward.same {d target : Decoded} (h : Toward d target []) :
    d.label = target.label ∧ d.params.Same target.params := by
  have hall : List.Forall₂ SameArgument d.arguments target.arguments :=
    h.arguments.imp fun a b hab => ⟨hab.1, hab.2.2.resolve_right List.not_mem_nil⟩
  obtain ⟨⟨-, hlabel⟩, hparams⟩ := List.forall₂_cons.mp hall
  exact ⟨ArgumentValue.text.inj hlabel, Params.same_of_arguments h.kind hparams⟩

/-- Taking over all arguments that are to come, in any order. -/
theorem decodeArguments_gives {d target : Decoded} {as : List Config.Argument}
    {xs : List (String × ArgumentValue)} (h : List.Forall₂ Gives as xs)
    (hxs : ∀ x ∈ xs, x ∈ target.arguments) (hd : Toward d target xs) :
    ∃ log d', decodeArguments d as = (log, .ok d') ∧ Toward d' target [] := by
  induction h generalizing d with
  | nil => exact ⟨[], d, rfl, hd⟩
  | @cons a x as xs ha _ ih =>
    obtain ⟨hx, hxs⟩ := List.forall_mem_cons.mp hxs
    obtain ⟨log, d', hdecode, hkind, hset⟩ := decodeArgument_gives ha hx hd.kind
    obtain ⟨more, d'', hmore, hdone⟩ := ih hxs (hd.step hx hkind hset)
    refine ⟨log ++ more, d'', ?_, hdone⟩
    rw [decodeArguments, hdecode]
    simp only [hmore]

/-- Arguments that stand in the order of their names are taken over one after the other. -/
theorem decodeBody_of_sorted {content : Config.Content} {as : List Config.Argument}
    (has : content.arguments = .ok as) (hsorted : as.Pairwise fun a b => a.name ≤ b.name)
    (kind : Kind) : decodeBody kind content = decodeArguments ⟨"", Params.zero kind⟩ as := by
  have hsort : sortByName as = as :=
    List.mergeSort_of_pairwise (hsorted.imp fun h => decide_eq_true h)
  rw [decodeBody, has]
  dsimp only
  rw [hsort]

/-- A body with the arguments of a block that say something, each once, gives its label and its
parameters. -/
theorem decodeBody_gives {label : String} {p : Params} {content : Config.Content}
    {as : List Config.Argument} (hcontent : content.arguments = .ok as)
    (h : List.Forall₂ Gives as (writtenArguments label p)) :
    ∃ log d, decodeBody p.kind content = (log, .ok d) ∧ d.label = label ∧ d.params.Same p := by
  obtain ⟨xs, hxs, hperm⟩ :=
    List.perm_comp_forall₂ (List.mergeSort_perm as fun a b => a.name ≤ b.name) h
  have hmem : ∀ x, x ∈ xs ↔ x ∈ (Decoded.mk label p).arguments ∧ x.2.isZero = false := by
    intro x
    rw [hperm.mem_iff]
    exact List.mem_filter.trans (by simp [Decoded.arguments])
  have hstart : Toward ⟨"", Params.zero p.kind⟩ ⟨label, p⟩ xs :=
    toward_zero ⟨label, p⟩ fun a ha hzero => (hmem a).mpr ⟨ha, hzero⟩
  obtain ⟨log, d, hdecode, hdone⟩ :=
    decodeArguments_gives hxs (fun x hx => ((hmem x).mp hx).1) hstart
  refine ⟨log, d, ?_, hdone.same⟩
  unfold decodeBody
  simp only [hcontent]
  exact hdecode

end Document

/-! ## 4. Blocks and graphs -/

/-- The same block, confidences compared as numbers. -/
structure Block.Same (b c : Block) : Prop where
  id : b.id = c.id
  label : b.label = c.label
  params : Option.Rel Params.Same b.params c.params

/-- The same blocks in the same order and the same connections in the same order. -/
structure Graph.Same (g h : Graph) : Prop where
  blocks : List.Forall₂ Block.Same g.blocks h.blocks
  connections : g.connections = h.connections

namespace Document

open Config

theorem Attribute.Says.gives {a : Attribute} {x : String × ArgumentValue} (h : a.Says x)
    (hx : x.2.Fits) : Gives ⟨a.name, a.range, a.expr.value⟩ x := by
  obtain ⟨hname, ts, hspells⟩ := h
  exact ⟨hname, hspells.decode hx⟩

theorem ofTag?_tag (kind : Kind) : Kind.ofTag? kind.tag = some kind := by
  cases kind <;> decide

/-- The arguments of a body without blocks. -/
theorem native_arguments {body : Body} (h : body.blocks = []) :
    (Content.native body).arguments = .ok (body.attributes.map fun a =>
      ⟨a.name, a.range, a.expr.value⟩) := by
  change nativeArguments body = _
  unfold nativeArguments
  rw [h]

/-- The section of a block is read as the block. -/
theorem readBlock_says {id label : String} {p : Params} {b : Config.Block}
    (hfits : Block.Fits ⟨id, label, some p⟩) (hb : b.Says (blockPassage id label p)) :
    ∃ c : Block, (readBlock p.kind.tag id (.native b.body)).2 = .ok c ∧
      c.Same ⟨id, label, some p⟩ := by
  obtain ⟨⟨p', hp', hparams⟩, ⟨hid, -⟩, hlabel⟩ := hfits
  cases hp'
  have hwritten : ∀ x ∈ writtenArguments label p, x.2.Fits :=
    forall_mem_writtenArguments hlabel hparams
  have hgives : List.Forall₂ Gives (b.body.attributes.map fun a => ⟨a.name, a.range, a.expr.value⟩)
      (writtenArguments label p) := by
    rw [List.forall₂_map_left_iff]
    exact (forall₂_mem hb.attributes).imp fun a x hax =>
      Attribute.Says.gives hax.1 (hwritten x hax.2)
  obtain ⟨log, d, hdecode, hsame, hparams⟩ := decodeBody_gives (native_arguments hb.blocks) hgives
  have hid : Text.isBlank id = false := hid
  refine ⟨⟨id, d.label, some d.params⟩, ?_, ⟨rfl, hsame, .some hparams⟩⟩
  unfold readBlock
  simp only [ofTag?_tag, hid, Bool.false_eq_true, if_false, hdecode]

/-- The parts of a section as the outline of a file has them. -/
def outlined (b : Config.Block) : String × String × Content :=
  (b.labels.headD "", (b.labels.drop 1).headD "", .native b.body)

theorem readBlocks_says {bs : List Block} {cs : List Config.Block} (hfits : ∀ b ∈ bs, b.Fits)
    (h : List.Forall₂ Config.Block.Says cs (blockPassages bs)) :
    ∃ bs', (readBlocks (cs.map outlined)).2 = .ok bs' ∧ List.Forall₂ Block.Same bs' bs := by
  induction bs generalizing cs with
  | nil =>
    cases h
    exact ⟨[], rfl, .nil⟩
  | cons b bs ih =>
    obtain ⟨id, label, params⟩ := b
    obtain ⟨hb, hrest⟩ := List.forall_mem_cons.mp hfits
    obtain ⟨p, rfl : params = some p, -⟩ := hb.params
    rw [blockPassages_cons] at h
    obtain ⟨c, cs', hc, hcs, rfl⟩ := List.forall₂_cons_right_iff.mp h
    obtain ⟨b', hread, hsame⟩ := readBlock_says hb hc
    obtain ⟨bs', hmore, hall⟩ := ih hrest hcs
    refine ⟨b' :: bs', ?_, .cons hsame hall⟩
    have houtlined : outlined c = (p.kind.tag, id, .native c.body) := by
      unfold outlined
      rw [hc.labels]
      rfl
    rw [List.map_cons, houtlined, readBlocks]
    simp only [hread, hmore]
    rfl

/-- A section of one of the two forms of a graph file, with as many labels as it should have. -/
def IsFormed (c : Config.Block) : Prop :=
  (c.kind = blockForm.kind ∨ c.kind = connectionForm.kind) ∧ c.labels.length = 2

def sectionOf (b : Config.Block) : Section := ⟨b.kind, b.labels, .native b.body⟩

theorem nativeSections_formed {cs : List Config.Block} (h : ∀ c ∈ cs, IsFormed c) :
    nativeSections [blockForm, connectionForm] ⟨[], cs⟩ = .ok (cs.map sectionOf) := by
  have hform : ∀ c ∈ cs, ∃ form, findForm? [blockForm, connectionForm] c.kind = some form ∧
      labelProblem? form c.labels = none := by
    intro c hc
    obtain ⟨hkind | hkind, hlength⟩ := h c hc
    · refine ⟨blockForm, by rw [hkind]; rfl, ?_⟩
      simp [labelProblem?, hlength, blockForm]
    · refine ⟨connectionForm, by rw [hkind]; rfl, ?_⟩
      simp [labelProblem?, hlength, connectionForm]
  have hproblems : nativeProblems [blockForm, connectionForm] ⟨[], cs⟩ = [] := by
    unfold nativeProblems
    simp only [List.map_nil, List.append_nil, List.append_eq_nil_iff, List.filterMap_eq_nil_iff,
      List.map_eq_nil_iff, List.filter_eq_nil_iff]
    constructor
    · intro c hc
      obtain ⟨form, hfind, hlabels⟩ := hform c hc
      simp only [hfind, hlabels]
    · intro c hc
      obtain ⟨form, hfind, -⟩ := hform c hc
      simp [hfind]
  unfold nativeSections
  rw [hproblems]
  rfl

theorem forM_ok {α ε : Type} {f : α → Except ε Unit} {xs : List α} (h : ∀ x ∈ xs, f x = .ok ()) :
    xs.forM f = .ok () := by
  induction xs with
  | nil => rfl
  | cons x xs ih =>
    obtain ⟨hx, h⟩ := List.forall_mem_cons.mp h
    change (f x >>= fun _ => xs.forM f) = _
    rw [hx]
    exact ih h

theorem sections_of_kind {cs : List Config.Block} {kind : String} (h : ∀ c ∈ cs, c.kind = kind) :
    (cs.map sectionOf).filter (·.kind = kind) = cs.map sectionOf := by
  rw [List.filter_eq_self]
  intro s hs
  obtain ⟨c, hc, rfl⟩ := List.mem_map.mp hs
  simp [sectionOf, h c hc]

theorem sections_of_other {cs : List Config.Block} {kind : String} (h : ∀ c ∈ cs, c.kind ≠ kind) :
    (cs.map sectionOf).filter (·.kind = kind) = [] := by
  rw [List.filter_eq_nil_iff]
  intro s hs
  obtain ⟨c, hc, rfl⟩ := List.mem_map.mp hs
  simp [sectionOf, h c hc]

/-- The outline of a file of blocks and then connections, each with its two labels and the
connections with nothing else. -/
theorem outline_formed {bs cs : List Config.Block}
    (hbs : ∀ b ∈ bs, b.kind = blockForm.kind ∧ b.labels.length = 2)
    (hcs : ∀ c ∈ cs, c.kind = connectionForm.kind ∧ c.labels.length = 2 ∧ c.body = ⟨[], []⟩) :
    outline (.native ⟨[], bs ++ cs⟩) = .ok ⟨bs.map outlined, cs.map fun c =>
      ⟨c.labels.headD "", (c.labels.drop 1).headD ""⟩⟩ := by
  have hsections : (Content.native ⟨[], bs ++ cs⟩).sections [blockForm, connectionForm] =
      .ok ((bs ++ cs).map sectionOf) := by
    refine nativeSections_formed fun c hc => ?_
    rcases List.mem_append.mp hc with hc | hc
    · exact ⟨.inl (hbs c hc).1, (hbs c hc).2⟩
    · exact ⟨.inr (hcs c hc).1, (hcs c hc).2.1⟩
  have hne : blockForm.kind ≠ connectionForm.kind := by decide
  have hblocks : ((bs ++ cs).map sectionOf).filter (·.kind = blockForm.kind) =
      bs.map sectionOf := by
    rw [List.map_append, List.filter_append, sections_of_kind fun b hb => (hbs b hb).1,
      sections_of_other, List.append_nil]
    intro c hc
    rw [(hcs c hc).1]
    exact hne.symm
  have hconnections : ((bs ++ cs).map sectionOf).filter (·.kind = connectionForm.kind) =
      cs.map sectionOf := by
    rw [List.map_append, List.filter_append, sections_of_other, sections_of_kind fun c hc =>
      (hcs c hc).1, List.nil_append]
    intro b hb
    rw [(hbs b hb).1]
    exact hne
  -- in native syntax the shape of a section has been checked by the parser
  have hshapes : (bs.map sectionOf).forM (fun s => s.content.checkShape) = .ok () := by
    refine forM_ok fun s hs => ?_
    obtain ⟨b, -, rfl⟩ := List.mem_map.mp hs
    rfl
  have hempty : (cs.map sectionOf).forM (fun s => do let _ ← s.content.sections []) = .ok () := by
    refine forM_ok fun s hs => ?_
    obtain ⟨c, hc, rfl⟩ := List.mem_map.mp hs
    rw [sectionOf, (hcs c hc).2.2]
    rfl
  unfold outline
  simp only [bind, Except.bind] at hempty ⊢
  rw [hsections]
  simp only [hblocks, hconnections, hshapes]
  rw [hempty, List.map_map, List.map_map]
  rfl

theorem outline_says {bs cs : List Config.Block} {blocks : List Block}
    {connections : List Connection}
    (hbs : List.Forall₂ Config.Block.Says bs (blockPassages blocks))
    (hcs : List.Forall₂ Config.Block.Says cs (connections.map connectionPassage)) :
    outline (.native ⟨[], bs ++ cs⟩) = .ok ⟨bs.map outlined, connections⟩ := by
  have hblock : ∀ b ∈ bs, b.kind = blockForm.kind ∧ b.labels.length = 2 := by
    intro b hb
    obtain ⟨s, hs, hmatch⟩ := exists_mem_of_forall₂ hbs hb
    obtain ⟨b', -, hb'⟩ := List.mem_filterMap.mp hs
    obtain ⟨p, -, rfl⟩ := Option.map_eq_some_iff.mp hb'
    exact ⟨hmatch.kind, by rw [hmatch.labels]; rfl⟩
  have hconnection : ∀ c ∈ cs, c.kind = connectionForm.kind ∧ c.labels.length = 2 ∧
      c.body = ⟨[], []⟩ := by
    intro c hc
    obtain ⟨s, hs, hmatch⟩ := exists_mem_of_forall₂ hcs hc
    obtain ⟨c', -, rfl⟩ := List.mem_map.mp hs
    obtain ⟨kind, labels, attributes, blocks⟩ := c
    obtain ⟨hkind, hlabels, hattributes, hblocks⟩ := hmatch
    obtain rfl : attributes = [] := List.forall₂_nil_right_iff.mp hattributes
    obtain rfl : blocks = [] := hblocks
    exact ⟨hkind, by rw [hlabels]; rfl, rfl⟩
  have hends : (cs.map fun c => (⟨c.labels.headD "", (c.labels.drop 1).headD ""⟩ : Connection)) =
      connections := by
    rw [List.forall₂_map_right_iff] at hcs
    rw [← List.forall₂_eq_eq_eq, List.forall₂_map_left_iff]
    refine hcs.imp fun c k hck => ?_
    rw [hck.labels]
    rfl
  rw [outline_formed hblock hconnection, hends]

theorem duplicateFrom?_eq_none {bs : List Block} {seen : List String} (h : (bs.map (·.id)).Nodup)
    (hseen : ∀ b ∈ bs, b.id ∉ seen) : Graph.duplicateFrom? seen bs = none := by
  induction bs generalizing seen with
  | nil => rfl
  | cons b bs ih =>
    obtain ⟨hb, h⟩ := List.nodup_cons.mp h
    obtain ⟨hbseen, hseen⟩ := List.forall_mem_cons.mp hseen
    rw [Graph.duplicateFrom?, if_neg hbseen]
    refine ih h fun c hc => ?_
    rw [List.mem_cons]
    rintro (heq | hmem)
    · exact hb (List.mem_map.mpr ⟨c, hc, heq⟩)
    · exact hseen c hc hmem

theorem formatOf_native {file : String} (h : file.endsWith nativeExtension = true) :
    formatOf file = .native := by
  unfold formatOf
  rw [if_neg]
  intro h'
  rw [← String.endsWith_toSlice, String.Slice.endsWith_string_iff] at h h'
  obtain ⟨before, hbefore⟩ := h
  obtain ⟨before', hbefore'⟩ := h'
  have hlast := congrArg List.getLast? (hbefore.trans hbefore'.symm)
  simp [nativeExtension, jsonExtension] at hlast

/-- Errors cannot be compared, but graphs can: that a source is read as a certain graph is decided
by what it gives if it gives something. -/
theorem eq_ok_of_toOption {ε α : Type} {r : Except ε α} {a : α} (h : r.toOption = some a) :
    r = .ok a := by
  cases r with
  | error e => cases h
  | ok b => exact congrArg Except.ok (Option.some.inj h)

/-- A source is read as a graph just if it parses, its sections have the right forms, all its blocks
can be read and their ids differ. -/
theorem readSource_eq_ok_iff {file : String} {source : List Text.Symbol} {g : Graph} :
    (readSource file source).2 = .ok g ↔ ∃ content blocks,
      Config.parse (formatOf file) source = .ok content ∧
      outline content = .ok ⟨blocks, g.connections⟩ ∧ (readBlocks blocks).2 = .ok g.blocks ∧
        g.duplicateId? = none := by
  unfold readSource
  constructor
  · intro h
    split at h
    · cases h
    · rename_i content hparse
      split at h
      · cases h
      · rename_i o houtline
        dsimp only at h
        split at h
        · cases h
        · rename_i bs hbs
          split at h
          · cases h
          · rename_i hduplicate
            cases h
            exact ⟨content, o.blocks, hparse, houtline, hbs, hduplicate⟩
  · rintro ⟨content, blocks, hparse, houtline, hread, hduplicate⟩
    simp only [hparse, houtline, hread, hduplicate]

theorem nodup_writtenArguments (label : String) (p : Params) :
    ((writtenArguments label p).map (·.1)).Nodup :=
  (Decoded.mk label p).nodup_arguments.sublist (List.filter_sublist.map _)

end Document

/-! ## 5. The same graph -/

theorem Double.Same.symm {x y : Double} (h : x.Same y) : y.Same x := h.imp Eq.symm And.symm

theorem Double.Same.trans {x y z : Double} (h : x.Same y) (h' : y.Same z) : x.Same z := by
  rcases h with rfl | ⟨hx, hy⟩
  · exact h'
  · rcases h' with rfl | ⟨-, hz⟩
    · exact .inr ⟨hx, hy⟩
    · exact .inr ⟨hx, hz⟩

/-- Numbers that are not zero are the same only if they are equal. -/
theorem Double.same_kept_iff {x : Double} (h : x.IsProper) :
    x.kept.Same x ↔ (x.AtStep → x.ReadsBack) := by
  rw [← Double.kept_eq_iff h]
  constructor
  · rintro (heq | ⟨-, hzero⟩)
    · exact heq
    · -- zero is no power of two
      refine (Double.kept_eq_iff h).mpr fun hstep => ?_
      cases x with
      | infinite => cases h
      | nan => cases h
      | finite neg m e =>
        obtain rfl : m = 2 ^ (Double.mantissaBits - 1) := hstep.1
        exact absurd (show (2 ^ (Double.mantissaBits - 1) == 0) = true from hzero) (by decide)
  · exact .inl

theorem Params.Same.symm {p q : Params} (h : p.Same q) : q.Same p := by
  cases p <;> cases q <;> first | exact Eq.symm h | exact ⟨h.1.symm, h.2.symm⟩

theorem Params.Same.trans {p q r : Params} (h : p.Same q) (h' : q.Same r) : p.Same r := by
  cases p with
  | nodeFilter p =>
    cases q with
    | nodeFilter q =>
      cases r with
      | nodeFilter r => exact ⟨h.1.trans h'.1, h.2.trans h'.2⟩
      | _ => cases h'
    | _ => cases h
  | _ =>
    obtain rfl : _ = q := h
    exact h'

theorem Block.Same.symm {b c : Block} (h : b.Same c) : c.Same b := by
  obtain ⟨_, _, p⟩ := b
  obtain ⟨_, _, q⟩ := c
  obtain ⟨hid, hlabel, hparams : Option.Rel Params.Same p q⟩ := h
  refine ⟨hid.symm, hlabel.symm, ?_⟩
  cases hparams with
  | none => exact .none
  | some hparams => exact .some hparams.symm

theorem Block.Same.trans {a b c : Block} (h : a.Same b) (h' : b.Same c) : a.Same c := by
  obtain ⟨_, _, p⟩ := a
  obtain ⟨_, _, q⟩ := b
  obtain ⟨_, _, r⟩ := c
  obtain ⟨hid, hlabel, hparams : Option.Rel Params.Same p q⟩ := h
  obtain ⟨hid', hlabel', hparams' : Option.Rel Params.Same q r⟩ := h'
  refine ⟨hid.trans hid', hlabel.trans hlabel', ?_⟩
  cases hparams with
  | none => exact hparams'
  | some hpq =>
    cases hparams' with
    | some hqr => exact .some (hpq.trans hqr)

theorem Graph.Same.symm {g h : Graph} (hgh : g.Same h) : h.Same g :=
  ⟨hgh.blocks.flip.imp fun _ _ hbc => hbc.symm, hgh.connections.symm⟩

theorem forall₂_same_trans {as bs cs : List Block} (h : List.Forall₂ Block.Same as bs)
    (h' : List.Forall₂ Block.Same bs cs) : List.Forall₂ Block.Same as cs := by
  induction h generalizing cs with
  | nil => exact h'
  | cons hab _ ih =>
    obtain ⟨c, cs', hbc, hcs, rfl⟩ := List.forall₂_cons_left_iff.mp h'
    exact .cons (hab.trans hbc) (ih hcs)

theorem Graph.Same.trans {f g h : Graph} (hfg : f.Same g) (hgh : g.Same h) : f.Same h :=
  ⟨forall₂_same_trans hfg.blocks hgh.blocks, hfg.connections.trans hgh.connections⟩

/-! ## 6. Writing and reading -/

/-- A graph that can be written and read again: every block has parameters and an id of its own that
is not blank, texts are normalised, integers have 64 bits, and confidences are finite. -/
structure Graph.Fits (g : Graph) : Prop where
  blocks : ∀ b ∈ g.blocks, b.Fits
  ids : (g.blocks.map (·.id)).Nodup
  connections : ∀ c ∈ g.connections, c.Fits

instance (g : Graph) : Decidable g.Fits :=
  decidable_of_iff ((∀ b ∈ g.blocks, b.Fits) ∧ (g.blocks.map (·.id)).Nodup ∧ ∀ c ∈ g.connections,
    c.Fits) ⟨fun h => ⟨h.1, h.2.1, h.2.2⟩, fun h => ⟨h.blocks, h.ids, h.connections⟩⟩

/-- The confidence that a block asks for. -/
def Params.confidence? : Params → Option Double
  | .nodeFilter p => some p.minConfidence
  | _ => none

/-- The confidences of a graph, in the order of its blocks. -/
def Graph.confidences (g : Graph) : List Double :=
  g.blocks.filterMap fun b => b.params.bind Params.confidence?

theorem Params.same_kept_iff {p : Params} (h : ∀ a ∈ p.arguments, a.2.Fits) :
    p.kept.Same p ↔ ∀ x ∈ p.confidence?, x.AtStep → x.ReadsBack := by
  cases p with
  | nodeFilter p =>
    have hproper : p.minConfidence.IsProper :=
      h ("min_confidence", .real p.minConfidence) (by simp [Params.arguments])
    have hsame := Double.same_kept_iff hproper
    constructor
    · rintro ⟨-, hkept⟩ x ⟨⟩
      exact hsame.mp hkept
    · intro hback
      exact ⟨rfl, hsame.mpr (hback _ rfl)⟩
  | _ =>
    refine ⟨fun _ x hx => ?_, fun _ => rfl⟩
    cases hx

theorem Block.same_kept_iff {b : Block} (h : b.Fits) :
    b.kept.Same b ↔ ∀ x ∈ b.params.bind Params.confidence?, x.AtStep → x.ReadsBack := by
  obtain ⟨id, label, params⟩ := b
  obtain ⟨p, rfl : params = some p, hp⟩ := h.params
  refine Iff.trans ⟨fun hsame => ?_, fun hsame => ⟨rfl, rfl, .some hsame⟩⟩ (Params.same_kept_iff hp)
  obtain ⟨-, -, hparams : Option.Rel Params.Same (some p.kept) (some p)⟩ := hsame
  cases hparams with
  | some hsame => exact hsame

/-- What is kept of a graph is the same graph just if its powers of two read back. -/
theorem Graph.same_kept_iff {g : Graph} (h : ∀ b ∈ g.blocks, b.Fits) :
    g.kept.Same g ↔ ∀ x ∈ g.confidences, x.AtStep → x.ReadsBack := by
  have hblocks : List.Forall₂ Block.Same (g.blocks.map Block.kept) g.blocks ↔
      ∀ b ∈ g.blocks, b.kept.Same b := by
    rw [List.forall₂_map_left_iff, List.forall₂_same]
  have hall : (∀ b ∈ g.blocks, b.kept.Same b) ↔ ∀ x ∈ g.confidences, x.AtStep → x.ReadsBack := by
    unfold Graph.confidences
    simp only [List.mem_filterMap]
    constructor
    · rintro hsame x ⟨b, hb, hx⟩
      exact (Block.same_kept_iff (h b hb)).mp (hsame b hb) x hx
    · intro hback b hb
      exact (Block.same_kept_iff (h b hb)).mpr fun x hx => hback x ⟨b, hb, hx⟩
  exact ⟨fun hsame => hall.mp (hblocks.mp hsame.blocks), fun hback =>
    ⟨hblocks.mpr (hall.mpr hback), rfl⟩⟩

/-- A graph can be written, and its text parses as a file of its sections. -/
theorem write_outline {g : Graph} (hblocks : ∀ b ∈ g.blocks, b.Parses)
    (hconnections : ∀ c ∈ g.connections, c.Fits) {file : String}
    (hfile : file.endsWith Document.nativeExtension = true) :
    ∃ text content bs, Document.write g = .ok text ∧
      Config.parse (Document.formatOf file) (Text.symbolsOf text) = .ok content ∧
      Document.outline content = .ok ⟨bs.map Document.outlined, g.connections⟩ ∧
      List.Forall₂ Config.Block.Says bs (Document.blockPassages g.kept.blocks) := by
  obtain ⟨text, hwrite, hmark, hlexes⟩ := Document.lexes_write hblocks hconnections
  have hnames : ∀ s ∈ Document.passages g.kept, (s.arguments.map (·.1)).Nodup := by
    intro s hs
    rcases List.mem_append.mp hs with hs | hs
    · obtain ⟨b, -, hb⟩ := List.mem_filterMap.mp hs
      obtain ⟨p, -, rfl⟩ := Option.map_eq_some_iff.mp hb
      exact Document.nodup_writtenArguments b.label p
    · obtain ⟨c, -, rfl⟩ := List.mem_map.mp hs
      exact List.nodup_nil
  obtain ⟨all, hmatch, hparse⟩ := Config.parseFile_passages hlexes hmark.dropByteOrderMark_eq hnames
  -- the sections of blocks come first, those of connections after them
  have hbs := List.forall₂_take_append _ _ _ hmatch
  have hcs := List.forall₂_drop_append _ _ _ hmatch
  have houtline := Document.outline_says hbs hcs
  rw [List.take_append_drop] at houtline
  refine ⟨text, .native ⟨[], all⟩, _, hwrite, ?_, houtline, hbs⟩
  unfold Config.parse
  rw [Document.formatOf_native hfile]
  simp only [Text.symbolsOf, hparse]

/-- A graph that fits can be written, and its text is read as what is kept of the graph. -/
theorem write_read_kept {g : Graph} (hg : g.Fits) {file : String}
    (hfile : file.endsWith Document.nativeExtension = true) :
    ∃ text g', Document.write g = .ok text ∧ (Document.readSource file (Text.symbolsOf text)).2 =
      .ok g' ∧ g'.Same g.kept := by
  obtain ⟨text, content, cs, hwrite, hparse, houtline, hcs⟩ :=
    write_outline (fun b hb => (hg.blocks b hb).parses) hg.connections hfile
  have hfits : ∀ b ∈ g.kept.blocks, b.Fits := by
    intro b hb
    obtain ⟨c, hc, rfl⟩ := List.mem_map.mp hb
    exact (hg.blocks c hc).kept
  obtain ⟨bs, hread, hsame⟩ := Document.readBlocks_says hfits hcs
  have hids : bs.map (·.id) = g.blocks.map (·.id) := by
    rw [← List.forall₂_eq_eq_eq, List.forall₂_map_left_iff, List.forall₂_map_right_iff]
    exact (List.forall₂_map_right_iff.mp hsame).imp fun b c hbc => hbc.id
  have hduplicate : Graph.duplicateId? ⟨bs, g.connections⟩ = none :=
    Document.duplicateFrom?_eq_none (hids ▸ hg.ids) fun b _ => List.not_mem_nil
  refine ⟨text, ⟨bs, g.connections⟩, hwrite, ?_, hsame, rfl⟩
  exact Document.readSource_eq_ok_iff.mpr ⟨content, _, hparse, houtline, hread, hduplicate⟩

end CypherBlocks
