import CypherBlocks.Proofs.NearestDouble
import CypherBlocks.Proofs.NormalValues
import CypherBlocks.Proofs.RoundTrip

/-!
# What reading a file can give

Every block that is read has parameters, an id that is not blank and differs from the others, and
arguments that are in normal form and in range.  Confidences are doubles in their one form, but may
be infinite: dividing by zero gives such a number.  Nothing is said of the form of ids and of the
ends of connections, which are taken as they stand.
-/

namespace CypherBlocks

namespace Double

open Binary

/-! ## 1. Rounding to a double -/

/-- A double in its one form, or infinite. -/
def IsNumber (x : Double) : Prop := x.IsProper ∨ ∃ neg, x = .infinite neg

theorem isForm_zero : IsForm 0 minExponent := by decide

theorem isNumber_ofBinary (b : Binary) : (ofBinary b).IsNumber := by
  obtain ⟨prec, neg, size⟩ := b
  cases size with
  | zero => exact .inl isForm_zero
  | infinite => exact .inr ⟨_, rfl⟩
  | finite n f =>
    by_cases hn : n = 0
    · subst hn
      exact .inl isForm_zero
    · obtain ⟨hnearest, hover⟩ := ofBinary_spec prec neg hn f
      rcases lt_or_ge (scaled n f) overflowBound with hlt | hge
      · obtain ⟨m, e, heq, h⟩ := hnearest hlt
        rw [heq]
        exact .inl h.form
      · exact .inr ⟨neg, hover hge⟩

end Double

/-! ## 2. Arguments -/

/-- An argument that reading can give: a text in normal form, an integer of 64 bits, or a number
that may be infinite. -/
def ArgumentValue.Readable : ArgumentValue → Prop
  | .real x => x.IsNumber
  | v => v.Fits

theorem ArgumentValue.Fits.readable {v : ArgumentValue} (h : v.Fits) : v.Readable := by
  cases v with
  | real x => exact .inl h
  | _ => exact h

namespace Document

open Config

theorem isNormal_takeText {v : Value} {s : String} (hv : v.IsNormal) (h : takeText v = .ok s) :
    Text.IsNormal s := by
  cases hv with
  | text hs =>
    cases h
    exact hs
  | _ => cases h

theorem takeWhole_bounds {v : Value} {n : Int} (h : takeWhole v = .ok n) :
    leastWhole ≤ n ∧ n ≤ greatestWhole := by
  unfold takeWhole at h
  split at h
  · split at h
    · split at h
      · rename_i hbounds
        cases h
        simpa using hbounds
      · cases h
    · cases h
  · cases h
  · cases h

theorem isNumber_takeReal {v : Value} {x : Double} (h : takeReal v = .ok x) : x.IsNumber := by
  unfold takeReal at h
  split at h
  · dsimp only at h
    split at h
    · cases h
      exact Double.isNumber_ofBinary _
    · cases h
  · cases h
  · cases h

theorem isNormal_takeTexts {v : Value} {ss : List String} (hv : v.IsNormal)
    (h : takeTexts v = .ok ss) : ∀ s ∈ ss, Text.IsNormal s := by
  cases hv with
  | @list t items hall =>
    change items.mapM takeText = .ok ss at h
    induction items generalizing ss with
    | nil =>
      cases h
      simp
    | cons v items ih =>
      obtain ⟨hv, hall⟩ := List.forall_mem_cons.mp hall
      rw [List.mapM_cons] at h
      exact forall_mem_of_bind_cons h (fun s hs => isNormal_takeText hv hs) fun ss hss =>
        ih hall hss
  | null t =>
    cases h
    simp
  | _ => cases h

theorem map_eq_ok_iff {ε α β : Type} {x : Except ε α} {f : α → β} {b : β} :
    x.map f = .ok b ↔ ∃ a, x = .ok a ∧ f a = b := by
  cases x with
  | error e => simp [Except.map]
  | ok a => simp [Except.map]

theorem map_eq_error_iff {ε α β : Type} {x : Except ε α} {f : α → β} {e : ε} :
    x.map f = .error e ↔ x = .error e := by
  cases x with
  | error e' => simp [Except.map]
  | ok a => simp [Except.map]

theorem mapError_eq_ok_iff {ε ε' α : Type} {x : Except ε α} {f : ε → ε'} {a : α} :
    x.mapError f = .ok a ↔ x = .ok a := by
  cases x with
  | error e => simp [Except.mapError]
  | ok a' => simp [Except.mapError]

theorem mapError_eq_error_iff {ε ε' α : Type} {x : Except ε α} {f : ε → ε'} {e : ε'} :
    x.mapError f = .error e ↔ ∃ cause, x = .error cause ∧ e = f cause := by
  cases x with
  | error cause => simp [Except.mapError, eq_comm]
  | ok a => simp [Except.mapError]

/-- A value in normal form is taken as an argument of the type that is asked for. -/
theorem readable_take {ty : ArgumentTy} {w : Value} {v : ArgumentValue} (hw : w.IsNormal)
    (h : take ty w = .ok v) : v.Readable ∧ v.ty = ty := by
  cases ty with
  | text =>
    obtain ⟨s, hs, rfl⟩ := map_eq_ok_iff.mp h
    exact ⟨isNormal_takeText hw hs, rfl⟩
  | whole =>
    obtain ⟨n, hn, rfl⟩ := map_eq_ok_iff.mp h
    exact ⟨takeWhole_bounds hn, rfl⟩
  | real =>
    obtain ⟨x, hx, rfl⟩ := map_eq_ok_iff.mp h
    exact ⟨isNumber_takeReal hx, rfl⟩
  | texts =>
    obtain ⟨ss, hss, rfl⟩ := map_eq_ok_iff.mp h
    exact ⟨isNormal_takeTexts hw hss, rfl⟩

theorem readable_decodeValue {ty : ArgumentTy} {w : Value} {v : ArgumentValue} (hw : w.IsNormal)
    (h : (decodeValue ty w).2 = .ok v) : v.Readable ∧ v.ty = ty := by
  unfold decodeValue at h
  split at h
  · cases h
  · rename_i x hx
    exact readable_take (hw.convert hx) h

/-! ## 3. Blocks -/

/-- A label and parameters that reading can give to a block of a kind. -/
structure Decoded.Readable (kind : Kind) (d : Decoded) : Prop where
  kind : d.params.kind = kind
  arguments : ∀ a ∈ d.arguments, a.2.Readable

/-- Reading starts from parameters that say nothing. -/
theorem Decoded.readable_zero (kind : Kind) : Decoded.Readable kind ⟨"", Params.zero kind⟩ := by
  have hzero : ∀ a ∈ (Params.zero kind).arguments, a.2.Fits := by
    cases kind <;> decide +kernel
  refine ⟨Params.kind_zero kind, List.forall_mem_cons.mpr ⟨?_, fun a ha => (hzero a ha).readable⟩⟩
  exact Text.isNormal_of_stable (by simp)

/-- One argument sets the label or one parameter, or leaves both as they are. -/
theorem Decoded.Readable.decodeArgument {kind : Kind} {d d' : Decoded} (hd : d.Readable kind)
    {a : Argument} (ha : a.IsNormal) (h : (decodeArgument d a).2 = .ok d') : d'.Readable kind := by
  obtain ⟨hlabel, hparams⟩ := List.forall_mem_cons.mp hd.arguments
  unfold Document.decodeArgument at h
  split at h
  · cases h
  · rename_i v hv
    have hv := ha v hv
    split at h
    -- the label
    · dsimp only at h
      split at h
      · rename_i s hs
        cases h
        exact ⟨hd.kind, List.forall_mem_cons.mpr ⟨(readable_decodeValue hv hs).1, hparams⟩⟩
      · cases h
        exact hd
      · cases h
    · split at h
      · cases h
      -- a parameter of the kind: the one named is set, and the others stay
      · rename_i ty hty
        split at h
        · cases h
          exact hd
        · dsimp only at h
          split at h
          · rename_i x hx
            cases h
            obtain ⟨hreadable, rfl⟩ := readable_decodeValue hv hx
            obtain ⟨hkind, harguments⟩ := Params.arguments_set hty
            refine ⟨hkind.trans hd.kind, List.forall_mem_cons.mpr ⟨hlabel, ?_⟩⟩
            intro b hb
            rw [harguments] at hb
            obtain ⟨c, hc, rfl⟩ := List.mem_map.mp hb
            split
            · exact hreadable
            · exact hparams c hc
          · cases h

theorem Decoded.Readable.decodeArguments {kind : Kind} {d d' : Decoded} (hd : d.Readable kind)
    {as : List Argument} (has : ∀ a ∈ as, a.IsNormal) (h : (decodeArguments d as).2 = .ok d') :
    d'.Readable kind := by
  induction as generalizing d with
  | nil =>
    cases h
    exact hd
  | cons a as ih =>
    obtain ⟨ha, has⟩ := List.forall_mem_cons.mp has
    rw [Document.decodeArguments] at h
    dsimp only at h
    split at h
    · cases h
    · rename_i d₁ hd₁
      exact ih (hd.decodeArgument ha hd₁) has h

theorem readable_decodeBody {kind : Kind} {content : Content} {d : Decoded}
    (h : (decodeBody kind content).2 = .ok d) : d.Readable kind := by
  unfold decodeBody at h
  split at h
  · cases h
  · rename_i as has
    refine (Decoded.readable_zero kind).decodeArguments (fun a ha => ?_) h
    exact Content.isNormal_arguments has a ((List.mergeSort_perm as _).mem_iff.mp ha)

end Document

/-- A block that reading can give. -/
structure Block.Readable (b : Block) : Prop where
  params : ∃ p ∈ b.params, ∀ a ∈ p.arguments, a.2.Readable
  id : Text.isBlank b.id = false
  label : Text.IsNormal b.label

/-- A graph that reading can give. -/
structure Graph.Readable (g : Graph) : Prop where
  blocks : ∀ b ∈ g.blocks, b.Readable
  ids : (g.blocks.map (·.id)).Nodup

namespace Document

open Config

theorem readBlock_readable {tag id : String} {content : Content} {b : Block}
    (h : (readBlock tag id content).2 = .ok b) : b.Readable ∧ b.id = id := by
  unfold readBlock at h
  split at h
  · cases h
  · split at h
    · cases h
    · rename_i kind _ hid
      dsimp only at h
      split at h
      · cases h
      · rename_i d hd
        cases h
        obtain ⟨hlabel, hparams⟩ := List.forall_mem_cons.mp (readable_decodeBody hd).arguments
        exact ⟨⟨⟨d.params, rfl, hparams⟩, by simpa using hid, hlabel⟩, rfl⟩

/-- The blocks that are read have the ids of their sections. -/
theorem readBlocks_readable {sections : List (String × String × Content)} {bs : List Block}
    (h : (readBlocks sections).2 = .ok bs) :
    (∀ b ∈ bs, b.Readable) ∧ bs.map (·.id) = sections.map (·.2.1) := by
  induction sections generalizing bs with
  | nil =>
    cases h
    simp
  | cons s rest ih =>
    rw [readBlocks] at h
    dsimp only at h
    split at h
    · cases h
    · rename_i b hb
      obtain ⟨bs', hbs, rfl⟩ := map_eq_ok_iff.mp h
      obtain ⟨hall, hids⟩ := ih hbs
      obtain ⟨hreadable, hid⟩ := readBlock_readable hb
      exact ⟨List.forall_mem_cons.mpr ⟨hreadable,
        hall⟩, by rw [List.map_cons, List.map_cons, hid, hids]⟩

theorem nodup_of_duplicateFrom? {bs : List Block} {seen : List String}
    (h : Graph.duplicateFrom? seen bs = none) : (bs.map (·.id)).Nodup ∧ ∀ b ∈ bs, b.id ∉ seen := by
  induction bs generalizing seen with
  | nil => simp
  | cons b bs ih =>
    rw [Graph.duplicateFrom?] at h
    split at h
    · cases h
    · rename_i hb
      obtain ⟨hnodup, hseen⟩ := ih h
      refine ⟨List.nodup_cons.mpr ⟨fun hmem => ?_, hnodup⟩,
        List.forall_mem_cons.mpr ⟨hb, fun c hc hmem => ?_⟩⟩
      · obtain ⟨c, hc, hid⟩ := List.mem_map.mp hmem
        exact hseen c hc (hid ▸ List.mem_cons_self)
      · exact hseen c hc (List.mem_cons_of_mem _ hmem)

theorem readSource_readable {file : String} {source : List Text.Symbol} {g : Graph}
    (h : (readSource file source).2 = .ok g) : g.Readable := by
  obtain ⟨_, _, -, -, hread, hduplicate⟩ := readSource_eq_ok_iff.mp h
  exact ⟨(readBlocks_readable hread).1, (nodup_of_duplicateFrom? hduplicate).1⟩

end Document

end CypherBlocks
