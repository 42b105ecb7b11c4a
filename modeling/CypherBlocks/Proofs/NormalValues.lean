import CypherBlocks.Config.Source
import CypherBlocks.Proofs.Digits
import CypherBlocks.Proofs.NormalForm

/-!
# Texts of values

Whatever a file says, each text that one of its expressions evaluates to is in normal form, and so
is each key.  Text enters a value in few places only: literals, keys and templates are normalised
there, and numbers and truth values have texts that are normal as they are.
-/

namespace CypherBlocks

theorem bind_eq_ok_iff {ε α β : Type} {x : Except ε α} {f : α → Except ε β} {b : β} :
    (x >>= f) = .ok b ↔ ∃ a, x = .ok a ∧ f a = .ok b := by
  cases x with
  | error e =>
    constructor
    · intro h
      cases h
    · rintro ⟨_, h, -⟩
      cases h
  | ok a =>
    constructor
    · intro h
      exact ⟨a, rfl, h⟩
    · rintro ⟨a', ha, h⟩
      cases ha
      exact h

/-- The elements of a list that is computed one by one. -/
theorem forall_mem_of_bind_cons {ε α : Type} {P : α → Prop} {x : Except ε α}
    {xs : Except ε (List α)} {ys : List α} (h : (do return (← x) :: (← xs)) = Except.ok ys)
    (hx : ∀ y, x = .ok y → P y) (hxs : ∀ ys, xs = .ok ys → ∀ y ∈ ys, P y) : ∀ y ∈ ys, P y := by
  obtain ⟨y, hy, h⟩ := bind_eq_ok_iff.mp h
  obtain ⟨more, hmore, h⟩ := bind_eq_ok_iff.mp h
  cases h
  exact List.forall_mem_cons.mpr ⟨hx y hy, hxs more hmore⟩

theorem mem_of_lookup {α : Type} {key : String} {a : α} {entries : List (String × α)}
    (h : entries.lookup key = some a) : (key, a) ∈ entries := by
  obtain ⟨before, after, rfl, -⟩ := List.lookup_eq_some_iff.mp h
  simp

/-- A list is split at its first element or in what follows it. -/
theorem exists_split_cons_iff {α : Type} {P : List α → α → Prop} {a : α} {as : List α} :
    (∃ before x after, a :: as = before ++ x :: after ∧ P before x) ↔
      P [] a ∨ ∃ before x after, as = before ++ x :: after ∧ P (a :: before) x := by
  constructor
  · rintro ⟨before, x, after, heq, h⟩
    cases before with
    | nil =>
      cases heq
      exact .inl h
    | cons b before =>
      cases heq
      exact .inr ⟨before, x, after, rfl, h⟩
  · rintro (h | ⟨before, x, after, rfl, h⟩)
    · exact ⟨[], a, as, rfl, h⟩
    · exact ⟨a :: before, x, after, rfl, h⟩

/-- A number is written with digits, a sign and a point. -/
theorem Binary.isNormal_text (b : Binary) : Text.IsNormal b.text := by
  obtain ⟨prec, neg, size⟩ := b
  cases size with
  | zero =>
    change Text.IsNormal (if neg then "-0" else "0")
    cases neg <;> decide +kernel
  | infinite =>
    change Text.IsNormal (if neg then "-Inf" else "+Inf")
    cases neg <;> decide +kernel
  | finite m e =>
    -- all characters that can occur come before the first that is not stable
    apply Text.isNormal_of_stable
    have hdigits := (Binary.isDecimal_shortest prec m e).isDigit
    have hstable :
        ∀ c ∈ (Binary.shortest prec m e).wholeDigits ++ (Binary.shortest prec m e).fractionDigits,
        c.toNat < Text.firstUnstable := by
      intro c hc
      have := Decimal.toNat_sub_lt_ten (hdigits c hc)
      change c.toNat - 48 < 10 at this
      change c.toNat < 192
      omega
    obtain ⟨hwhole, hfraction⟩ := List.forall_mem_append.mp hstable
    intro c hc
    have htext : (Binary.text ⟨prec, neg, .finite m e⟩).toList =
        (if neg then ['-'] else []) ++ (Binary.shortest prec m e).text.toList := by
      change ((if neg then "-" else "") ++ (Binary.shortest prec m e).text).toList = _
      rw [String.toList_append]
      cases neg <;> rfl
    rw [htext, Decimal.toList_text] at hc
    rcases List.mem_append.mp hc with hsign | hc
    · cases neg with
      | false => cases hsign
      | true =>
        obtain rfl := List.mem_singleton.mp hsign
        decide
    · rcases List.mem_append.mp hc with hc | hc
      · exact hwhole c hc
      · split at hc
        · cases hc
        · rcases List.mem_cons.mp hc with rfl | hc
          · decide
          · exact hfraction c hc

namespace Config

/-- All texts and keys of a value are in normal form. -/
inductive Value.IsNormal : Value → Prop where
  | unknown (t : Ty) : IsNormal (.unknown t)
  | null (t : Ty) : IsNormal (.null t)
  | bool (b : Bool) : IsNormal (.bool b)
  | number (n : Binary) : IsNormal (.number n)
  | text {s : String} (normal : Text.IsNormal s) : IsNormal (.text s)
  | list {t : Ty} {items : List Value} (all : ∀ v ∈ items, IsNormal v) : IsNormal (.list t items)
  | tuple {items : List Value} (all : ∀ v ∈ items, IsNormal v) : IsNormal (.tuple items)
  | map {t : Ty} {entries : List (String × Value)} (keys : ∀ e ∈ entries, Text.IsNormal e.1)
      (values : ∀ e ∈ entries, IsNormal e.2) : IsNormal (.map t entries)
  | object {attributes : List (String × Value)} (keys : ∀ e ∈ attributes, Text.IsNormal e.1)
      (values : ∀ e ∈ attributes, IsNormal e.2) : IsNormal (.object attributes)

/-- An entry of a map or an object with a key and a value in normal form. -/
def NormalEntry (e : String × Value) : Prop := Text.IsNormal e.1 ∧ e.2.IsNormal

theorem Value.isNormal_map {t : Ty} {entries : List (String × Value)}
    (h : ∀ e ∈ entries, NormalEntry e) : IsNormal (.map t entries) :=
  .map (fun e he => (h e he).1) fun e he => (h e he).2

theorem Value.isNormal_object {attributes : List (String × Value)}
    (h : ∀ e ∈ attributes, NormalEntry e) : IsNormal (.object attributes) :=
  .object (fun e he => (h e he).1) fun e he => (h e he).2

/-! ## 1. Conversion -/

namespace Value

section Elements

variable {P : Value → Prop} {items ws : List Value}

theorem forall_mem_convertAll {t : Ty} (hP : ∀ v ∈ items, ∀ t w, convertTo v t = .ok w → P w)
    (h : convertAll items t = .ok ws) : ∀ w ∈ ws, P w := by
  induction items generalizing ws with
  | nil =>
    cases h
    simp
  | cons v items ih =>
    obtain ⟨hv, hP⟩ := List.forall_mem_cons.mp hP
    rw [convertAll] at h
    exact forall_mem_of_bind_cons h (hv t) fun ws hws => ih hP hws

theorem forall_mem_convertEach {ts : List Ty}
    (hP : ∀ v ∈ items, ∀ t w, convertTo v t = .ok w → P w) (h : convertEach items ts = .ok ws) :
    ∀ w ∈ ws, P w := by
  induction items generalizing ts ws with
  | nil =>
    cases h
    simp
  | cons v items ih =>
    obtain ⟨hv, hP⟩ := List.forall_mem_cons.mp hP
    cases ts with
    | nil =>
      cases h
      simp
    | cons t ts =>
      rw [convertEach] at h
      exact forall_mem_of_bind_cons h (hv t) fun ws hws => ih hP hws

end Elements

section Entries

variable {P : String × Value → Prop} {entries ws : List (String × Value)}

theorem forall_mem_convertEntries {t : Ty}
    (hP : ∀ e ∈ entries, ∀ t w, convertTo e.2 t = .ok w → P (e.1, w))
    (h : convertEntries entries t = .ok ws) : ∀ w ∈ ws, P w := by
  induction entries generalizing ws with
  | nil =>
    cases h
    simp
  | cons e entries ih =>
    obtain ⟨he, hP⟩ := List.forall_mem_cons.mp hP
    rw [convertEntries] at h
    obtain ⟨w, hw, h⟩ := bind_eq_ok_iff.mp h
    obtain ⟨more, hmore, h⟩ := bind_eq_ok_iff.mp h
    cases h
    exact List.forall_mem_cons.mpr ⟨he t w hw, ih hP hmore⟩

theorem forall_mem_convertMatching {ts : List (String × Ty)}
    (hP : ∀ e ∈ entries, ∀ t w, convertTo e.2 t = .ok w → P (e.1, w))
    (h : convertMatching entries ts = .ok ws) : ∀ w ∈ ws, P w := by
  induction entries generalizing ws with
  | nil =>
    cases h
    simp
  | cons e entries ih =>
    obtain ⟨he, hP⟩ := List.forall_mem_cons.mp hP
    rw [convertMatching] at h
    split at h
    · rename_i t ht
      obtain ⟨w, hw, h⟩ := bind_eq_ok_iff.mp h
      obtain ⟨more, hmore, h⟩ := bind_eq_ok_iff.mp h
      cases h
      exact List.forall_mem_cons.mpr ⟨he t w hw, ih hP hmore⟩
    · exact ih hP h

end Entries

theorem isNormal_boolText (b : Bool) : Text.IsNormal (boolText b) := by
  cases b <;> decide +kernel

section Containers

variable {w : Value}

theorem isNormal_of_convertAll {items : List Value} {e : Ty}
    (hall : ∀ v ∈ items, ∀ t w, convertTo v t = .ok w → w.IsNormal)
    (h : (do return Value.list e (← convertAll items e)) = Except.ok w) : w.IsNormal := by
  obtain ⟨ws, hws, h⟩ := bind_eq_ok_iff.mp h
  cases h
  exact .list (forall_mem_convertAll hall hws)

variable {entries : List (String × Value)} (hentry : ∀ e ∈ entries, ∀ t w, convertTo e.2 t = .ok w →
  NormalEntry (e.1, w))

include hentry

theorem isNormal_of_convertEntries {e : Ty}
    (h : (do return Value.map e (← convertEntries entries e)) = Except.ok w) : w.IsNormal := by
  obtain ⟨ws, hws, h⟩ := bind_eq_ok_iff.mp h
  cases h
  exact isNormal_map (forall_mem_convertEntries hentry hws)

theorem isNormal_of_convertMatching {ts : List (String × Ty)}
    (h : (do return Value.object (← convertMatching entries ts)) = Except.ok w) : w.IsNormal := by
  obtain ⟨ws, hws, h⟩ := bind_eq_ok_iff.mp h
  cases h
  exact isNormal_object (forall_mem_convertMatching hentry hws)

end Containers

theorem IsNormal.convertTo {v w : Value} (hv : v.IsNormal) {t : Ty} (h : v.convertTo t = .ok w) :
    w.IsNormal := by
  -- texts are made from truth values and numbers only; what holds others is converted part by part
  induction hv generalizing t w with
  | unknown u => cases t <;> (cases h; exact .unknown _)
  | null u => cases t <;> (cases h; exact .null _)
  | bool b =>
    cases t with
    | dynamic => cases h; exact .bool b
    | bool => cases h; exact .bool b
    | text => cases h; exact .text (isNormal_boolText b)
    | _ => cases h
  | number n =>
    cases t with
    | dynamic => cases h; exact .number n
    | number => cases h; exact .number n
    | text => cases h; exact .text n.isNormal_text
    | _ => cases h
  | @text s hs =>
    cases t with
    | dynamic => cases h; exact .text hs
    | text => cases h; exact .text hs
    | number =>
      rw [Value.convertTo] at h
      split at h
      · cases h; exact .number _
      · cases h
    | bool =>
      rw [Value.convertTo] at h
      split at h
      · cases h; exact .bool _
      · cases h
    | _ => cases h
  | @list u items hall ih =>
    have ih : ∀ v ∈ items, ∀ t w, v.convertTo t = .ok w → w.IsNormal := fun v hv t w => ih v hv
    cases t with
    | dynamic => cases h; exact .list hall
    | list e => exact isNormal_of_convertAll ih h
    | _ => cases h
  | @tuple items hall ih =>
    have ih : ∀ v ∈ items, ∀ t w, v.convertTo t = .ok w → w.IsNormal := fun v hv t w => ih v hv
    cases t with
    | dynamic => cases h; exact .tuple hall
    | list e => exact isNormal_of_convertAll ih h
    | tuple ts =>
      obtain ⟨ws, hws, h⟩ := bind_eq_ok_iff.mp h
      cases h
      exact .tuple (forall_mem_convertEach ih hws)
    | _ => cases h
  | @map u entries hkeys hall ih =>
    have hentry : ∀ e ∈ entries, ∀ t w, e.2.convertTo t = .ok w → NormalEntry (e.1, w) :=
      fun e he t w hw => ⟨hkeys e he, ih e he hw⟩
    cases t with
    | dynamic => cases h; exact .map hkeys hall
    | map e => exact isNormal_of_convertEntries hentry h
    | object ts => exact isNormal_of_convertMatching hentry h
    | _ => cases h
  | @object attributes hkeys hall ih =>
    have hentry : ∀ e ∈ attributes, ∀ t w, e.2.convertTo t = .ok w → NormalEntry (e.1, w) :=
      fun e he t w hw => ⟨hkeys e he, ih e he hw⟩
    cases t with
    | dynamic => cases h; exact .object hkeys hall
    | map e => exact isNormal_of_convertEntries hentry h
    | object ts => exact isNormal_of_convertMatching hentry h
    | _ => cases h

theorem IsNormal.convert {v w : Value} (hv : v.IsNormal) {t : Ty} (h : v.convert t = .ok w) :
    w.IsNormal := by
  unfold Value.convert at h
  split at h
  · cases h
    exact hv
  · split at h
    · exact hv.convertTo h
    · cases h

end Value

/-! ## 2. Steps into values -/

theorem isNormal_undecided : undecided.IsNormal := .unknown .dynamic

theorem isNormal_texts (s : String) : (texts s).IsNormal := .text (Text.isNormal_normalize s)

theorem Literal.isNormal_value (l : Literal) : l.value.IsNormal := by
  cases l with
  | unknown => exact .unknown _
  | null => exact .null _
  | bool b => exact .bool b
  | number n => exact .number n
  | text s => exact .text (Text.isNormal_normalize s)

section Steps

variable {v key : Value}

theorem isNormal_lookup {entries : List (String × Value)} (h : ∀ e ∈ entries, e.2.IsNormal)
    {name : String} {a : Value} (ha : entries.lookup name = some a) : a.IsNormal :=
  h _ (mem_of_lookup ha)

theorem isNormal_getAttribute (hv : v.IsNormal) (name : String) :
    (getAttribute v name).1.IsNormal := by
  unfold getAttribute
  cases hv with
  | object hkeys hvalues =>
    dsimp only
    split
    · rename_i a ha
      exact isNormal_lookup hvalues ha
    · exact isNormal_undecided
  | map hkeys hvalues =>
    dsimp only
    split
    · rename_i a ha
      exact isNormal_lookup hvalues ha
    · exact isNormal_undecided
  | unknown t =>
    cases t with
    | object attributes =>
      dsimp only
      split
      · exact .unknown _
      · exact isNormal_undecided
    | map t => exact .unknown t
    | _ => exact isNormal_undecided
  | _ => exact isNormal_undecided

theorem isNormal_elementAt {items : List Value} (h : ∀ v ∈ items, v.IsNormal) (key : Value) :
    (elementAt items key).1.IsNormal := by
  unfold elementAt
  split
  · split
    · split
      · split
        · rename_i w hw
          exact h w (List.mem_of_getElem? hw)
        · exact isNormal_undecided
      · exact isNormal_undecided
    · exact isNormal_undecided
  · exact isNormal_undecided
  · exact isNormal_undecided

theorem isNormal_entryAt {entries : List (String × Value)} (h : ∀ e ∈ entries, e.2.IsNormal)
    (key : Value) : (entryAt entries key).1.IsNormal := by
  unfold entryAt
  split
  · split
    · rename_i w hw
      exact isNormal_lookup h hw
    · exact isNormal_undecided
  · exact isNormal_undecided
  · exact isNormal_undecided

theorem isNormal_unknownElement (t : Ty) (key : Value) : (unknownElement t key).1.IsNormal := by
  unfold unknownElement
  split <;> first | exact .unknown _ | (split <;> exact .unknown _)

theorem isNormal_getIndex (hv : v.IsNormal) (key : Value) : (getIndex v key).1.IsNormal := by
  unfold getIndex
  split
  · exact isNormal_undecided
  · split
    · exact isNormal_undecided
    · split
      · exact isNormal_undecided
      · cases hv with
        | list hall => exact isNormal_elementAt hall key
        | tuple hall => exact isNormal_elementAt hall key
        | map _ hvalues => exact isNormal_entryAt hvalues key
        | object _ hvalues => exact isNormal_entryAt hvalues key
        | unknown t => exact isNormal_unknownElement t key
        | _ => exact isNormal_undecided

theorem isNormal_takeSteps (hv : v.IsNormal) (steps : List Step) :
    (takeSteps v steps).1.IsNormal := by
  induction steps generalizing v with
  | nil => exact hv
  | cons s rest ih =>
    have hstep : (takeStep v s).1.IsNormal := by
      cases s with
      | named name => exact isNormal_getAttribute hv name
      | index key => exact isNormal_getIndex hv key.value
    rw [takeSteps]
    split
    · rename_i w hw
      rw [hw] at hstep
      exact ih hstep
    · exact isNormal_undecided

end Steps

/-! ## 3. Operators -/

theorem isNormal_known? {o : Option Binary} (t : Ty) : (known? t (o.map .number)).1.IsNormal := by
  cases o with
  | none => exact .unknown t
  | some n => exact .number n

theorem isNormal_applyBinary (op : BinaryOp) (a b : Value) : (applyBinary op a b).1.IsNormal := by
  unfold applyBinary
  split
  · split <;> constructor
  · split <;> constructor
  · split
    · exact .unknown _
    · split
      · split <;> first | exact .bool _ | exact isNormal_known? _ | exact isNormal_undecided
      · split <;> first | exact .bool _ | exact isNormal_undecided
      · exact .unknown _

theorem isNormal_shortCut? {op : BinaryOp} {a b r : Evaluated} (h : shortCut? op a b = some r) :
    r.1.IsNormal := by
  unfold shortCut? at h
  dsimp only at h
  split at h
  · cases h
  · repeat' split at h
    all_goals first | cases h; constructor | cases h

theorem isNormal_evalBinary (op : BinaryOp) (a b : Evaluated) : (evalBinary op a b).1.IsNormal := by
  unfold evalBinary
  split
  · split
    · rename_i r hr
      exact isNormal_shortCut? hr
    · split
      · exact isNormal_applyBinary _ _ _
      · exact .unknown _
  · exact .unknown _
  · exact .unknown _
  · exact .unknown _

theorem isNormal_evalUnary (op : UnaryOp) (a : Evaluated) : (evalUnary op a).1.IsNormal := by
  unfold evalUnary
  dsimp only
  split <;> constructor

theorem isNormal_evalConditional (condition : Evaluated) {yes no : Evaluated}
    (hyes : yes.1.IsNormal) (hno : no.1.IsNormal) :
    (evalConditional condition yes no).1.IsNormal := by
  have hchosen : ∀ c : Bool, (if c then yes else no).1.IsNormal := by
    intro c
    cases c
    · exact hno
    · exact hyes
  unfold evalConditional
  split
  · exact isNormal_undecided
  · split
    · exact .unknown _
    · split
      · exact .unknown _
      · split
        · unfold chooseBranch
          split
          · rename_i v hv
            exact (hchosen _).convert hv
          · exact .unknown _
        · exact .unknown _

/-! ## 4. Templates and objects -/

theorem isNormal_evalTemplate (parts : List Evaluated) (done : List String) (known : Bool)
    (ps : List Problem) : (evalTemplate parts done known ps).1.IsNormal := by
  induction parts generalizing done known ps with
  | nil =>
    rw [evalTemplate]
    cases known with
    | false => exact .unknown _
    | true => exact isNormal_texts _
  | cons part rest ih =>
    rw [evalTemplate]
    split
    · exact ih _ _ _
    · split
      · exact ih _ _ _
      · split <;> exact ih _ _ _

theorem isNormal_evalJoin (a : Evaluated) : (evalJoin a).1.IsNormal := by
  unfold evalJoin
  split
  · exact isNormal_evalTemplate _ _ _ _
  · exact isNormal_evalTemplate _ _ _ _
  · exact .unknown _

theorem mem_setEntry {α : Type} {key : String} {a : α} {entries : List (String × α)}
    {e : String × α} (h : e ∈ setEntry key a entries) : e = (key, a) ∨ e ∈ entries := by
  induction entries with
  | nil => exact .inl (List.mem_singleton.mp h)
  | cons d rest ih =>
    rw [setEntry] at h
    split at h
    · exact (List.mem_cons.mp h).imp_right (List.mem_cons_of_mem d)
    · split at h
      · exact List.mem_cons.mp h
      · rcases List.mem_cons.mp h with rfl | h
        · exact .inr List.mem_cons_self
        · exact (ih h).imp_right (List.mem_cons_of_mem d)

theorem isNormal_objectOf {entries : List (String × Value)} (h : ∀ e ∈ entries, e.2.IsNormal) :
    (objectOf entries).IsNormal := by
  suffices hfold : ∀ done : List (String × Value), (∀ e ∈ done, NormalEntry e) →
      ∀ e ∈ entries.foldl (fun done e => setEntry (Text.normalize e.1) e.2 done) done,
        NormalEntry e by
    exact Value.isNormal_object (hfold [] (by simp))
  induction entries with
  | nil => exact fun done hdone => hdone
  | cons e rest ih =>
    intro done hdone
    obtain ⟨he, h⟩ := List.forall_mem_cons.mp h
    apply ih h
    intro d hd
    rcases mem_setEntry hd with rfl | hd
    · exact ⟨Text.isNormal_normalize _, he⟩
    · exact hdone d hd

theorem isNormal_evalEntries {pairs : List (Evaluated × Evaluated)}
    (h : ∀ p ∈ pairs, p.2.1.IsNormal) {done : List (String × Value)}
    (hdone : ∀ e ∈ done, e.2.IsNormal) (known : Bool) (ps : List Problem) :
    (evalEntries pairs done known ps).1.IsNormal := by
  induction pairs generalizing done known ps with
  | nil =>
    rw [evalEntries]
    cases known with
    | false => exact isNormal_undecided
    | true => exact isNormal_objectOf fun e he => hdone e (List.mem_reverse.mp he)
  | cons p rest ih =>
    obtain ⟨hp, h⟩ := List.forall_mem_cons.mp h
    rw [evalEntries]
    split
    · exact ih h hdone _ _
    · split
      · exact ih h hdone _ _
      · split
        · exact ih h (List.forall_mem_cons.mpr ⟨hp, hdone⟩) _ _
        · exact ih h hdone _ _
        · exact ih h hdone _ _

/-! ## 5. Iteration -/

theorem isNormal_elements? {v : Value} (hv : v.IsNormal) {es : List (Value × Value)}
    (h : elements? v = some es) : ∀ e ∈ es, e.1.IsNormal ∧ e.2.IsNormal := by
  have hsequence : ∀ items : List Value, (∀ v ∈ items, v.IsNormal) →
      ∀ e ∈ items.mapIdx fun i v => (Value.number (Binary.ofIndex i), v),
        e.1.IsNormal ∧ e.2.IsNormal := by
    intro items hall e he
    obtain ⟨i, hi, rfl⟩ := List.mem_mapIdx.mp he
    exact ⟨.number _, hall _ (List.getElem_mem hi)⟩
  have hentries : ∀ entries : List (String × Value), (∀ e ∈ entries, Text.IsNormal e.1) →
      (∀ e ∈ entries, e.2.IsNormal) → ∀ e ∈ entries.map fun e => (Value.text e.1, e.2),
      e.1.IsNormal ∧ e.2.IsNormal := by
    intro entries hkeys hvalues e he
    obtain ⟨d, hd, rfl⟩ := List.mem_map.mp he
    exact ⟨.text (hkeys d hd), hvalues d hd⟩
  cases hv with
  | list hall => cases h; exact hsequence _ hall
  | tuple hall => cases h; exact hsequence _ hall
  | map hkeys hvalues => cases h; exact hentries _ hkeys hvalues
  | object hkeys hvalues => cases h; exact hentries _ hkeys hvalues
  | _ => cases h

/-- The rounds of a `for` go through what its source holds. -/
theorem isNormal_forRounds {source check : Evaluated} (hsource : source.1.IsNormal)
    {es : List (Value × Value)} (h : forRounds source check = .ok es) :
    ∀ e ∈ es, e.1.IsNormal ∧ e.2.IsNormal := by
  -- there are rounds only if the source can be gone through and nothing is wrong with the condition
  unfold forRounds at h
  dsimp only at h
  split at h
  · cases h
  · split at h
    · cases h
    · split at h
      · cases h
      · split at h
        · cases h
        · rename_i es' hes
          split at h
          · cases h
          · split at h
            · cases h
            · split at h
              · cases h
                exact isNormal_elements? hsource hes
              · cases h

theorem isNormal_forRounds_error {source check r : Evaluated}
    (h : forRounds source check = .error r) : r.1.IsNormal := by
  unfold forRounds at h
  dsimp only at h
  repeat' split at h
  all_goals cases h <;> exact isNormal_undecided

theorem isNormal_collectTuple {rounds : List TupleRound} (h : ∀ r ∈ rounds, r.value.1.IsNormal)
    {done : List Value} (hdone : ∀ v ∈ done, v.IsNormal) (known : Bool) (ps : List Problem) :
    (collectTuple rounds done known ps).1.IsNormal := by
  induction rounds generalizing done known ps with
  | nil =>
    rw [collectTuple]
    cases known with
    | false => exact isNormal_undecided
    | true => exact .tuple fun v hv => hdone v (List.mem_reverse.mp hv)
  | cons r rest ih =>
    obtain ⟨hr, h⟩ := List.forall_mem_cons.mp h
    rw [collectTuple]
    split
    · exact ih h (List.forall_mem_cons.mpr ⟨hr, hdone⟩) _ _
    · exact ih h hdone _ _
    · exact ih h hdone _ _

/-- Groups of values in normal form. -/
def NormalGroups (groups : List (String × List Value)) : Prop := ∀ g ∈ groups, ∀ v ∈ g.2, v.IsNormal

theorem NormalGroups.add {groups : List (String × List Value)} (h : NormalGroups groups)
    (key : String) {v : Value} (hv : v.IsNormal) : NormalGroups (addToGroup key v groups) := by
  intro g hg w hw
  rcases mem_setEntry hg with rfl | hg
  · rcases List.mem_append.mp hw with hw | hw
    · cases hlookup : groups.lookup key with
      | none => simp [hlookup] at hw
      | some vs =>
        rw [hlookup] at hw
        exact h _ (mem_of_lookup hlookup) w hw
    · obtain rfl := List.mem_singleton.mp hw
      exact hv
  · exact h g hg w hw

theorem NormalGroups.isNormal_groupsValue {groups : List (String × List Value)}
    (h : NormalGroups groups) (grouped : Bool) : (groupsValue grouped groups).IsNormal := by
  apply isNormal_objectOf
  intro e he
  obtain ⟨⟨k, vs⟩, hg, rfl⟩ := List.mem_map.mp he
  have hvs : ∀ v ∈ vs, v.IsNormal := h _ hg
  dsimp only
  cases grouped with
  | true => exact .tuple hvs
  | false =>
    cases vs with
    | nil => exact isNormal_undecided
    | cons v _ => exact hvs v List.mem_cons_self

theorem isNormal_collectObject (grouped : Bool) {rounds : List ObjectRound}
    (h : ∀ r ∈ rounds, r.value.1.IsNormal) {groups : List (String × List Value)}
    (hgroups : NormalGroups groups) (known : Bool) (ps : List Problem) :
    (collectObject grouped rounds groups known ps).1.IsNormal := by
  -- whatever comes into the groups is the value of a round
  induction rounds generalizing groups known ps with
  | nil =>
    rw [collectObject]
    cases known with
    | false => exact isNormal_undecided
    | true => exact hgroups.isNormal_groupsValue grouped
  | cons r rest ih =>
    obtain ⟨hr, h⟩ := List.forall_mem_cons.mp h
    rw [collectObject]
    dsimp only
    split
    · exact ih h hgroups _ _
    · exact ih h hgroups _ _
    · split
      · exact ih h hgroups _ _
      · split
        · exact ih h hgroups _ _
        · split
          · split
            · exact ih h hgroups _ _
            · exact ih h (hgroups.add _ hr) _ _
          · exact ih h hgroups _ _

theorem isNormal_splatItems {source : Evaluated} (hsource : source.1.IsNormal)
    {items : List Value} {isList : Bool} (h : splatItems source = .ok (items, isList)) :
    ∀ v ∈ items, v.IsNormal := by
  unfold splatItems at h
  dsimp only at h
  split at h
  · cases h
  · split at h
    · split at h <;> cases h
    · cases h
    · rename_i hv
      rw [hv] at hsource
      cases h
      cases hsource with
      | list hall => exact hall
    · rename_i hv
      rw [hv] at hsource
      cases h
      cases hsource with
      | tuple hall => exact hall
    · cases h
      exact List.forall_mem_singleton.mpr hsource

theorem isNormal_splatItems_error {source r : Evaluated} (h : splatItems source = .error r) :
    r.1.IsNormal := by
  unfold splatItems at h
  dsimp only at h
  split at h
  · cases h
    exact isNormal_undecided
  · split at h
    · split at h
      · cases h
        exact isNormal_undecided
      · cases h
        exact .tuple (by simp)
    · cases h
      exact isNormal_undecided
    · cases h
    · cases h
    · cases h

theorem isNormal_collectSplat (isList : Bool) {results : List Evaluated}
    (h : ∀ r ∈ results, r.1.IsNormal) : (collectSplat isList results).1.IsNormal := by
  have hvalues : ∀ v ∈ results.map (·.1), v.IsNormal := by
    intro v hv
    obtain ⟨r, hr, rfl⟩ := List.mem_map.mp hv
    exact h r hr
  unfold collectSplat
  dsimp only
  split
  · exact isNormal_undecided
  · split
    · exact .list hvalues
    · exact .tuple hvalues

/-! ## 6. Evaluation -/

/-- Names bound to values in normal form. -/
structure Scope.IsNormal (scope : Scope) : Prop where
  names : ∀ n ∈ scope.names, n.2.IsNormal
  item : scope.item.IsNormal

theorem Scope.isNormal_empty : Scope.empty.IsNormal := ⟨by simp [Scope.empty], .unknown _⟩

theorem Scope.IsNormal.bind {scope : Scope} (h : scope.IsNormal) (key : Option String)
    (name : String) {k v : Value} (hk : k.IsNormal) (hv : v.IsNormal) :
    (scope.bind key name k v).IsNormal := by
  refine ⟨List.forall_mem_cons.mpr ⟨hv, ?_⟩, h.item⟩
  cases key with
  | none => exact h.names
  | some n => exact List.forall_mem_cons.mpr ⟨hk, h.names⟩

theorem isNormal_lookupVariable {scope : Scope} (h : scope.IsNormal) (name : String) :
    (lookupVariable scope name).1.IsNormal := by
  unfold lookupVariable
  split
  · exact isNormal_undecided
  · split
    · rename_i v hv
      exact isNormal_lookup h.names hv
    · exact isNormal_undecided

/-- An expression whose value is in normal form wherever the names it may use are bound to such
values. -/
def KeepsNormal (e : Expr) : Prop := ∀ scope : Scope, scope.IsNormal → (eval scope e).1.IsNormal

namespace KeepsNormal

theorem literal (l : Literal) : KeepsNormal (.literal l) := by
  intro scope _
  rw [eval]
  exact l.isNormal_value

theorem template (parts : List Expr) : KeepsNormal (.template parts) := by
  intro scope _
  rw [eval]
  exact isNormal_evalTemplate _ _ _ _

theorem interpolation {e : Expr} (h : KeepsNormal e) : KeepsNormal (.interpolation e) := by
  intro scope hscope
  rw [eval]
  exact h scope hscope

theorem join (e : Expr) : KeepsNormal (.join e) := by
  intro scope _
  rw [eval]
  exact isNormal_evalJoin _

theorem boundName (name : String) : KeepsNormal (.variable name) := by
  intro scope hscope
  rw [eval]
  exact isNormal_lookupVariable hscope name

theorem item : KeepsNormal .item := by
  intro scope hscope
  rw [eval]
  exact hscope.item

theorem call : KeepsNormal .call := by
  intro scope _
  rw [eval]
  exact isNormal_undecided

theorem steps {source : Expr} (h : KeepsNormal source) (steps : List Step) :
    KeepsNormal (.steps source steps) := by
  intro scope hscope
  rw [eval]
  exact isNormal_takeSteps (h scope hscope) steps

theorem index {source : Expr} (h : KeepsNormal source) (key : Expr) :
    KeepsNormal (.index source key) := by
  intro scope hscope
  rw [eval]
  exact isNormal_getIndex (h scope hscope) _

/-- A splat evaluates its second part once for each element of its source. -/
theorem splat {source each : Expr} (h : KeepsNormal source) (heach : KeepsNormal each) :
    KeepsNormal (.splat source each) := by
  intro scope hscope
  rw [eval]
  split
  · rename_i r hr
    exact isNormal_splatItems_error hr
  · rename_i items isList hitems
    have hall := isNormal_splatItems (h scope hscope) hitems
    apply isNormal_collectSplat
    intro r hr
    obtain ⟨v, hv, rfl⟩ := List.mem_map.mp hr
    exact heach _ ⟨hscope.names, hall v hv⟩

theorem conditional (condition : Expr) {yes no : Expr} (hyes : KeepsNormal yes)
    (hno : KeepsNormal no) : KeepsNormal (.conditional condition yes no) := by
  intro scope hscope
  rw [eval]
  exact isNormal_evalConditional _ (hyes scope hscope) (hno scope hscope)

theorem binary (op : BinaryOp) (left right : Expr) : KeepsNormal (.binary op left right) := by
  intro scope _
  rw [eval]
  exact isNormal_evalBinary _ _ _

theorem unary (op : UnaryOp) (e : Expr) : KeepsNormal (.unary op e) := by
  intro scope _
  rw [eval]
  exact isNormal_evalUnary _ _

theorem evalAll {es : List Expr} (h : ∀ e ∈ es, KeepsNormal e) {scope : Scope}
    (hscope : scope.IsNormal) : ∀ r ∈ evalAll scope es, r.1.IsNormal := by
  induction es with
  | nil => simp [Config.evalAll]
  | cons e es ih =>
    obtain ⟨he, h⟩ := List.forall_mem_cons.mp h
    rw [Config.evalAll]
    exact List.forall_mem_cons.mpr ⟨he scope hscope, ih h⟩

theorem tuple {items : List Expr} (h : ∀ e ∈ items, KeepsNormal e) :
    KeepsNormal (.tuple items) := by
  intro scope hscope
  rw [eval]
  refine .tuple fun v hv => ?_
  obtain ⟨r, hr, rfl⟩ := List.mem_map.mp hv
  exact evalAll h hscope r hr

theorem evalPairs {pairs : List (Expr × Expr)} (h : ∀ p ∈ pairs, KeepsNormal p.2) {scope : Scope}
    (hscope : scope.IsNormal) : ∀ r ∈ evalPairs scope pairs, r.2.1.IsNormal := by
  induction pairs with
  | nil => simp [Config.evalPairs]
  | cons p pairs ih =>
    obtain ⟨hp, h⟩ := List.forall_mem_cons.mp h
    rw [Config.evalPairs]
    exact List.forall_mem_cons.mpr ⟨hp scope hscope, ih h⟩

/-- Of the entries only the values matter: whatever the keys are, they are put in normal form. -/
theorem object {items : List (Expr × Expr)} (h : ∀ p ∈ items, KeepsNormal p.2) :
    KeepsNormal (.object items) := by
  intro scope hscope
  rw [eval]
  exact isNormal_evalEntries (evalPairs h hscope) (by simp) _ _

theorem ambiguousKey : KeepsNormal .ambiguousKey := by
  intro scope _
  rw [eval]
  exact isNormal_undecided

/-- A round of a `for` binds an element of its source. -/
theorem round {source value : Expr} (h : KeepsNormal source) (hvalue : KeepsNormal value)
    {scope : Scope} (hscope : scope.IsNormal) {check : Evaluated} {es : List (Value × Value)}
    (hes : forRounds (eval scope source) check = .ok es) (key : Option String) (name : String) :
    ∀ e ∈ es, (eval (scope.bind key name e.1 e.2) value).1.IsNormal := by
  intro e he
  have hall := isNormal_forRounds (h scope hscope) hes e he
  exact hvalue _ (hscope.bind key name hall.1 hall.2)

theorem forTuple (key : Option String) (name : String) {source value : Expr} (condition : Expr)
    (h : KeepsNormal source) (hvalue : KeepsNormal value) :
    KeepsNormal (.forTuple key name source value condition) := by
  intro scope hscope
  rw [eval]
  dsimp only
  split
  · rename_i r hr
    exact isNormal_forRounds_error hr
  · rename_i es hes
    refine isNormal_collectTuple (fun r hr => ?_) (by simp) _ _
    obtain ⟨e, he, rfl⟩ := List.mem_map.mp hr
    exact round h hvalue hscope hes key name e he

theorem forObject (key : Option String) (name : String) {source value : Expr}
    (keyed condition : Expr) (grouped : Bool) (h : KeepsNormal source)
    (hvalue : KeepsNormal value) :
    KeepsNormal (.forObject key name source keyed value condition grouped) := by
  intro scope hscope
  rw [eval]
  dsimp only
  split
  · rename_i r hr
    exact isNormal_forRounds_error hr
  · rename_i es hes
    refine isNormal_collectObject grouped (fun r hr => ?_) (by simp [NormalGroups]) _ _
    obtain ⟨e, he, rfl⟩ := List.mem_map.mp hr
    exact round h hvalue hscope hes key name e he

end KeepsNormal

theorem sizeOf_value_lt {items : List (Expr × Expr)} {p : Expr × Expr} (hp : p ∈ items) :
    sizeOf p.2 < sizeOf items := by
  have hsize := List.sizeOf_lt_of_mem hp
  obtain ⟨key, value⟩ := p
  rw [Prod.mk.sizeOf_spec] at hsize
  dsimp only
  omega

/-- By recursion on the expression, with one lemma for each of its forms. -/
theorem Expr.keepsNormal (e : Expr) : KeepsNormal e := by
  cases e with
  | literal l => exact .literal l
  | template parts => exact .template parts
  | interpolation e => exact e.keepsNormal.interpolation
  | join e => exact .join e
  | «variable» name => exact .boundName name
  | item => exact .item
  | call => exact .call
  | steps source taken => exact source.keepsNormal.steps taken
  | index source key => exact source.keepsNormal.index key
  | splat source each => exact source.keepsNormal.splat each.keepsNormal
  | conditional condition yes no => exact .conditional condition yes.keepsNormal no.keepsNormal
  | binary op left right => exact .binary op left right
  | unary op e => exact .unary op e
  | tuple items => exact .tuple fun e _ => e.keepsNormal
  | object items =>
    refine .object fun p hp => ?_
    have hsize := sizeOf_value_lt hp
    exact p.2.keepsNormal
  | ambiguousKey => exact .ambiguousKey
  | forTuple key name source value condition =>
    exact .forTuple key name condition source.keepsNormal value.keepsNormal
  | forObject key name source keyed value condition grouped =>
    exact .forObject key name keyed condition grouped source.keepsNormal value.keepsNormal
termination_by sizeOf e

theorem Expr.isNormal_value {e : Expr} {v : Value} (h : e.value = .ok v) : v.IsNormal := by
  have hv := e.keepsNormal Scope.empty Scope.isNormal_empty
  unfold Expr.value at h
  split at h
  · rename_i w hw
    cases h
    rw [hw] at hv
    exact hv
  · cases h

/-! ## 7. Arguments -/

theorem Json.isNormal_value (node : Json.Node) : ∀ v, Json.value node = .ok v → v.IsNormal := by
  apply Json.value.induct (fun node => ∀ v, Json.value node = .ok v → v.IsNormal)
    (fun properties done => (∀ e ∈ done, NormalEntry e) → ∀ v,
      Json.objectValue properties done = .ok v → v.IsNormal)
    (fun nodes => ∀ vs, Json.values nodes = .ok vs → ∀ v ∈ vs, v.IsNormal)
  · -- null
    intro last v h
    cases h
    exact .null _
  · -- a truth value
    intro last b v h
    cases h
    exact .bool b
  · -- a number
    intro last n v h
    cases h
    exact .number n
  · -- a text
    intro last s v h
    cases h
    exact .text (Text.isNormal_normalize s)
  · -- an array
    intro last items ih v h
    rw [Json.value] at h
    obtain ⟨vs, hvs, h⟩ := bind_eq_ok_iff.mp h
    cases h
    exact .tuple (ih vs hvs)
  · -- an object
    intro last properties ih v h
    rw [Json.value] at h
    exact ih (by simp) v h
  · -- no nodes
    intro vs h
    cases h
    simp
  · -- one node more
    intro node rest ih ihrest vs h
    rw [Json.values] at h
    exact forall_mem_of_bind_cons h ih ihrest
  · -- no properties
    intro done hdone v h
    cases h
    exact Value.isNormal_object hdone
  · -- one property more
    intro name first node rest done ih ihrest hdone v h
    rw [Json.objectValue] at h
    obtain ⟨w, hw, h⟩ := bind_eq_ok_iff.mp h
    dsimp only at h
    split at h
    · cases h
    · refine ihrest w (fun e he => ?_) v h
      rcases mem_setEntry he with rfl | he
      · exact ⟨Text.isNormal_normalize name, ih w hw⟩
      · exact hdone e he

/-- An argument whose value, if it has one, is in normal form. -/
def Argument.IsNormal (a : Argument) : Prop := ∀ v, a.value = .ok v → v.IsNormal

def argumentOf (p : JsonProperty) : Argument := ⟨p.1, ⟨p.2.1, p.2.2.last⟩, Json.value p.2.2⟩

/-- The arguments that an object is meant to have, comments left out. -/
def statedArguments (properties : List JsonProperty) : List Argument :=
  (properties.filter (·.1 ≠ "//")).map argumentOf

/-- An object has the arguments that it states if no name is repeated. -/
theorem jsonArguments_eq_ok_iff {seen : List String} {properties : List JsonProperty}
    {as : List Argument} :
    jsonArguments seen properties = .ok as ↔
      as = statedArguments properties ∧ (as.map (·.name)).Nodup ∧ ∀ a ∈ as, a.name ∉ seen := by
  induction properties generalizing seen as with
  | nil =>
    rw [jsonArguments]
    constructor
    · intro h
      cases h
      simp [statedArguments]
    · rintro ⟨rfl, -, -⟩
      rfl
  | cons p properties ih =>
    obtain ⟨name, first, node⟩ := p
    rw [jsonArguments]
    -- comments are skipped; any other name has to be new, and is remembered for the rest
    by_cases hcomment : name = "//"
    · have hstated : statedArguments ((name, first, node) :: properties) =
          statedArguments properties := by
        simp [statedArguments, hcomment]
      rw [if_pos hcomment, ih, hstated]
    · have hstated : statedArguments ((name, first, node) :: properties) = argumentOf (name, first,
          node) :: statedArguments properties := by
        simp [statedArguments, hcomment]
      rw [if_neg hcomment, hstated]
      by_cases hseen : name ∈ seen
      · rw [if_pos hseen]
        simp only [reduceCtorEq, false_iff]
        rintro ⟨rfl, -, hunseen⟩
        exact hunseen _ List.mem_cons_self hseen
      · rw [if_neg hseen, bind_eq_ok_iff]
        simp only [ih]
        constructor
        · rintro ⟨more, ⟨rfl, hnodup, hunseen⟩, h⟩
          cases h
          simp only [List.mem_cons, not_or] at hunseen
          refine ⟨rfl, List.nodup_cons.mpr ⟨?_, hnodup⟩,
            List.forall_mem_cons.mpr ⟨hseen, fun a ha => (hunseen a ha).2⟩⟩
          intro hmem
          obtain ⟨a, ha, hname⟩ := List.mem_map.mp hmem
          exact (hunseen a ha).1 hname
        · rintro ⟨rfl, hnodup, hunseen⟩
          obtain ⟨hnew, hnodup⟩ := List.nodup_cons.mp hnodup
          obtain ⟨-, hunseen⟩ := List.forall_mem_cons.mp hunseen
          refine ⟨_, ⟨rfl, hnodup, fun a ha hmem => ?_⟩, rfl⟩
          rcases List.mem_cons.mp hmem with hname | hmem
          · exact hnew (List.mem_map.mpr ⟨a, ha, hname⟩)
          · exact hunseen a ha hmem

theorem isNormal_jsonArguments {seen : List String} {properties : List JsonProperty}
    {as : List Argument} (h : jsonArguments seen properties = .ok as) : ∀ a ∈ as, a.IsNormal := by
  obtain ⟨rfl, -, -⟩ := jsonArguments_eq_ok_iff.mp h
  intro a ha
  obtain ⟨p, -, rfl⟩ := List.mem_map.mp ha
  exact Json.isNormal_value p.2.2

theorem Content.isNormal_arguments {content : Content} {as : List Argument}
    (h : content.arguments = .ok as) : ∀ a ∈ as, a.IsNormal := by
  cases content with
  | native body =>
    change nativeArguments body = .ok as at h
    unfold nativeArguments at h
    split at h
    · cases h
      intro a ha
      obtain ⟨b, -, rfl⟩ := List.mem_map.mp ha
      exact fun v hv => Expr.isNormal_value hv
    · cases h
  | json node =>
    cases node with
    | object last properties => exact isNormal_jsonArguments h
    | _ => cases h

end Config

end CypherBlocks
