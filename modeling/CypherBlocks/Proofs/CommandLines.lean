import CypherBlocks.CommandLine.Session
import CypherBlocks.Proofs.Texts
import Mathlib.Algebra.Group.Int.Defs
import Mathlib.Algebra.Group.Nat.Defs

/-!
# Settings through the command line

All settings can be given on the command line, one flag for each of them, and the order of the flags
does not matter.  The other way round, settings that come out of a command line are acceptable:
checking them again changes nothing.
-/

namespace CypherBlocks

/-! ## 1. Durations -/

namespace Duration

theorem wholeValue_toDigits (n : Nat) : wholeValue (Nat.toDigits 10 n) = n := by
  have hfold : wholeValue (Nat.toDigits 10 n) = Nat.ofDigitChars 10 (Nat.toDigits 10 n) 0 := by
    rw [wholeValue, Nat.ofDigitChars_eq_foldl]
    simp only [digitValue, Nat.mul_comm]
  rw [hfold, Nat.ofDigitChars_ten_toDigits]

/-- A whole number of nanoseconds. -/
def nanosecondsText (n : Nat) : String := s!"{n}ns"

theorem toList_nanosecondsText (n : Nat) :
    (nanosecondsText n).toList = Nat.toDigits 10 n ++ ['n', 's'] := by
  simp [nanosecondsText]

theorem isDigit_of_mem_toDigits {n : Nat} : ∀ c ∈ Nat.toDigits 10 n, c.isDigit = true := fun _ hc =>
  Nat.isDigit_of_mem_toDigits (by decide) (by decide) hc

theorem term?_nanoseconds (n : Nat) : term? (Nat.toDigits 10 n ++ ['n', 's']) = some (n, []) := by
  have hends : ∀ c ∈ ['n', 's'].head?, c.isDigit = false := by
    intro c hc
    cases hc
    rfl
  obtain ⟨htake, hdrop⟩ := Text.takeWhile_append_of_head isDigit_of_mem_toDigits hends
  have hne : (Nat.toDigits 10 n).isEmpty = false := by
    rw [List.isEmpty_eq_false_iff]
    exact Nat.toDigits_ne_nil
  unfold term?
  rw [htake, hdrop]
  -- there is no fraction, and the unit is one
  change (if (Nat.toDigits 10 n).isEmpty && true then none
    else some (wholeValue (Nat.toDigits 10 n) * 1 + 0, [])) = some (n, [])
  rw [hne, wholeValue_toDigits, Nat.mul_one]
  rfl

theorem sizeFrom?_nanoseconds {n : Nat} (hn : n < 2 ^ 63) {fuel : Nat} (hfuel : fuel ≠ 0) :
    sizeFrom? fuel (Nat.toDigits 10 n ++ ['n', 's']) 0 = some n := by
  obtain ⟨fuel, rfl⟩ := Nat.exists_eq_succ_of_ne_zero hfuel
  have hfits : ¬ greatestSize < 0 + n := by
    rw [Nat.zero_add, Nat.not_lt]
    exact Nat.le_of_lt hn
  rw [sizeFrom?.eq_3 _ _ _ (by simp), term?_nanoseconds]
  change (if greatestSize < 0 + n then none else sizeFrom? fuel [] (0 + n)) = some n
  rw [if_neg hfits, Nat.zero_add]
  cases fuel <;> rfl

theorem parse?_nanosecondsText {n : Nat} (hn : n < 2 ^ 63) :
    parse? (nanosecondsText n) = some (n : Int) := by
  obtain ⟨d, ds, hdigits⟩ := List.exists_cons_of_ne_nil (Nat.toDigits_ne_nil (b := 10) (n := n))
  have hd : d.isDigit = true :=
    isDigit_of_mem_toDigits d (by rw [hdigits]; exact List.mem_cons_self)
  have hsize : sizeFrom? (Nat.toDigits 10 n ++ ['n', 's']).length (Nat.toDigits 10 n ++ ['n', 's'])
      0 = some n :=
    sizeFrom?_nanoseconds hn (by simp)
  unfold parse?
  rw [toList_nanosecondsText]
  split
  next negative cs hsign =>
  have hplain : (negative, cs) = (false, Nat.toDigits 10 n ++ ['n', 's']) := by
    rw [← hsign, hdigits]
    -- a digit is no sign
    split
    next heq =>
      cases heq
      cases hd
    next heq =>
      cases heq
      cases hd
    next => rfl
  obtain ⟨rfl, rfl⟩ := Prod.mk.inj hplain
  have hlong : Nat.toDigits 10 n ++ ['n', 's'] ≠ ['0'] := by
    intro h
    have hlength := congrArg List.length h
    simp at hlength
  rw [if_neg hlong, if_neg (by simp), hsize]
  exact if_neg (Nat.ne_of_lt hn)

theorem sizeFrom?_le {fuel : Nat} {cs : List Char} {sum n : Nat}
    (h : sizeFrom? fuel cs sum = some n) (hsum : sum ≤ greatestSize) : n ≤ greatestSize := by
  fun_induction sizeFrom? fuel cs sum with
  | case1 =>
    cases h
    exact hsum
  | case2 => cases h
  | case3 => cases h
  | case4 => cases h
  | case5 _ _ _ _ size rest _ hle ih => exact ih h (Nat.le_of_not_lt hle)

theorem parse?_lt {s : String} {ns : Int} (h : parse? s = some ns) : ns < 2 ^ 63 := by
  unfold parse? at h
  split at h
  next negative cs _ =>
  cases hsize : sizeFrom? cs.length cs 0 with
  | none =>
    rw [hsize] at h
    split_ifs at h
    cases h
    decide
  | some n =>
    have hle : n ≤ greatestSize := sizeFrom?_le hsize (Nat.zero_le _)
    rw [hsize] at h
    simp only at h
    unfold greatestSize at h hle
    split_ifs at h <;> cases h <;> omega

end Duration

/-! ## 2. Acceptable settings -/

/-- The settings that a command line can ask for. -/
structure App.Settings.Acceptable (s : App.Settings) : Prop where
  path : s.graphPath ≠ ""
  logFormat : s.logFormat ∈ ["text", "json"]
  logLevel : s.logLevel ∈ ["debug", "info", "warn", "error"]
  output : s.outputFormat ∈ [App.textOutput, App.jsonOutput]
  timeout : 0 ≤ s.preview.timeout ∧ s.preview.timeout < 2 ^ 63

/-- Settings that are acceptable pass the check as they are. -/
theorem App.Settings.Acceptable.check_eq {s : App.Settings} (h : s.Acceptable) :
    s.check = .ok s := by
  have hpath : s.graphPath.isEmpty = false := by simpa using h.path
  have hknown : ∀ t ∈ [textOutput, jsonOutput], t.isEmpty = false ∧
      (decide (t ≠ textOutput) && decide (t ≠ jsonOutput)) = false := by
    decide
  obtain ⟨hformat, houtput⟩ := hknown s.outputFormat h.output
  have htimeout : ¬ s.preview.timeout < 0 := Int.not_lt.mpr h.timeout.1
  simp only [check, hformat, hpath, houtput, Bool.false_eq_true, if_false, if_neg htimeout]

theorem App.Settings.timeout_nonneg_of_check {s t : App.Settings} (h : s.check = .ok t) :
    0 ≤ s.preview.timeout := by
  by_contra hneg
  simp only [check, if_pos (Int.not_le.mp hneg)] at h
  split_ifs at h

namespace CommandLine

open App (Settings)

/-! ## 3. One flag -/

/-- The texts that a switch is given with. -/
def switchTexts : Bool → List String
  | true => ["true", "1", "t", "T", "True", "TRUE"]
  | false => ["false", "0", "f", "F", "False", "FALSE"]

/-- The texts that a flag is given with to get what stands in settings.  The path is not given
through its short flag. -/
def Flag.Gives (s : Settings) (text : String) : Flag → Prop
  | .fmt => text ∈ switchTexts s.formatGraph
  | .g => False
  | .graph => text = s.graphPath
  | .logFormat => text = s.logFormat
  | .logLevel => text = s.logLevel
  | .output => text = s.outputFormat
  | .previewEvent => text = s.preview.event
  | .previewInsecure => text ∈ switchTexts s.preview.insecure
  | .previewNamespace => text = s.preview.space
  | .previewTimeout => text = Duration.nanosecondsText s.preview.timeout.toNat
  | .previewUrl => text = s.preview.url

/-- A flag has the same value in both. -/
def Flag.Agrees (x y : Flags) : Flag → Prop
  | .fmt => x.fmt = y.fmt
  | .g => x.g = y.g
  | .graph => x.graph = y.graph
  | .logFormat => x.logFormat = y.logFormat
  | .logLevel => x.logLevel = y.logLevel
  | .output => x.output = y.output
  | .previewEvent => x.preview.event = y.preview.event
  | .previewInsecure => x.preview.insecure = y.preview.insecure
  | .previewNamespace => x.preview.space = y.preview.space
  | .previewTimeout => x.preview.timeout = y.preview.timeout
  | .previewUrl => x.preview.url = y.preview.url

theorem Flags.eq_of_agrees {x y : Flags} (h : ∀ f : Flag, f.Agrees x y) : x = y := by
  obtain ⟨xgraph, xg, xlogFormat, xlogLevel, xfmt, xoutput, xurl, xspace, xevent, xtimeout,
      xinsecure⟩ := x
  obtain ⟨ygraph, yg, ylogFormat, ylogLevel, yfmt, youtput, yurl, yspace, yevent, ytimeout,
      yinsecure⟩ := y
  obtain rfl : xgraph = ygraph := h .graph
  obtain rfl : xg = yg := h .g
  obtain rfl : xlogFormat = ylogFormat := h .logFormat
  obtain rfl : xlogLevel = ylogLevel := h .logLevel
  obtain rfl : xfmt = yfmt := h .fmt
  obtain rfl : xoutput = youtput := h .output
  obtain rfl : xurl = yurl := h .previewUrl
  obtain rfl : xspace = yspace := h .previewNamespace
  obtain rfl : xevent = yevent := h .previewEvent
  obtain rfl : xtimeout = ytimeout := h .previewTimeout
  obtain rfl : xinsecure = yinsecure := h .previewInsecure
  rfl

/-- The values of the flags that are given with settings. -/
def Flags.of (s : Settings) : Flags :=
  ⟨s.graphPath, "", s.logFormat, s.logLevel, s.formatGraph, s.outputFormat, s.preview⟩

theorem switchValue?_of_mem {b : Bool} {text : String} (h : text ∈ switchTexts b) :
    Flag.switchValue? text = some b := by
  cases b <;> revert h <;> revert text <;> decide

theorem set?_switch {f : Flag} (hf : f.ty = .switch) {b : Bool} {text : String}
    (h : text ∈ switchTexts b) (flags : Flags) :
    f.set? flags text = some (f.setSwitch flags b) := by
  rw [Flag.set?, hf]
  exact congrArg (Option.map _) (switchValue?_of_mem h)

theorem set?_timeout {n : Nat} (hn : n < 2 ^ 63) (flags : Flags) :
    Flag.previewTimeout.set? flags (Duration.nanosecondsText n) =
      some (Flag.previewTimeout.setDuration flags n) :=
  congrArg (Option.map _) (Duration.parse?_nanosecondsText hn)

/-- Setting a flag gives it the value in the settings, and leaves the others as they are. -/
theorem set?_of_gives {s : Settings} (hs : s.Acceptable) {f : Flag} {text : String}
    (h : f.Gives s text) (flags : Flags) :
    ∃ flags', f.set? flags text = some flags' ∧ f.Agrees flags' (.of s) ∧
      ∀ f', Flag.Agrees flags (.of s) f' → Flag.Agrees flags' (.of s) f' := by
  cases f with
  | g => exact h.elim
  | fmt =>
    exact ⟨_, set?_switch rfl h flags, rfl, fun f' h' => by cases f' <;> first | exact h' | rfl⟩
  | previewInsecure =>
    exact ⟨_, set?_switch rfl h flags, rfl, fun f' h' => by cases f' <;> first | exact h' | rfl⟩
  | previewTimeout =>
    obtain ⟨hnonneg, hbound⟩ := hs.timeout
    have hns : (s.preview.timeout.toNat : Int) = s.preview.timeout := Int.toNat_of_nonneg hnonneg
    have hset := set?_timeout (n := s.preview.timeout.toNat) (by omega) flags
    rw [hns, ← show text = _ from h] at hset
    exact ⟨_, hset, rfl, fun f' h' => by cases f' <;> first | exact h' | rfl⟩
  | _ => exact ⟨_, rfl, h, fun f' h' => by cases f' <;> first | exact h' | exact h⟩

/-- A flag with its value, as it stands on the command line. -/
def optionText (f : Flag) (text : String) : String := s!"-{f.name}={text}"

theorem toList_optionText (f : Flag) (text : String) :
    (optionText f text).toList = '-' :: (f.name.toList ++ '=' :: text.toList) := by
  simp [optionText]

theorem exists_name_eq (f : Flag) :
    ∃ c cs, f.name.toList = c :: cs ∧ c ≠ '-' ∧ c ≠ '=' ∧ '=' ∉ cs := by
  cases f <;> exact ⟨_, _, rfl, by decide, by decide, by decide⟩

theorem classify_dash {argument : String} {c : Char} {cs : List Char}
    (h : argument.toList = '-' :: c :: cs) (hdash : c ≠ '-') (hequals : c ≠ '=') :
    classify argument = .flag (splitFlag (c :: cs)).1 (splitFlag (c :: cs)).2 := by
  have hflag : flagArgument (c :: cs) = .flag (splitFlag (c :: cs)).1 (splitFlag (c :: cs)).2 :=
    if_neg (by simp [hdash, hequals])
  rw [← hflag]
  unfold classify
  rw [h]
  split
  next heq => exact absurd (List.cons.inj (List.cons.inj heq).2).1 hdash
  next heq => exact absurd (List.cons.inj (List.cons.inj heq).2).1 hdash
  next heq =>
    cases heq
    rfl
  next hother => exact absurd rfl (hother c cs)

/-- The value begins after the first equals sign, since no name has one. -/
theorem classify_optionText (f : Flag) (text : String) :
    classify (optionText f text) = .flag f.name (some text) := by
  obtain ⟨c, cs, hname, hdash, hequals, hrest⟩ := exists_name_eq f
  have hclass : ∀ d ∈ cs, decide (d ≠ '=') = true :=
    fun d hd => decide_eq_true fun h => hrest (h ▸ hd)
  have hends : ∀ d ∈ ('=' :: text.toList).head?, decide (d ≠ '=') = false := by simp
  obtain ⟨htake, hdrop⟩ := Text.takeWhile_append_of_head hclass hends
  have hlist : (optionText f text).toList = '-' :: c :: (cs ++ '=' :: text.toList) := by
    rw [toList_optionText, hname, List.cons_append]
  have hsplit : splitFlag (c :: (cs ++ '=' :: text.toList)) = (f.name, some text) := by
    rw [splitFlag, htake, hdrop, ← hname, String.ofList_toList]
    exact congrArg (fun t => (f.name, some t)) String.ofList_toList
  rw [classify_dash hlist hdash hequals, hsplit]

theorem ofName?_name (f : Flag) : Flag.ofName? f.name = some f := by
  cases f <;> decide

theorem readFlag_of_set? {f : Flag} {flags flags' : Flags} {text : String}
    (h : f.set? flags text = some flags') (next : Option String) :
    readFlag flags f.name (some text) next = .ok (flags', 0) := by
  unfold readFlag
  rw [ofName?_name]
  by_cases hswitch : f.ty = .switch
  · simp [hswitch, h]
  · simp [hswitch, h]

/-! ## 4. All flags -/

theorem readFlags_option {f : Flag} {flags flags' : Flags} {text : String}
    (h : f.set? flags text = some flags') (arguments : List String) :
    readFlags flags (optionText f text :: arguments) = readFlags flags' arguments := by
  rw [readFlags, classify_optionText]
  simp only [readFlag_of_set? h, List.drop_zero]

/-- Each flag that is given has its value afterwards, and none is changed from it again. -/
theorem readFlags_options {s : Settings} (hs : s.Acceptable) {text : Flag → String}
    {order : List Flag} (htext : ∀ f ∈ order, f.Gives s (text f)) (flags : Flags)
    (arguments : List String) :
    ∃ flags', readFlags flags (order.map (fun f => optionText f (text f)) ++ arguments) =
      readFlags flags' arguments ∧
      (∀ f ∈ order, f.Agrees flags' (.of s)) ∧ ∀ f, Flag.Agrees flags (.of s) f →
        Flag.Agrees flags' (.of s) f := by
  induction order generalizing flags with
  | nil => exact ⟨flags, rfl, by simp, fun _ h => h⟩
  | cons f order ih =>
    obtain ⟨hf, horder⟩ := List.forall_mem_cons.mp htext
    obtain ⟨flags₁, hset, hagrees, hkeeps⟩ := set?_of_gives hs hf flags
    obtain ⟨flags₂, hread, hall, hkeeps'⟩ := ih horder flags₁
    refine ⟨flags₂, ?_, ?_, fun f' h' => hkeeps' f' (hkeeps f' h')⟩
    · rw [List.map_cons, List.cons_append, readFlags_option hset, hread]
    · exact List.forall_mem_cons.mpr ⟨hkeeps' f hagrees, hall⟩

/-- Flags end before an argument that does not begin with a dash. -/
theorem readFlags_positional (flags : Flags) {arguments : List String}
    (h : ∀ a ∈ arguments.head?, a.toList.head? ≠ some '-') :
    readFlags flags arguments = .ok (flags, arguments) := by
  cases arguments with
  | nil => rw [readFlags]
  | cons a rest =>
    have hclass : classify a = .positional := by
      have ha := h a rfl
      unfold classify
      split
      next hlist => exact absurd (congrArg List.head? hlist) ha
      next hlist => exact absurd (congrArg List.head? hlist) ha
      next hlist => exact absurd (congrArg List.head? hlist) ha
      next => rfl
    rw [readFlags, hclass]

/-! ## 5. From flags to settings -/

theorem lower_eq_self :
    ∀ t ∈ ["text", "json", "debug", "info", "warn", "error"], Text.lower t = t := by decide

theorem settings_of {s : Settings} (hs : s.Acceptable) : settings (.of s) s.graphPath = .ok s := by
  have hformat : Text.lower s.logFormat = s.logFormat :=
    lower_eq_self _ (List.mem_append_left ["debug", "info", "warn", "error"] hs.logFormat)
  have hlevel : Text.lower s.logLevel = s.logLevel :=
    lower_eq_self _ (List.mem_append_right ["text", "json"] hs.logLevel)
  have houtput : Text.lower s.outputFormat = s.outputFormat :=
    lower_eq_self _ (List.mem_append_left ["debug", "info", "warn", "error"] hs.output)
  unfold settings
  simp only [Flags.of, hformat, hlevel, houtput, hs.logFormat, hs.logLevel, hs.output, not_true,
    if_false, hs.check_eq]
  rfl

theorem acceptable_of_settings {flags : Flags} {path : String} {s : Settings}
    (h : settings flags path = .ok s) (hpath : path ≠ "")
    (htimeout : flags.preview.timeout < 2 ^ 63) : s.Acceptable := by
  simp only [settings] at h
  split_ifs at h with hformat hlevel houtput
  cases hcheck : Settings.check ⟨path, Text.lower flags.logFormat, Text.lower flags.logLevel,
    Text.lower flags.output, flags.fmt, flags.preview⟩ with
  | error e =>
    rw [hcheck] at h
    cases h
  | ok t =>
    have hgiven : Settings.Acceptable
        ⟨path, Text.lower flags.logFormat, Text.lower flags.logLevel, Text.lower flags.output,
          flags.fmt, flags.preview⟩ :=
      ⟨hpath, hformat, hlevel, houtput, App.Settings.timeout_nonneg_of_check hcheck, htimeout⟩
    rw [hgiven.check_eq] at h
    cases h
    exact hgiven

/-! ## 6. Any command line -/

theorem exists_set?_of_readFlag {flags flags' : Flags} {name : String}
    {value next : Option String} {taken : Nat}
    (h : readFlag flags name value next = .ok (flags', taken)) :
    ∃ f text, Flag.set? flags text f = some flags' := by
  unfold readFlag at h
  split at h
  · cases h
  next f _ =>
  -- a switch is set without a value of its own, any other flag needs one
  by_cases hswitch : f.ty = .switch
  · rw [if_pos hswitch] at h
    split at h
    next hset =>
      cases h
      exact ⟨f, _, hset⟩
    · cases h
  · rw [if_neg hswitch] at h
    split at h
    · cases h
    split at h
    next hset =>
      cases h
      exact ⟨f, _, hset⟩
    · cases h

/-- What setting one flag keeps, reading all of them keeps. -/
theorem readFlags_keeps {P : Flags → Prop}
    (hset : ∀ flags text f flags', Flag.set? flags text f = some flags' → P flags → P flags')
    {flags : Flags} {arguments : List String} {result : Flags × List String}
    (h : readFlags flags arguments = .ok result) (hflags : P flags) : P result.1 := by
  fun_induction readFlags flags arguments with
  | case1 flags =>
    cases h
    exact hflags
  | case2 flags argument rest _ =>
    cases h
    exact hflags
  | case3 flags argument rest _ =>
    cases h
    exact hflags
  | case4 => cases h
  | case5 => cases h
  | case6 flags argument rest name value _ flags' taken hread ih =>
    obtain ⟨f, text, hf⟩ := exists_set?_of_readFlag hread
    exact ih h (hset flags text f flags' hf hflags)

theorem set?_timeout_lt {flags flags' : Flags} {text : String} {f : Flag}
    (h : f.set? flags text = some flags') (hflags : flags.preview.timeout < 2 ^ 63) :
    flags'.preview.timeout < 2 ^ 63 := by
  cases f with
  | previewTimeout =>
    obtain ⟨ns, hns, rfl⟩ := Option.map_eq_some_iff.mp h
    exact Duration.parse?_lt hns
  | fmt =>
    obtain ⟨b, _, rfl⟩ := Option.map_eq_some_iff.mp h
    exact hflags
  | previewInsecure =>
    obtain ⟨b, _, rfl⟩ := Option.map_eq_some_iff.mp h
    exact hflags
  | _ =>
    cases h
    exact hflags

theorem readFlags_timeout_lt {arguments : List String} {result : Flags × List String}
    (h : readFlags Flags.default arguments = .ok result) : result.1.preview.timeout < 2 ^ 63 :=
  readFlags_keeps (fun _ _ _ _ => set?_timeout_lt) h (by decide)

theorem parse_options {s : Settings} (hs : s.Acceptable) {text : Flag → String}
    {order : List Flag} (horder : order.Perm (Flag.all.erase .g))
    (htext : ∀ f ∈ order, f.Gives s (text f)) {rest : List String}
    (hrest : ∀ a ∈ rest.head?, a.toList.head? ≠ some '-') :
    parse (order.map (fun f => optionText f (text f)) ++ rest) = ⟨"", .run s⟩ := by
  obtain ⟨flags, hread, hgiven, hkept⟩ := readFlags_options hs htext Flags.default rest
  have hflags : flags = .of s := by
    refine Flags.eq_of_agrees fun f => ?_
    by_cases hg : f = .g
    · exact hg ▸ hkept .g rfl
    · refine hgiven f (horder.mem_iff.mpr ((List.mem_erase_of_ne hg).mpr ?_))
      cases f <;> decide
  rw [readFlags_positional flags hrest, hflags] at hread
  have hpath : graphPath (.of s) rest = s.graphPath := if_pos (by simpa [Flags.of] using hs.path)
  have hempty : s.graphPath.isEmpty = false := by simpa using hs.path
  unfold parse
  rw [hread]
  simp only [hpath, hempty, Bool.false_eq_true, if_false, settings_of hs]

theorem parse_cases (arguments : List String) :
    (∃ s, parse arguments = ⟨"", .run s⟩ ∧ s.Acceptable) ∨ parse arguments = ⟨usage, .exit⟩ ∨
      ∃ output message, parse arguments = ⟨output, .refuse message⟩ := by
  unfold parse
  split
  · exact .inr (.inl rfl)
  · exact .inr (.inr ⟨_, _, rfl⟩)
  next flags rest hread =>
  by_cases hpath : (graphPath flags rest).isEmpty = true
  · rw [if_pos hpath]
    exact .inr (.inl rfl)
  · rw [if_neg hpath]
    split
    next s hs => exact .inl ⟨s, rfl,
      acceptable_of_settings hs (by simpa using hpath) (readFlags_timeout_lt hread)⟩
    next message _ => exact .inr (.inr ⟨"", message, rfl⟩)

theorem exitCode_of_refuse {arguments : List String} {message : String}
    (h : (parse arguments).request = .refuse message) (w : App.Surroundings) :
    (session arguments w).exitCode = 2 := by
  simp only [session, h]
  rfl

theorem exitCode_of_exit {arguments : List String} (h : (parse arguments).request = .exit)
    (w : App.Surroundings) : (session arguments w).exitCode = 0 := by
  simp only [session, h]
  rfl

theorem exitCode_of_run {arguments : List String} {s : Settings}
    (h : (parse arguments).request = .run s) (w : App.Surroundings) :
    (session arguments w).exitCode ≤ 1 := by
  simp only [session, h, Session.exitCode]
  cases (App.run s w).failure with
  | none => exact Nat.zero_le 1
  | some e => exact Nat.le_refl 1

/-- Acceptable settings are what a command line asks for that gives each flag but the short one with
its value, in any order and whatever arguments follow the flags.  And of any command line there
comes one of three things: acceptable settings, which a further check leaves as they are; the usage;
or a refusal, after which the program ends with code 2, as it does after nothing else. -/
theorem parse_exact :
    (∀ s : Settings, s.Acceptable → ∀ (order : List Flag) (text : Flag → String),
      order.Perm (Flag.all.erase .g) →
      (∀ f ∈ order, f.Gives s (text f)) → ∀ rest : List String,
        (∀ a ∈ rest.head?, a.toList.head? ≠ some '-') →
        parse (order.map (fun f => optionText f (text f)) ++ rest) = ⟨"", .run s⟩) ∧
    ∀ (arguments : List String) (w : App.Surroundings),
      (∃ s, parse arguments = ⟨"", .run s⟩ ∧ s.Acceptable ∧ s.check = .ok s ∧
        (session arguments w).exitCode ≤ 1) ∨
      (parse arguments = ⟨usage, .exit⟩ ∧ (session arguments w).exitCode = 0) ∨
      ∃ message, (parse arguments).request = .refuse message ∧
        (session arguments w).exitCode = 2 := by
  refine ⟨fun s hs order text horder htext rest hrest => parse_options hs horder htext hrest,
    fun arguments w => ?_⟩
  rcases parse_cases arguments with ⟨s, hparse, hs⟩ | hparse | ⟨output, message, hparse⟩
  · exact .inl ⟨s, hparse, hs, hs.check_eq, exitCode_of_run (congrArg Reply.request hparse) w⟩
  · exact .inr (.inl ⟨hparse, exitCode_of_exit (congrArg Reply.request hparse) w⟩)
  · exact .inr (.inr ⟨message, congrArg Reply.request hparse,
      exitCode_of_refuse (congrArg Reply.request hparse) w⟩)

/-- A path that looks like a flag, values with equals signs, dashes and nothing in them, and the
longest time. -/
def oddSettings : Settings where
  graphPath := "-g=x"
  logFormat := "json"
  logLevel := "debug"
  outputFormat := "text"
  formatGraph := true
  preview := ⟨"=a=b", "", "--", 9223372036854775807, false⟩

def oddTexts : Flag → String
  | .fmt => "T"
  | .g => ""
  | .graph => "-g=x"
  | .logFormat => "json"
  | .logLevel => "debug"
  | .output => "text"
  | .previewEvent => "--"
  | .previewInsecure => "0"
  | .previewNamespace => ""
  | .previewTimeout => "9223372036854775807ns"
  | .previewUrl => "=a=b"

def oddArguments : List String :=
  ["-preview-url==a=b", "-preview-timeout=9223372036854775807ns", "-preview-namespace=",
    "-preview-insecure-skip-verify=0", "-preview-event=--", "-output=text", "-log-level=debug",
    "-log-format=json", "-graph=-g=x", "-fmt=T", "other.hcl", "-h"]

theorem oddSettings_parsed :
    oddSettings.Acceptable ∧ parse oddArguments = ⟨"", .run oddSettings⟩ := by
  have hodd : oddSettings.Acceptable := ⟨by decide, by decide, by decide, by decide, by decide⟩
  have htime : oddTexts .previewTimeout =
      Duration.nanosecondsText oddSettings.preview.timeout.toNat := by
    decide +kernel
  have htexts : ∀ f ∈ (Flag.all.erase .g).reverse, f.Gives oddSettings (oddTexts f) := by
    intro f hf
    cases f with
    | g => exact absurd hf (by decide)
    | fmt => exact List.mem_of_elem_eq_true rfl
    | previewInsecure => exact List.mem_of_elem_eq_true rfl
    | previewTimeout => exact htime
    | _ => rfl
  have hparse := parse_exact.1 oddSettings hodd (Flag.all.erase .g).reverse oddTexts
    (List.reverse_perm _) htexts ["other.hcl", "-h"] (by decide)
  have harguments : (Flag.all.erase .g).reverse.map (fun f => optionText f (oddTexts f)) ++
      ["other.hcl", "-h"] = oddArguments := by
    decide +kernel
  rw [harguments] at hparse
  exact ⟨hodd, hparse⟩

end CommandLine

end CypherBlocks
