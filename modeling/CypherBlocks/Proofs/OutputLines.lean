import CypherBlocks.App.Render
import CypherBlocks.Proofs.Loading
import CypherBlocks.Proofs.Texts

/-!
# Lines of the output

After the query, errors and warnings are written one to a line.  What comes from a graph is quoted
in them, and so its line feeds are gone, with one exception: the label of the block that fails is
put in front as it is.  Each line feed in it begins a line of its own.
-/

namespace CypherBlocks

/-! ## 1. Lines -/

namespace Text

/-- The lines of a text, each of which is ended by a line feed. -/
def printedLines (s : String) : List String := (s.toList.splitOn '\n').dropLast.map String.ofList

/-- The text of some lines. -/
def ended (ls : List String) : String := String.join (ls.map (· ++ "\n"))

theorem toList_ended_cons (l : String) (ls : List String) :
    (ended (l :: ls)).toList = l.toList ++ '\n' :: (ended ls).toList := by
  simp [ended, String.toList_join]

theorem toList_ended (ls : List String) :
    (ended ls).toList = ['\n'].intercalate (ls.map String.toList ++ [[]]) := by
  induction ls with
  | nil => rfl
  | cons l ls ih =>
    rw [toList_ended_cons, ih, List.map_cons, List.cons_append,
      List.intercalate_cons_of_ne_nil (by simp)]
    simp

/-- Lines are printed as they are just if no line feed is in them. -/
theorem printedLines_ended_iff {ls : List String} :
    printedLines (ended ls) = ls ↔ ∀ l ∈ ls, '\n' ∉ l.toList := by
  constructor
  · intro h l hl
    rw [← h] at hl
    obtain ⟨cs, hcs, rfl⟩ := List.mem_map.mp hl
    rw [String.toList_ofList]
    exact not_mem_of_mem_splitOn (List.mem_of_mem_dropLast hcs)
  · intro h
    have hparts : ∀ cs ∈ ls.map String.toList ++ [[]], '\n' ∉ cs := by
      simp only [List.mem_append, List.mem_map, List.mem_singleton]
      rintro cs (⟨l, hl, rfl⟩ | rfl)
      · exact h l hl
      · exact List.not_mem_nil
    rw [printedLines, toList_ended, List.splitOn_intercalate '\n' hparts (by simp),
      List.dropLast_concat, List.map_map]
    simp

theorem length_splitOn (c : Char) (cs : List Char) : (cs.splitOn c).length = cs.count c + 1 := by
  induction cs with
  | nil => simp
  | cons x cs ih =>
    rw [List.splitOn_cons_eq_if_modifyHead, List.count_cons]
    split
    · rw [List.length_cons, ih]
    · rw [List.length_modifyHead, ih]

theorem length_printedLines (s : String) : (printedLines s).length = s.toList.count '\n' := by
  rw [printedLines, List.length_map, List.length_dropLast, length_splitOn, Nat.add_sub_cancel]

/-- Each line feed in a line makes one line more. -/
theorem length_printedLines_ended (ls : List String) :
    (printedLines (ended ls)).length = ls.length + (ls.map (·.toList.count '\n')).sum := by
  rw [length_printedLines]
  induction ls with
  | nil => rfl
  | cons l ls ih =>
    rw [toList_ended_cons, List.count_append, List.count_cons_self, ih, List.length_cons,
      List.map_cons, List.sum_cons]
    omega

/-! ## 2. Texts without line feeds -/

theorem feed_not_mem_append {s t : String} (hs : '\n' ∉ s.toList) (ht : '\n' ∉ t.toList) :
    '\n' ∉ (s ++ t).toList := by
  rw [String.toList_append, List.mem_append, not_or]
  exact ⟨hs, ht⟩

theorem feed_not_mem_hex (width n : Nat) : '\n' ∉ hex width n := by
  induction width generalizing n with
  | zero => exact List.not_mem_nil
  | succ width ih =>
    have hdigit : ∀ m < 16, '\n' ≠ hexDigit m := by decide
    rw [hex, List.mem_append, List.mem_singleton, not_or]
    exact ⟨ih _, hdigit _ (Nat.mod_lt _ (by decide))⟩

/-- What stands for a character in quotes has no line feed, since that is not printable. -/
theorem feed_not_mem_quoteChar (c : Char) : '\n' ∉ quoteChar c := by
  have hescape : ∀ (x : Char) (width : Nat), '\n' ≠ x → '\n' ∉ '\\' :: x :: hex width c.toNat := by
    intro x width hx
    simp [hx, feed_not_mem_hex]
  have hfeed : isPrintable c = true → '\n' ≠ c := by
    rintro hprintable rfl
    exact absurd hprintable (by decide +kernel)
  have hite : ∀ {p : Prop} [Decidable p] {cs rest : List Char}, (p → '\n' ∉ cs) → '\n' ∉ rest →
      '\n' ∉ if p then cs else rest := by
    intro p _ cs rest hcs hrest
    split
    · exact hcs ‹p›
    · exact hrest
  unfold quoteChar
  refine hite (fun _ => by decide)
    (hite (fun _ => by decide) (hite (fun hprintable => by simpa using hfeed hprintable) ?_))
  -- letters for some, code points for the others
  iterate 7 refine hite (fun _ => by decide) ?_
  iterate 2 refine hite (fun _ => hescape _ _ (by decide)) ?_
  exact hescape _ _ (by decide)

theorem feed_not_mem_quoted (s : String) : '\n' ∉ (quoted s).toList := by
  rw [quoted, String.toList_ofList]
  simp [feed_not_mem_quoteChar]

theorem feed_not_mem_int (n : Int) : '\n' ∉ (toString n).toList := by
  have hnat : ∀ m : Nat, '\n' ∉ m.repr.toList := by
    intro m hmem
    rw [Nat.toList_repr] at hmem
    have hdigit := Nat.isDigit_of_mem_toDigits (by decide) (by decide) hmem
    cases hdigit
  cases n with
  | ofNat m => exact hnat m
  | negSucc m => exact feed_not_mem_append (s := "-") (by decide) (hnat (m + 1))

end Text

/-! ## 3. Messages -/

open Text

theorem EmitError.feed_not_mem_text (e : EmitError) : '\n' ∉ e.text.toList := by
  have hrange : ∀ (s t u : String) (a b c : Int), '\n' ∉ s.toList → '\n' ∉ t.toList →
      '\n' ∉ u.toList → '\n' ∉ (s ++ toString a ++ t ++ toString b ++ u ++ toString c).toList := by
    intro s t u a b c hs ht hu
    simp only [String.toList_append, List.mem_append, hs, ht, hu, feed_not_mem_int, or_self,
      not_false_eq_true]
  have hquoted : ∀ s t u : String, '\n' ∉ s.toList → '\n' ∉ u.toList →
      '\n' ∉ (s ++ quoted t ++ u).toList :=
    fun s t u hs hu => feed_not_mem_append (feed_not_mem_append hs (feed_not_mem_quoted t)) hu
  cases e with
  | depthOutOfRange =>
    exact hrange _ _ _ _ _ _ (by decide +kernel) (by decide +kernel) (by decide +kernel)
  | hopsOutOfRange =>
    exact hrange _ _ _ _ _ _ (by decide +kernel) (by decide +kernel) (by decide +kernel)
  | unknownDirection => exact hquoted _ _ _ (by decide +kernel) (by decide +kernel)
  | unknownMode => exact hquoted _ _ _ (by decide +kernel) (by decide +kernel)
  | countTooSmall => exact feed_not_mem_append (by decide +kernel) (feed_not_mem_int _)
  | _ => decide +kernel

theorem Chain.ChainError.feed_not_mem_text (e : ChainError) : '\n' ∉ e.text.toList := by
  cases e with
  | cycle id =>
    exact feed_not_mem_append (feed_not_mem_append (by decide +kernel) (feed_not_mem_quoted id))
      (by decide +kernel)
  | unknownTarget id =>
    exact feed_not_mem_append (feed_not_mem_append (by decide +kernel) (feed_not_mem_quoted id))
      (by decide +kernel)
  | _ => decide +kernel

/-- All line feeds of a message about a block are in the label of the block. -/
theorem EmitError.count_feed_message (e : EmitError) (label : String) :
    (e.diagnosis label).message.toList.count '\n' = label.toList.count '\n' := by
  have htext : e.text.toList.count '\n' = 0 := List.count_eq_zero.mpr e.feed_not_mem_text
  unfold Diagnosis.message
  split
  · rename_i hempty
    have hlabel : label = "" := String.isEmpty_iff.mp hempty
    rw [hlabel]
    exact htext
  · change (label ++ ": " ++ e.text).toList.count '\n' = _
    rw [String.toList_append, String.toList_append, List.count_append, List.count_append, htext]
    rfl

/-! ## 4. The output -/

/-- The query and its line feed, if there is one. -/
def Result.statement (r : Result) : String := if r.text.isEmpty then "" else r.text ++ "\n"

/-- What is said about a graph, errors before warnings. -/
def Result.notes (r : Result) : List String :=
  r.errors.map ("error: " ++ ·) ++ r.warnings.map ("warning: " ++ ·)

/-- A block of the chain is the first that fails. -/
def Graph.StopsAt (g : Graph) (b : Block) : Prop :=
  ∃ r before after d, Chain.resolve g = .ok r ∧ r.chain = before ++ b :: after ∧
    FailsAfter before b d

variable {g : Graph} {b : Block}

theorem join_textWrites (r : Result) :
    String.join (App.textWrites r) = r.statement ++ ended r.notes := by
  apply String.toList_inj.mp
  unfold App.textWrites Result.statement Result.notes ended
  split <;> simp [String.toList_join, List.flatMap_map]

theorem Graph.StopsAt.mem (h : g.StopsAt b) : b ∈ g.blocks := by
  obtain ⟨r, before, after, d, hr, hchain, -⟩ := h
  apply Chain.mem_of_mem_chain hr
  rw [hchain]
  exact List.mem_append_right before List.mem_cons_self

theorem feed_not_mem_warnings : ∀ m ∈ (compile g).warnings, '\n' ∉ m.toList := by
  cases hr : Chain.resolve g with
  | error e =>
    rw [warnings_compile, compileWarnings, hr]
    simp
  | ok r =>
    rw [warnings_of_resolve hr]
    split
    · simp
    · rw [List.forall_mem_singleton]
      decide +kernel

/-- The error of a graph has the line feeds of the label of the block that fails. -/
theorem Graph.StopsAt.exists_error (h : g.StopsAt b) :
    ∃ m, (compile g).errors = [m] ∧ m.toList.count '\n' = b.displayLabel.toList.count '\n' := by
  obtain ⟨r, before, after, d, hr, hchain, hfails⟩ := h
  obtain ⟨a, -, hemit⟩ := id hfails
  obtain ⟨e, rfl, -⟩ := emit_eq_error hemit
  exact ⟨_, congrArg Result.errors (compile_of_failsAfter hr hchain hfails), e.count_feed_message _⟩

theorem feed_not_mem_errors (h : ∀ b, g.StopsAt b → '\n' ∉ b.displayLabel.toList) :
    ∀ m ∈ (compile g).errors, '\n' ∉ m.toList := by
  intro m hm
  obtain ⟨d, hd, rfl⟩ := exists_query_of_mem_errors hm
  obtain ⟨e, -, rfl⟩ | ⟨r, before, b, after, hr, hchain, hfails⟩ | rfl := query_eq_error hd
  · exact e.feed_not_mem_text
  · have hstops : g.StopsAt b := ⟨r, before, after, d, hr, hchain, hfails⟩
    obtain ⟨m, herrors, hcount⟩ := hstops.exists_error
    rw [herrors, List.mem_singleton] at hm
    rw [hm, ← List.count_eq_zero, hcount, List.count_eq_zero]
    exact h b hstops
  · decide +kernel

/-- Every line feed in the label of the block that fails makes one line more. -/
theorem Graph.StopsAt.length_printedLines (h : g.StopsAt b) :
    (printedLines (ended (compile g).notes)).length = (compile g).notes.length +
      b.displayLabel.toList.count '\n' := by
  obtain ⟨m, herrors, hm⟩ := h.exists_error
  have hwarnings : (((compile g).warnings.map ("warning: " ++ ·)).map (·.toList.count '\n')).sum =
      0 := by
    apply List.sum_eq_zero
    simp only [List.map_map, List.mem_map]
    rintro n ⟨w, hw, rfl⟩
    exact List.count_eq_zero.mpr (feed_not_mem_append (by decide) (feed_not_mem_warnings w hw))
  have herror : ("error: " ++ m).toList.count '\n' = m.toList.count '\n' := by
    rw [String.toList_append, List.count_append]
    exact Nat.zero_add _
  rw [length_printedLines_ended, Result.notes, List.map_append, List.sum_append, hwarnings, herrors,
    List.map_singleton, List.map_singleton, List.sum_singleton, herror, hm, Nat.add_zero]

/-- As text, a result is its query, ended by a line feed, and then its errors and warnings.  Each of
them is one line just if no line feed is in the label of the block that fails, whatever else was
written in the graph; otherwise there are more lines than errors and warnings. -/
theorem notes_one_line_iff (g : Graph) :
    String.join (App.resultWrites App.textOutput (compile g)) = (compile g).statement ++ ended
      (compile g).notes ∧
      (printedLines (ended (compile g).notes) = (compile g).notes ↔
        ∀ b, g.StopsAt b → '\n' ∉ b.displayLabel.toList) ∧
      ∀ b, g.StopsAt b →
        (printedLines (ended (compile g).notes)).length = (compile g).notes.length +
          b.displayLabel.toList.count '\n' := by
  refine ⟨join_textWrites _, ⟨fun h b hb => ?_, fun h => ?_⟩, fun b hb => hb.length_printedLines⟩
  · have hlength := hb.length_printedLines
    rw [h] at hlength
    exact List.count_eq_zero.mp (by omega)
  · rw [printedLines_ended_iff, Result.notes]
    simp only [List.mem_append, List.mem_map]
    rintro l (⟨m, hm, rfl⟩ | ⟨m, hm, rfl⟩)
    · exact feed_not_mem_append (by decide) (feed_not_mem_errors h m hm)
    · exact feed_not_mem_append (by decide) (feed_not_mem_warnings m hm)

/-- A direction that would be a line of its own if it were not quoted, and an id that would. -/
def quotedWalk : Graph where
  blocks := [⟨"s", "", some .start⟩, ⟨"pick\n", "", some (.selectById "e1")⟩,
    ⟨"far", " Far \n", some (.neighborhood ⟨"out\nwarning: all is well", 2, [], [], []⟩)⟩]
  connections := [⟨"s", "pick\n"⟩, ⟨"pick\n", "far"⟩]

theorem quotedWalk_one_line :
    printedLines (String.join (App.resultWrites App.textOutput (compile quotedWalk))) =
      ["error: Far: direction \"out\\nwarning: all is well\" is not one of out, in, both",
        "warning: " ++ Chain.missingEndWarning] := by
  obtain ⟨houtput, hlines, -⟩ := notes_one_line_iff quotedWalk
  have hlabels : ∀ b, quotedWalk.StopsAt b → '\n' ∉ b.displayLabel.toList := by
    have hblocks : ∀ b ∈ quotedWalk.blocks, '\n' ∉ b.displayLabel.toList := by decide +kernel
    exact fun b hb => hblocks b hb.mem
  have hstatement : (compile quotedWalk).statement = "" := by decide +kernel
  rw [houtput, hstatement, String.empty_append, hlines.mpr hlabels]
  decide +kernel

/-- A search for nothing, with a label of two lines. -/
def forgedSearch : Graph where
  blocks :=
    [⟨"s", "", some .start⟩, ⟨"find", "Find\nwarning: all is well", some (.textSearch ⟨"", 0⟩)⟩,
      ⟨"e", "", some .finish⟩]
  connections := [⟨"s", "find"⟩, ⟨"find", "e"⟩]

/-- There is one error and no warning, but a line that looks like one. -/
theorem forgedSearch_two_lines :
    (compile forgedSearch).notes = ["error: Find\nwarning: all is well: query is required"] ∧
      printedLines (String.join (App.resultWrites App.textOutput (compile forgedSearch))) =
        ["error: Find", "warning: all is well: query is required"] := by decide +kernel

end CypherBlocks
