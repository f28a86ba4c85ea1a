import StatementLexer.Proofs.JsonDocument
import StatementLexer.Proofs.Splitting

namespace StatementLexer

/-!
# The layout of a document

The file name and the words that a document holds may be any text.  In quotes
they are free of control characters, so a newline of the document is always one
that the layout has put there, and no other control character occurs at all.
The lines of a document are therefore those that it has been laid out in: each
token takes eight of them, at a place that depends on its number only.
-/

/-- A text without control characters, one of which is the newline. -/
def ControlFree (text : String) : Prop :=
  ∀ character ∈ text.toList, 0x20 ≤ character.toNat

@[simp] theorem controlFree_append
    (first second : String) :
    ControlFree (first ++ second) ↔ ControlFree first ∧ ControlFree second := by
  simp [ControlFree, or_imp, forall_and]

theorem ControlFree.not_mem
    {text : String}
    {character : Char}
    (free : ControlFree text)
    (control : character.toNat < 0x20) :
    character ∉ text.toList := by
  intro member
  exact Nat.not_le_of_lt control (free character member)

@[simp] theorem controlFree_repr (number : Nat) :
    ControlFree (Nat.repr number) := by
  intro character member
  rw [Nat.toList_repr] at member
  have digit := Nat.isDigit_of_mem_toDigits (by decide) (by decide) member
  have fromZero : '0'.toNat ≤ character.toNat := by
    simp only [Char.isDigit, Bool.and_eq_true, decide_eq_true_eq] at digit
    exact digit.1
  exact Nat.le_trans (by decide) fromZero

namespace JsonText

/-- A hexadecimal digit is no control character. -/
theorem le_toNat_hexDigit
    {number : Nat}
    (small : number < 16) :
    0x20 ≤ (hexDigit number).toNat := by
  have checked : ∀ number < 16, 0x20 ≤ (hexDigit number).toNat := by
    decide
  exact checked number small

/--
A control character is spelled with characters that are none.  A quote, a
backslash and the five controls that have a letter are spelled by fixed pairs.
-/
theorem le_toNat_of_mem_escape (character : Char) :
    ∀ written ∈ escape character, 0x20 ≤ written.toNat := by
  unfold escape
  split_ifs with quote backslash backspace formFeed newline carriage tab control
  iterate 7
    · simp
  · have high := le_toNat_hexDigit (show character.toNat / 16 < 16 by omega)
    have low := le_toNat_hexDigit (show character.toNat % 16 < 16 by omega)
    simp [high, low]
  · simpa using control

/-- Quoting leaves no control character. -/
@[simp] theorem controlFree_quote (text : String) :
    ControlFree (quote text) := by
  intro character member
  simp only [quote, String.toList_ofList, List.cons_append, List.mem_cons,
    List.mem_append, List.mem_flatMap, List.not_mem_nil, or_false] at member
  rcases member with rfl | ⟨original, _, inEscape⟩ | rfl
  · decide
  · exact le_toNat_of_mem_escape original character inEscape
  · decide

/--
The lines of a token are free of control characters: what is quoted and what is
counted is, and the rest is fixed text.
-/
theorem controlFree_tokenLines
    {separator : String}
    (free : ControlFree separator)
    (token : Token) :
    ∀ line ∈ tokenLines separator token, ControlFree line := by
  simp only [tokenLines, member, List.forall_mem_cons, controlFree_append,
    controlFree_quote, controlFree_repr, free]
  simp [ControlFree]

theorem controlFree_elementLines (tokens : List Token) :
    ∀ line ∈ elementLines tokens, ControlFree line := by
  have nothing : ControlFree "" := by
    simp [ControlFree]
  have comma : ControlFree "," := by
    simp [ControlFree]
  fun_induction elementLines tokens with
  | case1 =>
      simp
  | case2 last =>
      exact controlFree_tokenLines nothing last
  | case3 token rest notLast inductionHypothesis =>
      intro line member
      rcases List.mem_append.mp member with inToken | inRest
      · exact controlFree_tokenLines comma token line inToken
      · exact inductionHypothesis line inRest

theorem controlFree_tokensLines (tokens : List Token) :
    ∀ line ∈ tokensLines tokens, ControlFree line := by
  cases tokens with
  | nil =>
      simp [tokensLines, member, ControlFree]
  | cons token others =>
      have elements := controlFree_elementLines (token :: others)
      simp only [tokensLines, List.forall_mem_append]
      refine ⟨⟨?_, elements⟩, ?_⟩
      · simp [member, ControlFree]
      · simp [ControlFree]

/--
The lines of a report hold no control character, whatever the texts in them.
-/
theorem controlFree_reportLines
    (file : String)
    (lines : Nat)
    (tokens : List Token) :
    ∀ line ∈ reportLines file lines tokens, ControlFree line := by
  simp only [reportLines, List.forall_mem_append]
  refine ⟨⟨?_, controlFree_tokensLines tokens⟩, ?_⟩
  · simp only [member, List.forall_mem_cons, controlFree_append,
      controlFree_quote, controlFree_repr]
    simp [ControlFree]
  · simp [ControlFree]

@[simp] theorem length_tokenLines
    (separator : String)
    (token : Token) :
    (tokenLines separator token).length = 8 :=
  rfl

/-- Every token takes eight lines. -/
theorem length_elementLines (tokens : List Token) :
    (elementLines tokens).length = 8 * tokens.length := by
  fun_induction elementLines tokens with
  | case1 =>
      rfl
  | case2 last =>
      rfl
  | case3 token rest notLast inductionHypothesis =>
      rw [List.length_append, length_tokenLines, inductionHypothesis,
        List.length_cons]
      omega

/-- How many lines a document has depends on the number of tokens alone. -/
theorem length_reportLines
    (file : String)
    (lines : Nat)
    (tokens : List Token) :
    (reportLines file lines tokens).length =
      if tokens = [] then 5 else 8 * tokens.length + 6 := by
  cases tokens with
  | nil =>
      rfl
  | cons token others =>
      simp [reportLines, tokensLines, length_elementLines]

/-- Eight lines of a list are those of the token with that number. -/
theorem elementLines_at
    {tokens : List Token}
    {token : Token}
    {index : Nat}
    (found : tokens[index]? = some token) :
    ((elementLines tokens).drop (8 * index)).take 8 =
      tokenLines (if index + 1 = tokens.length then "" else ",") token := by
  fun_induction elementLines tokens generalizing index with
  | case1 =>
      simp at found
  | case2 last =>
      obtain ⟨rfl, rfl⟩ : index = 0 ∧ last = token := by
        simpa [List.getElem?_singleton] using found
      rfl
  | case3 first rest notLast inductionHypothesis =>
      cases index with
      | zero =>
          obtain rfl : first = token := by
            simpa using found
          have more : ¬ 0 + 1 = (first :: rest).length := by
            intro same
            cases rest with
            | nil =>
                exact notLast rfl
            | cons next later =>
                simp at same
          rw [if_neg more]
          rfl
      | succ index =>
          have later : rest[index]? = some token := by
            simpa using found
          have pastFirst :
              8 * (index + 1) = (tokenLines "," first).length + 8 * index := by
            rw [length_tokenLines]
            omega
          rw [pastFirst, List.drop_length_add_append]
          simpa using inductionHypothesis later

/-- The four lines that come before the first token of a report. -/
def headLines
    (file : String)
    (lines : Nat) : List String :=
  [ "\x7b",
    "  " ++ member "file" (quote file) ++ ",",
    "  " ++ member "lines" (Nat.repr lines) ++ ",",
    "  " ++ member "tokens" "[" ]

theorem reportLines_cons
    (file : String)
    (lines : Nat)
    (token : Token)
    (others : List Token) :
    reportLines file lines (token :: others) =
      headLines file lines ++
        (elementLines (token :: others) ++ ["  ]", "\x7d"]) := by
  simp [reportLines, tokensLines, headLines]

/--
A token stands after the head of the report and eight lines for each token
before it.
-/
theorem reportLines_at
    {tokens : List Token}
    {token : Token}
    {index : Nat}
    (file : String)
    (lines : Nat)
    (found : tokens[index]? = some token) :
    ((reportLines file lines tokens).drop (8 * index + 4)).take 8 =
      tokenLines (if index + 1 = tokens.length then "" else ",") token := by
  cases tokens with
  | nil =>
      simp at found
  | cons first others =>
      obtain ⟨within, _⟩ := List.getElem?_eq_some_iff.mp found
      have enough :
          8 * index + 8 ≤ (elementLines (first :: others)).length := by
        rw [length_elementLines]
        omega
      have pastHead :
          8 * index + 4 = (headLines file lines).length + 8 * index :=
        Nat.add_comm _ _
      rw [reportLines_cons, pastHead, List.drop_length_add_append,
        List.drop_append_of_le_length (by omega),
        List.take_append_of_le_length (by rw [List.length_drop]; omega)]
      exact elementLines_at found

end JsonText

namespace Report

section ControlFreeLines

variable {lines : List String}

/--
Lines without control characters are cut apart where they have been ended.
-/
theorem splitOn_unlines
    (free : ∀ line ∈ lines, ControlFree line) :
    List.splitOn '\n' (unlines lines).toList =
      lines.map String.toList ++ [[]] := by
  have absent : ∀ piece ∈ lines.map String.toList, '\n' ∉ piece := by
    intro piece member
    obtain ⟨line, inLines, rfl⟩ := List.mem_map.mp member
    exact (free line inLines).not_mem (by decide)
  have cut := splitOn_flatMap_separator absent List.not_mem_nil
  simpa [JsonText.toList_unlines, JsonText.unlined, List.flatMap_map] using cut

/--
Lines without control characters are the lines of the text that they are written
to.
-/
theorem textLines_unlines
    (free : ∀ line ∈ lines, ControlFree line) :
    textLines (unlines lines) = lines := by
  have cut :
      List.splitOn LineMarks.characters.newline (unlines lines).toList =
        lines.map String.toList ++ [[]] :=
    splitOn_unlines free
  have kept :
      ∀ line ∈ lines,
        withoutCarriage LineMarks.characters line.toList = line.toList := by
    intro line inLines
    apply if_neg
    intro carriage
    exact (free line inLines).not_mem (by decide)
      (List.mem_of_getLast? carriage)
  have allKept :
      (lines.map String.toList).map (withoutCarriage LineMarks.characters) =
        lines.map String.toList := by
    rw [List.map_map]
    exact List.map_congr_left kept
  rw [textLines_eq, cut, linesOfSegments_append _ _ (List.cons_ne_nil _ _),
    allKept]
  simp [linesOfSegments, Function.comp_def]

/-- There is one newline for each line. -/
theorem count_newline_unlines
    (free : ∀ line ∈ lines, ControlFree line) :
    (unlines lines).toList.count '\n' = lines.length := by
  have pieces := length_splitOn '\n' (unlines lines).toList
  rw [splitOn_unlines free, List.length_append, List.length_map] at pieces
  exact (Nat.succ.inj pieces).symm

/-- The only control character in a document is the newline. -/
theorem eq_newline_of_mem_unlines
    {character : Char}
    (free : ∀ line ∈ lines, ControlFree line)
    (written : character ∈ (unlines lines).toList)
    (control : character.toNat < 0x20) :
    character = '\n' := by
  rw [JsonText.toList_unlines, JsonText.unlined, List.mem_flatMap] at written
  obtain ⟨line, inLines, inLine⟩ := written
  rcases List.mem_append.mp inLine with inText | isNewline
  · exact ((free line inLines).not_mem control inText).elim
  · exact List.mem_singleton.mp isNewline

end ControlFreeLines

/-- A document ends in a newline. -/
theorem getLast?_unlines
    {lines : List String}
    (nonempty : lines ≠ []) :
    (unlines lines).toList.getLast? = some '\n' := by
  obtain ⟨earlier, last, rfl⟩ :=
    List.eq_nil_or_concat lines |>.resolve_left nonempty
  simp [JsonText.toList_unlines, JsonText.unlined]

/--
The document of a report holds no control character but the newline, and ends
in one.  It has five lines without tokens and otherwise six and eight for each
token, whatever the file name and the texts of the tokens are, and these eight
lines are those of the token and of nothing else.
-/
theorem document_keeps_layout (report : Report) :
    let written := (report.render .json).toList
    (∀ character ∈ written, character.toNat < 0x20 → character = '\n') ∧
      written.getLast? = some '\n' ∧
      written.count '\n' =
        (if report.tokens = [] then 5 else 8 * report.tokens.length + 6) ∧
      ∀ index token,
        report.tokens[index]? = some token →
          ((textLines (report.render .json)).drop (8 * index + 4)).take 8 =
            JsonText.tokenLines
              (if index + 1 = report.tokens.length then "" else ",") token := by
  have free :=
    JsonText.controlFree_reportLines report.file report.lines report.tokens
  have nonempty :
      JsonText.reportLines report.file report.lines report.tokens ≠ [] :=
    List.cons_ne_nil _ _
  simp only [render, document]
  refine ⟨?_, getLast?_unlines nonempty, ?_, ?_⟩
  · intro character member control
    exact eq_newline_of_mem_unlines free member control
  · rw [count_newline_unlines free, JsonText.length_reportLines]
  · intro index token found
    rw [textLines_unlines free]
    exact JsonText.reportLines_at report.file report.lines found

/--
A word that imitates the end of its token and a line break does not move the
next token.
-/
theorem document_keeps_layout_imitation :
    let imitation : Token :=
      { kind := .value
        text := "\"\n      \x7d\n    \x7d,\n\x01"
        location := ⟨1, 1⟩ }
    let operator : Token :=
      { kind := .operator, text := "+", location := ⟨1, 20⟩ }
    let report : Report :=
      { file := "a\r\n", lines := 1, tokens := [imitation, operator] }
    let document := report.render .json
    '\n' ∈ document.toList ∧ '\n'.toNat < 0x20 ∧ '\r' ∉ document.toList ∧
      document.toList.count '\n' = 22 ∧
      report.tokens[1]? = some operator ∧
      ((textLines document).drop 12).take 8 =
        JsonText.tokenLines "" operator := by
  intro imitation operator report document
  obtain ⟨controls, last, count, lines⟩ := document_keeps_layout report
  have second : report.tokens[1]? = some operator := rfl
  have noCarriage : '\r' ∉ document.toList := by
    intro carriage
    exact absurd (controls '\r' carriage (by decide)) (by decide)
  exact ⟨List.mem_of_getLast? last, by decide, noCarriage, count, second,
    lines 1 operator second⟩

end Report

end StatementLexer
