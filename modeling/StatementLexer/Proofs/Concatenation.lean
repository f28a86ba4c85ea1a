import Mathlib.Data.List.Infix
import Mathlib.Data.List.TakeWhile
import StatementLexer.Proofs.Placement
import StatementLexer.Proofs.RawWords

namespace StatementLexer

/-!
# Files that are put together

A file may grow at its end, and two files may be joined to one.  Where the first
one ends in a newline, nothing of it reaches into the second, so joining files
joins their reports.  Where it ends anywhere else, the join may fall within a
character, a word or the end of a line.  All of this concerns the last word of
the first file only, and as long as such a word is no token, what is added can
only add tokens.
-/

/-- Every segment before the last ones is a line that a newline ends. -/
theorem linesOfSegments_append
    {α : Type}
    [DecidableEq α]
    (marks : LineMarks α)
    (ended : List (List α))
    {others : List (List α)}
    (nonempty : others ≠ []) :
    linesOfSegments marks (ended ++ others) =
      ended.map (withoutCarriage marks) ++ linesOfSegments marks others := by
  induction ended with
  | nil =>
      rfl
  | cons line rest inductionHypothesis =>
      obtain ⟨next, later, shape⟩ :=
        List.exists_cons_of_ne_nil
          (List.append_ne_nil_of_right_ne_nil rest nonempty)
      rw [List.cons_append, shape, linesOfSegments, ← shape,
        inductionHypothesis]
      rfl

/-!
## Joining at the end of a line
-/

/-- The token with its line number raised by some lines. -/
def Token.movedDown
    (lines : Nat)
    (token : Token) : Token :=
  { token with
    location := { token.location with line := token.location.line + lines } }

/-- Segments further down have the same tokens further down. -/
theorem segmentTokens_movedDown
    (options : Options)
    (lines : Nat)
    (start : Location)
    (pieces : List (List Char)) :
    segmentTokens options { start with line := start.line + lines } pieces =
      (segmentTokens options start pieces).map (Token.movedDown lines) := by
  fun_induction segmentTokens options start pieces with
  | case1 start =>
      rfl
  | case2 start last =>
      simp only [segmentTokens, lastToken]
      split <;> rfl
  | case3 start completed next rest inductionHypothesis =>
      simp only [segmentTokens, List.map_append, ← inductionHypothesis,
        completedToken]
      split <;> rfl

/-- Lines that come later have the same tokens further down. -/
theorem numberedTokens_movedDown
    (options : Options)
    (lines linesRead : Nat)
    (content : List String) :
    numberedTokens options (linesRead + lines) content =
      (numberedTokens options linesRead content).map
        (Token.movedDown lines) := by
  induction content generalizing linesRead with
  | nil =>
      rfl
  | cons line rest inductionHypothesis =>
      have first :=
        segmentTokens_movedDown options lines
          { line := linesRead + 1, column := 1 } (List.splitOn ' ' line.toList)
      have later := inductionHypothesis (linesRead + 1)
      simp only [numberedTokens, List.map_append, lineTokens_eq, ← first,
        ← later, Nat.add_right_comm linesRead lines 1]

/--
What is empty or ends in a newline has an empty last segment, since nothing
follows the newline.
-/
theorem exists_splitOn_eq_append_nil
    {content : Bytes}
    (ended : content = [] ∨ content.getLast? = some LineMarks.bytes.newline) :
    ∃ earlier,
      List.splitOn LineMarks.bytes.newline content = earlier ++ [[]] := by
  rcases ended with rfl | newline
  · exact ⟨[], rfl⟩
  · obtain ⟨before, rfl⟩ := List.getLast?_eq_some_iff.mp newline
    obtain ⟨earlier, last, beforeShape⟩ :=
      exists_splitOn_eq_append_last LineMarks.bytes.newline before
    have newlineShape :
        List.splitOn LineMarks.bytes.newline [LineMarks.bytes.newline] =
          [[], []] := rfl
    exact ⟨earlier ++ [last],
      by simpa using splitOn_append_last beforeShape newlineShape⟩

/-- An empty last segment is no line. -/
theorem fileLines_of_splitOn
    {content : Bytes}
    {earlier : List Bytes}
    (shape : List.splitOn LineMarks.bytes.newline content = earlier ++ [[]]) :
    fileLines content =
      (earlier.map (withoutCarriage LineMarks.bytes)).map Utf8.decode := by
  rw [fileLines_eq, shape, linesOfSegments_append _ _ (List.cons_ne_nil [] [])]
  simp [linesOfSegments]

/-- A file is joined to one that ends in a newline line by line. -/
theorem fileLines_append
    {content : Bytes}
    (ended : content = [] ∨ content.getLast? = some LineMarks.bytes.newline)
    (more : Bytes) :
    fileLines (content ++ more) = fileLines content ++ fileLines more := by
  obtain ⟨first, others, moreShape⟩ :=
    List.exists_cons_of_ne_nil
      (List.splitOn_ne_nil LineMarks.bytes.newline more)
  obtain ⟨earlier, contentShape⟩ := exists_splitOn_eq_append_nil ended
  have joined := splitOn_append_last contentShape moreShape
  rw [List.nil_append, ← moreShape] at joined
  rw [fileLines_of_splitOn contentShape, fileLines_eq, fileLines_eq, joined,
    linesOfSegments_append _ _ (List.splitOn_ne_nil _ more), List.map_append]

/-- A file that is empty or ends in a newline has a line for each newline. -/
theorem length_fileLines_of_ended
    {content : Bytes}
    (ended : content = [] ∨ content.getLast? = some LineMarks.bytes.newline) :
    (fileLines content).length = content.count LineMarks.bytes.newline := by
  obtain ⟨earlier, shape⟩ := exists_splitOn_eq_append_nil ended
  have length := length_splitOn LineMarks.bytes.newline content
  rw [shape, List.length_append, List.length_singleton] at length
  rw [fileLines_of_splitOn shape, List.length_map, List.length_map]
  exact Nat.add_right_cancel length

/-- Behind its last newline a file has none. -/
theorem exists_eq_endedPart_append (content : Bytes) :
    ∃ rest,
      content = endedPart content ++ rest ∧ LineMarks.bytes.newline ∉ rest := by
  refine
    ⟨(content.reverse.takeWhile (· ≠ LineMarks.bytes.newline)).reverse, ?_, ?_⟩
  · rw [endedPart, ← List.reverse_append, List.takeWhile_append_dropWhile,
      List.reverse_reverse]
  · intro member
    have differs := List.mem_takeWhile_imp (List.mem_reverse.mp member)
    simp at differs

/-- What a file holds up to its last newline ends in it. -/
theorem endedPart_ended (content : Bytes) :
    endedPart content = [] ∨
      (endedPart content).getLast? = some LineMarks.bytes.newline := by
  have head :=
    List.head?_dropWhile_not (· ≠ LineMarks.bytes.newline) content.reverse
  rw [endedPart, List.getLast?_reverse]
  cases left : content.reverse.dropWhile (· ≠ LineMarks.bytes.newline) with
  | nil =>
      exact Or.inl rfl
  | cons latest earlier =>
      right
      rw [left] at head
      simpa using head

/--
A file that cannot be read to its end gives a line for each newline that could
be read, and these are the first lines of the file, however it goes on.
-/
theorem Source.goodLines_unreadable
    (path : String)
    (before more : Bytes)
    (fault : IoFault) :
    let given :=
      Feed.goodLines (ofOpenFile path (.unreadable before fault)).feed.upcoming
    given.length = before.count LineMarks.bytes.newline ∧
      given <+: fileLines (before ++ more) := by
  intro given
  have givenShape : given = fileLines (endedPart before) := by
    simp [given, ofOpenFile, Feed.goodLines]
  obtain ⟨rest, parts, absent⟩ := exists_eq_endedPart_append before
  have ended := endedPart_ended before
  constructor
  · rw [givenShape, length_fileLines_of_ended ended]
    conv_rhs =>
      rw [parts, List.count_append, List.count_eq_zero_of_not_mem absent]
    rfl
  · conv_rhs => rw [parts, List.append_assoc, fileLines_append ended]
    rw [givenShape]
    exact List.prefix_append _ _

namespace Report

/-- Codes are written token by token. -/
theorem encode_codes_of_append
    {whole first second : Report}
    (kinds :
      whole.tokens.map Token.kind =
        first.tokens.map Token.kind ++ second.tokens.map Token.kind) :
    Utf8.encode whole.codes =
      Utf8.encode first.codes ++ Utf8.encode second.codes := by
  simp only [RawWords.encode_codes, kinds, List.flatMap_append]

end Report

/--
A file that consists of two, the first of which is empty or ends in a newline,
has the lines of both.  Its tokens are those of the first and then those of the
second, moved down by the lines of the first and otherwise unchanged, and what
is written for it in codes is what is written for the two.
-/
theorem ofFile_append_of_ended
    (options : Options)
    (file path : String)
    (content more : Bytes)
    (ended : content = [] ∨ content.getLast? = some 0x0A) :
    let source (bytes : Bytes) := Source.ofOpenFile path (.readable bytes)
    let run (bytes : Bytes) := Run.ofSource options .text file (source bytes) {}
    ∃ first second whole,
      Report.ofFeed options file (source content).feed = .ok first ∧
        Report.ofFeed options file (source more).feed = .ok second ∧
        Report.ofFeed options file (source (content ++ more)).feed = .ok whole ∧
        whole.lines = first.lines + second.lines ∧
        whole.tokens =
          first.tokens ++ second.tokens.map (Token.movedDown first.lines) ∧
        (∀ bytes, (run bytes).result = .ok ()) ∧
        (run (content ++ more)).sink.written =
          (run content).sink.written ++ (run more).sink.written := by
  intro source run
  have lines := fileLines_append ended more
  have tokens :
      (Report.ofFile options file (content ++ more)).tokens =
        (Report.ofFile options file content).tokens ++
          (Report.ofFile options file more).tokens.map
            (Token.movedDown (Report.ofFile options file content).lines) := by
    simp only [Report.ofFile]
    rw [lines, numberedTokens_append, numberedTokens_movedDown]
  have runShape (bytes : Bytes) :=
    Run.ofSource_ofOpenFile options .text file path bytes
  refine ⟨_, _, _, Report.ofFeed_ofOpenFile options file path content,
    Report.ofFeed_ofOpenFile options file path more,
    Report.ofFeed_ofOpenFile options file path (content ++ more),
    ?_, tokens, ?_, ?_⟩
  · simp [Report.ofFile, lines]
  · intro bytes
    simp only [run, source, runShape]
  · simp only [run, source, runShape, Report.render]
    apply Report.encode_codes_of_append
    rw [tokens, List.map_append, List.map_map]
    rfl

/--
A first line that ends in a carriage return and a newline leaves nothing of
itself behind.
-/
theorem ofFile_append_of_ended_carriage :
    let content := Utf8.encode "int x\r\n"
    let more := Utf8.encode " +\r"
    let options : Options := { keepsLastWord := true }
    content.getLast? = some 0x0A ∧
      ∃ first second whole,
        Report.ofFeed options "a"
            (Source.ofOpenFile "a" (.readable content)).feed = .ok first ∧
          Report.ofFeed options "a"
            (Source.ofOpenFile "a" (.readable more)).feed = .ok second ∧
          Report.ofFeed options "a"
            (Source.ofOpenFile "a" (.readable (content ++ more))).feed =
              .ok whole ∧
          whole.lines = first.lines + second.lines ∧
          whole.tokens =
            first.tokens ++
              second.tokens.map (Token.movedDown first.lines) := by
  intro content more options
  have newline : content.getLast? = some 0x0A := by decide
  obtain ⟨first, second, whole,
      readFirst, readSecond, readWhole, lines, tokens, _⟩ :=
    ofFile_append_of_ended options "a" "a" content more (Or.inr newline)
  exact ⟨newline, first, second, whole,
    readFirst, readSecond, readWhole, lines, tokens⟩

/-!
## Adding to the end of a file
-/

section WithoutLastWord

variable {options : Options}

/--
Without its last word, a line has no token that more segments could change.
-/
theorem segmentTokens_prefix_append
    (dropsLast : options.keepsLastWord = false)
    (start : Location)
    (earlier : List (List Char))
    (last : List Char)
    {later : List (List Char)}
    (nonempty : later ≠ []) :
    segmentTokens options start (earlier ++ [last]) <+:
      segmentTokens options start (earlier ++ later) := by
  rw [segmentTokens_append (List.cons_ne_nil last []),
    segmentTokens_append nonempty]
  simp [segmentTokens, lastToken, dropsLast]

/-- What is added to a line can only add tokens. -/
theorem lineTokens_prefix_append
    (dropsLast : options.keepsLastWord = false)
    (lineNumber : Nat)
    (line more : List Char) :
    lineTokens options lineNumber (String.ofList line) <+:
      lineTokens options lineNumber (String.ofList (line ++ more)) := by
  obtain ⟨earlier, last, lineShape⟩ := exists_splitOn_eq_append_last ' ' line
  obtain ⟨first, others, moreShape⟩ :=
    List.exists_cons_of_ne_nil (List.splitOn_ne_nil ' ' more)
  simp only [lineTokens_eq, String.toList_ofList, lineShape,
    splitOn_append_last lineShape moreShape]
  exact segmentTokens_prefix_append dropsLast _ earlier last
    (List.cons_ne_nil _ _)

/--
Characters without a space among them go on with the last word, which is no
token.
-/
theorem lineTokens_append_spaceless
    (dropsLast : options.keepsLastWord = false)
    (lineNumber : Nat)
    (line : List Char)
    {more : List Char}
    (spaceless : ' ' ∉ more) :
    lineTokens options lineNumber (String.ofList (line ++ more)) =
      lineTokens options lineNumber (String.ofList line) := by
  obtain ⟨earlier, last, lineShape⟩ := exists_splitOn_eq_append_last ' ' line
  have joined :=
    splitOn_append_last lineShape (List.splitOn_eq_singleton spaceless)
  simp only [lineTokens_eq, String.toList_ofList, lineShape, joined]
  exact antisymm
    (segmentTokens_prefix_append dropsLast _ earlier _ (List.cons_ne_nil _ _))
    (segmentTokens_prefix_append dropsLast _ earlier _ (List.cons_ne_nil _ _))

/-- A carriage return at the end of a line belongs to its last word. -/
theorem lineTokens_withoutCarriage
    (dropsLast : options.keepsLastWord = false)
    (lineNumber : Nat)
    (line : List Char) :
    lineTokens options lineNumber
        (String.ofList (withoutCarriage LineMarks.characters line)) =
      lineTokens options lineNumber (String.ofList line) := by
  unfold withoutCarriage
  split
  next carriage =>
    obtain ⟨before, rfl⟩ := List.getLast?_eq_some_iff.mp carriage
    rw [List.dropLast_concat]
    symm
    exact lineTokens_append_spaceless dropsLast lineNumber before (by decide)
  next =>
    rfl

/--
Neither a carriage return at the end of a line nor an empty last line makes a
difference.
-/
theorem numberedTokens_linesOfSegments
    (dropsLast : options.keepsLastWord = false)
    (linesRead : Nat)
    (pieces : List (List Char)) :
    numberedTokens options linesRead
        ((linesOfSegments LineMarks.characters pieces).map String.ofList) =
      numberedTokens options linesRead (pieces.map String.ofList) := by
  fun_induction linesOfSegments LineMarks.characters pieces
    generalizing linesRead with
  | case1 =>
      rfl
  | case2 last empty =>
      rw [List.isEmpty_iff.mp empty]
      simp [numberedTokens, lineTokens, scanFrom, lastToken]
  | case3 last nonempty =>
      rfl
  | case4 ended next rest inductionHypothesis =>
      simp only [List.map_cons, numberedTokens] at inductionHypothesis ⊢
      rw [inductionHypothesis, lineTokens_withoutCarriage dropsLast]

/--
The tokens of a text, which may be found without regard to how its lines end.
-/
theorem numberedTokens_textLines
    (dropsLast : options.keepsLastWord = false)
    (characters : List Char) :
    numberedTokens options 0 (textLines (String.ofList characters)) =
      numberedTokens options 0
        ((List.splitOn '\n' characters).map String.ofList) := by
  rw [textLines_eq, String.toList_ofList,
    numberedTokens_linesOfSegments dropsLast]
  rfl

/-- What is added to a text can only add tokens. -/
theorem numberedTokens_textLines_prefix_append
    (dropsLast : options.keepsLastWord = false)
    (characters more : List Char) :
    numberedTokens options 0 (textLines (String.ofList characters)) <+:
      numberedTokens options 0
        (textLines (String.ofList (characters ++ more))) := by
  obtain ⟨earlier, last, shape⟩ := exists_splitOn_eq_append_last '\n' characters
  obtain ⟨first, others, moreShape⟩ :=
    List.exists_cons_of_ne_nil (List.splitOn_ne_nil '\n' more)
  simp only [numberedTokens_textLines dropsLast, shape,
    splitOn_append_last shape moreShape, List.map_append, List.map_cons,
    numberedTokens_append, numberedTokens, List.map_nil, List.append_nil]
  apply (List.prefix_append_right_inj _).mpr
  exact (lineTokens_prefix_append dropsLast _ last first).trans
    (List.prefix_append _ _)

/--
A text that goes on without a space and without a newline has no more tokens.
-/
theorem numberedTokens_textLines_append
    (dropsLast : options.keepsLastWord = false)
    (characters : List Char)
    {more : List Char}
    (spaceless : ' ' ∉ more)
    (unbroken : '\n' ∉ more) :
    numberedTokens options 0 (textLines (String.ofList (characters ++ more))) =
      numberedTokens options 0 (textLines (String.ofList characters)) := by
  obtain ⟨earlier, last, shape⟩ := exists_splitOn_eq_append_last '\n' characters
  have joined := splitOn_append_last shape (List.splitOn_eq_singleton unbroken)
  simp only [numberedTokens_textLines dropsLast, shape, joined, List.map_append,
    List.map_cons, numberedTokens_append, numberedTokens,
    lineTokens_append_spaceless dropsLast _ last spaceless]

/--
What is added to a file can only add tokens, wherever its last character is cut.
The characters that are certain after the file begin both texts.  Alone, they
are followed at most by the replacement of a character that is cut off.
-/
theorem numberedTokens_fileLines_prefix_append
    (dropsLast : options.keepsLastWord = false)
    (content more : Bytes) :
    numberedTokens options 0 (fileLines content) <+:
      numberedTokens options 0 (fileLines (content ++ more)) := by
  let certain := (Utf8.readFrom none content).1
  let state := (Utf8.readFrom none content).2
  have alone :
      Utf8.decode content =
        String.ofList (certain ++ Utf8.decodeFrom state []) :=
    congrArg String.ofList (Utf8.decodeFrom_eq_readFrom none content)
  have together :
      Utf8.decode (content ++ more) =
        String.ofList (certain ++ Utf8.decodeFrom state more) :=
    congrArg String.ofList (Utf8.decodeFrom_append none content more)
  have spaceless : ' ' ∉ Utf8.decodeFrom state [] :=
    Utf8.charOfByte_not_mem_decodeFrom_nil state
      (by decide : (0x20 : UInt8) < 0x80)
  have unbroken : '\n' ∉ Utf8.decodeFrom state [] :=
    Utf8.charOfByte_not_mem_decodeFrom_nil state
      (by decide : (0x0A : UInt8) < 0x80)
  rw [← textLines_decode, ← textLines_decode, alone, together,
    numberedTokens_textLines_append dropsLast certain spaceless unbroken]
  exact numberedTokens_textLines_prefix_append dropsLast certain _

end WithoutLastWord

/-- A file that grows loses no line. -/
theorem length_fileLines_le
    (content more : Bytes) :
    (fileLines content).length ≤ (fileLines (content ++ more)).length := by
  obtain ⟨earlier, last, shape⟩ :=
    exists_splitOn_eq_append_last LineMarks.bytes.newline content
  obtain ⟨first, others, moreShape⟩ :=
    List.exists_cons_of_ne_nil
      (List.splitOn_ne_nil LineMarks.bytes.newline more)
  have lastLines :
      (linesOfSegments LineMarks.bytes [last]).length ≤
        (linesOfSegments LineMarks.bytes
          ((last ++ first) :: others)).length := by
    cases others with
    | nil =>
        cases last <;> simp [linesOfSegments]
    | cons next rest =>
        cases last <;> simp [linesOfSegments]
  simp only [fileLines_eq, List.length_map, shape,
    splitOn_append_last shape moreShape]
  rw [linesOfSegments_append _ _ (List.cons_ne_nil _ _),
    linesOfSegments_append _ _ (List.cons_ne_nil _ _),
    List.length_append, List.length_append]
  exact Nat.add_le_add_left lastLines _

/--
A file that grows at its end keeps its tokens as long as a word that nothing
follows is no token: those of the file come first among those of the grown one,
kinds, texts and places alike.  It has no fewer lines, and what is written for
it in codes begins with what was written before.
-/
theorem ofFile_prefix_of_append
    (dropsEmptyWords : Bool)
    (file path : String)
    (content more : Bytes) :
    let options : Options :=
      { keepsLastWord := false, dropsEmptyWords := dropsEmptyWords }
    let source (bytes : Bytes) := Source.ofOpenFile path (.readable bytes)
    let run (bytes : Bytes) := Run.ofSource options .text file (source bytes) {}
    ∃ report grown,
      Report.ofFeed options file (source content).feed = .ok report ∧
        Report.ofFeed options file (source (content ++ more)).feed = .ok grown ∧
        report.tokens <+: grown.tokens ∧
        report.lines ≤ grown.lines ∧
        (∀ bytes, (run bytes).result = .ok ()) ∧
        (run content).sink.written <+:
          (run (content ++ more)).sink.written := by
  intro options source run
  have tokens :
      (Report.ofFile options file content).tokens <+:
        (Report.ofFile options file (content ++ more)).tokens :=
    numberedTokens_fileLines_prefix_append rfl content more
  have runShape (bytes : Bytes) :=
    Run.ofSource_ofOpenFile options .text file path bytes
  refine ⟨_, _, Report.ofFeed_ofOpenFile options file path content,
    Report.ofFeed_ofOpenFile options file path (content ++ more), tokens,
    length_fileLines_le content more, ?_, ?_⟩
  · intro bytes
    simp only [run, source, runShape]
  · obtain ⟨added, whole⟩ := tokens
    simp only [run, source, runShape, Report.render]
    refine
      ⟨Utf8.encode (Report.codes { file, lines := 0, tokens := added }), ?_⟩
    symm
    apply Report.encode_codes_of_append
    rw [← whole, List.map_append]

end StatementLexer
