import StatementLexer.Proofs.Joining

namespace StatementLexer

/-!
# Texts that are written to be lexed

Words without spaces and newlines can be written so that lexing gives them back:
a space follows each word, and each line ends in a newline or in a carriage
return and a newline.  This module writes such texts, says where their words
stand, and shows that lexing a text undoes the writing and, as long as lines end
in a bare newline, writing undoes the lexing.
-/

/--
A word that can be written: it holds neither of the marks that end words and
lines.
-/
structure Word where
  text : String
  spaceless : ' ' ∉ text.toList
  unbroken : '\n' ∉ text.toList

/-- A line to be written: its words and how it ends. -/
structure WrittenLine where
  words : List Word
  ending : LineEnd

/-- Words with a space after each. -/
def spacedWords (words : List String) : List Char :=
  words.flatMap fun word => word.toList ++ [' ']

namespace WrittenLine

/-- The characters of a line up to its end. -/
def characters (line : WrittenLine) : List Char :=
  spacedWords (line.words.map Word.text)

/-- The line with a bare newline at its end. -/
def plain (line : WrittenLine) : WrittenLine :=
  { line with ending := .newline }

/--
The tokens of a line that has the given number.

A word begins after the earlier words of its line, each with its space.
-/
def tokens
    (line : WrittenLine)
    (lineNumber : Nat) : List Token :=
  line.words.mapIdx fun index word =>
    Token.ofWord word.text
      { line := lineNumber
        column :=
          1 + ((line.words.take index).map fun earlier =>
            earlier.text.length + 1).sum }

end WrittenLine

/-- The text of lines one after the other. -/
def writtenText (lines : List WrittenLine) : String :=
  String.ofList
    (lines.flatMap fun line =>
      line.characters ++ line.ending.symbols LineMarks.characters)

/-- The tokens of lines that are numbered from one. -/
def writtenTokens (lines : List WrittenLine) : List Token :=
  (lines.mapIdx fun index line => line.tokens (index + 1)).flatten

/-- The text that the tokens of a report are written to, line by line. -/
def Report.rewritten (report : Report) : String :=
  String.ofList
    ((List.range report.lines).flatMap fun index =>
      spacedWords
          ((report.tokens.filter fun token =>
            token.location.line = index + 1).map Token.text) ++
        LineEnd.newline.symbols LineMarks.characters)

namespace WrittenLine

/-- A written line holds no newline. -/
theorem newline_not_mem_characters (line : WrittenLine) :
    '\n' ∉ line.characters := by
  simp only [characters, spacedWords, List.mem_flatMap, List.mem_map,
    not_exists, not_and, List.mem_append, List.mem_singleton, not_or]
  rintro _ ⟨word, _, rfl⟩
  exact ⟨word.unbroken, by decide⟩

/-- A line that has a word ends in a space. -/
theorem getLast?_characters_ne_carriage (line : WrittenLine) :
    line.characters.getLast? ≠ some '\r' := by
  obtain ⟨words, ending⟩ := line
  rcases List.eq_nil_or_concat words with rfl | ⟨earlier, last, rfl⟩
  · simp [characters, spacedWords]
  · simp [characters, spacedWords, List.getLast?_append]

/-- A written line is one that can be joined to others. -/
def terminated (line : WrittenLine) : TerminatedLine where
  text := String.ofList line.characters
  ending := line.ending
  unbroken := by simpa using line.newline_not_mem_characters
  bare := by simpa using fun _ => line.getLast?_characters_ne_carriage

end WrittenLine

/-- Lines are written by joining them. -/
theorem writtenText_eq (lines : List WrittenLine) :
    writtenText lines =
      JoinedLines.text ⟨lines.map WrittenLine.terminated, none⟩ := by
  simp [writtenText, JoinedLines.text, OpenLine.remainder, List.flatMap_map,
    TerminatedLine.characters, WrittenLine.terminated]

/-- The lines of a written text are the written lines. -/
theorem textLines_writtenText (lines : List WrittenLine) :
    textLines (writtenText lines) =
      lines.map fun line => String.ofList line.characters := by
  rw [writtenText_eq, JoinedLines.textLines_text]
  simp [JoinedLines.lines, WrittenLine.terminated]

theorem spacedWords_cons
    (word : String)
    (rest : List String) :
    spacedWords (word :: rest) = word.toList ++ ' ' :: spacedWords rest := by
  simp [spacedWords]

/--
Words with a space after each are cut into the words and nothing after the last
space.
-/
theorem splitOn_spacedWords
    {words : List String}
    (spaceless : ∀ word ∈ words, ' ' ∉ word.toList) :
    List.splitOn ' ' (spacedWords words) = words.map String.toList ++ [[]] := by
  have absent : ∀ piece ∈ words.map String.toList, ' ' ∉ piece := by
    simpa using spaceless
  simpa [spacedWords, List.flatMap_map] using
    splitOn_flatMap_separator absent List.not_mem_nil

/--
Without options, words that nothing follows are tokens, each after the earlier
ones.
-/
theorem segmentTokens_words
    (start : Location)
    (words : List Word) :
    segmentTokens {} start
        ((words.map Word.text).map String.toList ++ [[]]) =
      words.mapIdx fun index word =>
        Token.ofWord word.text
          { start with
            column :=
              start.column +
                ((words.take index).map fun earlier =>
                  earlier.text.length + 1).sum } := by
  have allAdmitted :
      ∀ token ∈ wordTokens start ((words.map Word.text).map String.toList),
        Options.admits {} token = true := by
    simp [Options.admits]
  rw [segmentTokens_append (List.cons_ne_nil [] []),
    List.filter_eq_self.mpr allAdmitted]
  apply List.ext_getElem
  · simp [wordTokens, segmentTokens, lastToken]
  · intro index _ _
    simp [wordTokens, segmentTokens, lastToken, Location.past, ← List.map_take,
      Function.comp_def, String.length_toList]

namespace WrittenLine

/-- The tokens of a written line are its words. -/
theorem lineTokens_characters
    (line : WrittenLine)
    (lineNumber : Nat) :
    lineTokens {} lineNumber (String.ofList line.characters) =
      line.tokens lineNumber := by
  have spaceless : ∀ word ∈ line.words.map Word.text, ' ' ∉ word.toList := by
    intro word member
    obtain ⟨written, _, rfl⟩ := List.mem_map.mp member
    exact written.spaceless
  rw [lineTokens_eq, String.toList_ofList, characters,
    splitOn_spacedWords spaceless, segmentTokens_words]
  rfl

theorem texts_tokens
    (line : WrittenLine)
    (lineNumber : Nat) :
    (line.tokens lineNumber).map Token.text = line.words.map Word.text := by
  apply List.ext_getElem
  · simp [tokens]
  · intro index _ _
    simp [tokens, Token.ofWord]

end WrittenLine

/-- The tokens of written lines stand where they have been written. -/
theorem numberedTokens_characters
    (linesRead : Nat)
    (lines : List WrittenLine) :
    numberedTokens {} linesRead
        (lines.map fun line => String.ofList line.characters) =
      (lines.mapIdx fun index line =>
        line.tokens (linesRead + index + 1)).flatten := by
  rw [numberedTokens_eq_flatten]
  congr 1
  apply List.ext_getElem
  · simp
  · intro index _ _
    simp [WrittenLine.lineTokens_characters]

/--
The tokens of written lines, sorted by line number again, have the words of
these lines.
-/
theorem texts_of_line
    {lines : List WrittenLine}
    {line : WrittenLine}
    {index : Nat}
    (found : lines[index]? = some line)
    (linesRead : Nat) :
    ((numberedTokens {} linesRead
            (lines.map fun line => String.ofList line.characters)).filter
          fun token => token.location.line =
            linesRead + index + 1).map Token.text =
      line.words.map Word.text := by
  have foundText :
      (lines.map fun line => String.ofList line.characters)[index]? =
        some (String.ofList line.characters) := by
    rw [List.getElem?_map, found, Option.map_some]
  rw [filter_line_numberedTokens foundText, WrittenLine.lineTokens_characters,
    WrittenLine.texts_tokens]

theorem writtenTokens_eq (lines : List WrittenLine) :
    writtenTokens lines =
      numberedTokens {} 0
        (lines.map fun line => String.ofList line.characters) := by
  rw [numberedTokens_characters]
  simp only [writtenTokens, Nat.zero_add]

/--
Writing the tokens of written lines gives these lines, each ended by a bare
newline.
-/
theorem rewritten_writtenTokens
    (file : String)
    (lines : List WrittenLine) :
    Report.rewritten
        { file := file, lines := lines.length, tokens := writtenTokens lines } =
      writtenText (lines.map WrittenLine.plain) := by
  simp only [Report.rewritten, writtenText, List.flatMap_def]
  congr 2
  apply List.ext_getElem
  · simp
  · intro index _ within
    rw [List.length_map, List.length_map] at within
    have texts := texts_of_line (List.getElem?_eq_getElem within) 0
    rw [← writtenTokens_eq, Nat.zero_add] at texts
    simp only [List.getElem_map, List.getElem_range, texts]
    rfl

/-- How lines are ended makes no difference to their tokens. -/
theorem writtenTokens_plain (lines : List WrittenLine) :
    writtenTokens (lines.map WrittenLine.plain) = writtenTokens lines := by
  rw [writtenTokens_eq, writtenTokens_eq, List.map_map]
  rfl

/--
A text in memory and a file that it has been written to have the same report.
-/
theorem ofFeed_ofOpenFile_encode
    (options : Options)
    (file path text : String) :
    Report.ofFeed options file
        (Source.ofOpenFile path (.readable (Utf8.encode text))).feed =
      Report.ofFeed options file (Source.ofText text).feed := by
  simp only [Source.ofOpenFile, Source.ofText, fileLines_encode]

/-- Written lines are reported with all of their words. -/
theorem ofFeed_ofText_writtenText
    (file : String)
    (lines : List WrittenLine) :
    Report.ofFeed {} file (Source.ofText (writtenText lines)).feed =
      .ok {
        file := file
        lines := lines.length
        tokens := writtenTokens lines } := by
  rw [Source.ofText, Report.ofFeed_ofLines, textLines_writtenText,
    List.length_map, writtenTokens_eq]

/--
Lexing a written text gives its words back, each at the place where it has been
written, whether the text is held in memory or in a file.  If every line ends in
a bare newline, writing the tokens of the report gives the text back.
-/
theorem ofFeed_writtenText
    (lines : List WrittenLine)
    (file path : String) :
    let text := writtenText lines
    let plain := writtenText (lines.map WrittenLine.plain)
    let report : Report :=
      { file := file, lines := lines.length, tokens := writtenTokens lines }
    Report.ofFeed {} file (Source.ofText text).feed = .ok report ∧
      Report.ofFeed {} file
          (Source.ofOpenFile path (.readable (Utf8.encode text))).feed =
        .ok report ∧
      Report.ofFeed {} file (Source.ofText plain).feed = .ok report ∧
      Report.ofFeed {} file
          (Source.ofOpenFile path (.readable (Utf8.encode plain))).feed =
        .ok report ∧
      report.rewritten = plain := by
  intro text plain report
  have ofText : Report.ofFeed {} file (Source.ofText text).feed = .ok report :=
    ofFeed_ofText_writtenText file lines
  have ofPlain :
      Report.ofFeed {} file (Source.ofText plain).feed = .ok report := by
    rw [ofFeed_ofText_writtenText, List.length_map, writtenTokens_plain]
  refine ⟨ofText, ?_, ofPlain, ?_, rewritten_writtenTokens file lines⟩
  · rw [ofFeed_ofOpenFile_encode, ofText]
  · rw [ofFeed_ofOpenFile_encode, ofPlain]

end StatementLexer
