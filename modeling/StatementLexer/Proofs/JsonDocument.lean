import StatementLexer.Proofs.Effects
import StatementLexer.Proofs.Encoding
import StatementLexer.Proofs.JsonLexemes

namespace StatementLexer

/-!
# Reading the document of a report

A report can be read back from its JSON document.  The reader knows the shape of
a report, that is, which keys stand in which order, and looks at nothing but the
lexemes of the text.  Since every document is read as the report that it was
written for, different reports have different documents, and the codes of a
report can be had from its document.
-/

namespace JsonText

/--
A place in a shape: where one lexeme has to stand, or where any may stand.
-/
inductive Slot where
  | exactly (lexeme : Lexeme)
  | anything
  deriving Repr, DecidableEq

/--
The lexemes that fill the open places of a shape, and the lexemes after it.
-/
def fill? : List Slot → List Lexeme → Option (List Lexeme × List Lexeme)
  | [], rest => some ([], rest)
  | _ :: _, [] => none
  | .exactly wanted :: slots, lexeme :: rest =>
      if lexeme = wanted then
        fill? slots rest
      else
        none
  | .anything :: slots, lexeme :: rest =>
      (fill? slots rest).map fun filled => (lexeme :: filled.1, filled.2)

/-- A shape takes as many lexemes as it has places. -/
theorem length_of_fill?
    {slots : List Slot}
    {lexemes taken rest : List Lexeme}
    (filled : fill? slots lexemes = some (taken, rest)) :
    lexemes.length = slots.length + rest.length := by
  fun_induction fill? slots lexemes generalizing taken with
  | case1 =>
      simp_all
  | case2 | case4 =>
      simp at filled
  | case3 wanted slots rest inductionHypothesis =>
      have shorter := inductionHypothesis filled
      simp only [List.length_cons]
      omega
  | case5 slots lexeme rest inductionHypothesis =>
      obtain ⟨later, filledLater, same⟩ := Option.map_eq_some_iff.mp filled
      obtain ⟨_, rfl⟩ := Prod.mk.inj same
      have shorter := inductionHypothesis filledLater
      simp only [List.length_cons]
      omega

/-- The shape of a token: kind, text, line and column are open. -/
def tokenShape : List Slot :=
  [ .exactly .openBrace,
    .exactly (.text "kind"), .exactly .colon, .anything, .exactly .comma,
    .exactly (.text "text"), .exactly .colon, .anything, .exactly .comma,
    .exactly (.text "location"), .exactly .colon, .exactly .openBrace,
    .exactly (.text "line"), .exactly .colon, .anything, .exactly .comma,
    .exactly (.text "column"), .exactly .colon, .anything,
    .exactly .closeBrace, .exactly .closeBrace ]

/--
The shape of a report up to its tokens: file and number of lines are open.
-/
def headShape : List Slot :=
  [ .exactly .openBrace,
    .exactly (.text "file"), .exactly .colon, .anything, .exactly .comma,
    .exactly (.text "lines"), .exactly .colon, .anything, .exactly .comma,
    .exactly (.text "tokens"), .exactly .colon, .exactly .openBracket ]

/-- The kind that has the given label. -/
def kindOf? (label : String) : Option Kind :=
  [Kind.type, .operator, .value].find? fun kind => kind.label == label

/-- The token that the open places of its shape make up. -/
def tokenOf? : List Lexeme → Option Token
  | [.text label, .text text, .number line, .number column] =>
      (kindOf? label).map fun kind =>
        { kind := kind, text := text, location := ⟨line, column⟩ }
  | _ => none

/-- One or more tokens that commas separate, up to the bracket behind them. -/
def elements? (lexemes : List Lexeme) : Option (List Token × List Lexeme) :=
  match _ : fill? tokenShape lexemes with
  | some (taken, .comma :: rest) =>
      match tokenOf? taken, elements? rest with
      | some token, some (later, after) => some (token :: later, after)
      | _, _ => none
  | some (taken, .closeBracket :: rest) =>
      (tokenOf? taken).map fun token => ([token], rest)
  | _ => none
termination_by lexemes.length
decreasing_by
  have shorter := length_of_fill? ‹_›
  simp only [List.length_cons] at shorter
  omega

/-- The tokens of a list, up to the bracket behind them. -/
def tokens? : List Lexeme → Option (List Token × List Lexeme)
  | .closeBracket :: rest => some ([], rest)
  | lexemes => elements? lexemes

/-- The report that lexemes make up. -/
def reportOf? (lexemes : List Lexeme) : Option Report :=
  match fill? headShape lexemes with
  | some ([.text file, .number lines], rest) =>
      match tokens? rest with
      | some (tokens, [.closeBrace]) =>
          some { file := file, lines := lines, tokens := tokens }
      | _ => none
  | _ => none

/-- The lexemes of a token. -/
def tokenLexemes (token : Token) : List Lexeme :=
  [ .openBrace,
    .text "kind", .colon, .text token.kind.label, .comma,
    .text "text", .colon, .text token.text, .comma,
    .text "location", .colon, .openBrace,
    .text "line", .colon, .number token.location.line, .comma,
    .text "column", .colon, .number token.location.column,
    .closeBrace, .closeBrace ]

/-- The lexemes of tokens that commas separate. -/
def elementLexemes : List Token → List Lexeme
  | [] => []
  | [last] => tokenLexemes last
  | token :: rest => tokenLexemes token ++ .comma :: elementLexemes rest

/-- The lexemes of a report up to its tokens. -/
def headLexemes
    (file : String)
    (lines : Nat) : List Lexeme :=
  [ .openBrace,
    .text "file", .colon, .text file, .comma,
    .text "lines", .colon, .number lines, .comma,
    .text "tokens", .colon, .openBracket ]

/-- The lexemes of a report. -/
def reportLexemes (report : Report) : List Lexeme :=
  headLexemes report.file report.lines ++
    (elementLexemes report.tokens ++ [Lexeme.closeBracket, Lexeme.closeBrace])

theorem kindOf?_label (kind : Kind) :
    kindOf? kind.label = some kind := by
  cases kind <;> rfl

/-- The lexemes of a token fill its shape. -/
theorem fill?_tokenLexemes
    (token : Token)
    (rest : List Lexeme) :
    fill? tokenShape (tokenLexemes token ++ rest) =
      some ([.text token.kind.label, .text token.text,
        .number token.location.line, .number token.location.column], rest) := by
  rfl

/-- A token can be made again from what its lexemes hold. -/
theorem tokenOf?_open (token : Token) :
    tokenOf?
        [.text token.kind.label, .text token.text,
          .number token.location.line, .number token.location.column] =
      some token := by
  simp [tokenOf?, kindOf?_label]

/-- A token before a comma is the first of the tokens that follow. -/
theorem elements?_of_comma
    {lexemes taken rest after : List Lexeme}
    {token : Token}
    {later : List Token}
    (filled : fill? tokenShape lexemes = some (taken, .comma :: rest))
    (first : tokenOf? taken = some token)
    (others : elements? rest = some (later, after)) :
    elements? lexemes = some (token :: later, after) := by
  rw [elements?]
  split <;> simp_all

/-- A token before the bracket is the last one. -/
theorem elements?_of_closeBracket
    {lexemes taken after : List Lexeme}
    {token : Token}
    (filled : fill? tokenShape lexemes = some (taken, .closeBracket :: after))
    (last : tokenOf? taken = some token) :
    elements? lexemes = some ([token], after) := by
  rw [elements?]
  split <;> simp_all

/-- Tokens that commas separate are read back up to the bracket behind them. -/
theorem elements?_elementLexemes
    (token : Token)
    (others : List Token)
    (after : List Lexeme) :
    elements? (elementLexemes (token :: others) ++ .closeBracket :: after) =
      some (token :: others, after) := by
  induction others generalizing token with
  | nil =>
      have filled := fill?_tokenLexemes token (.closeBracket :: after)
      exact elements?_of_closeBracket filled (tokenOf?_open token)
  | cons next rest inductionHypothesis =>
      have filled :=
        fill?_tokenLexemes token
          (.comma :: (elementLexemes (next :: rest) ++ .closeBracket :: after))
      have read :=
        elements?_of_comma filled (tokenOf?_open token)
          (inductionHypothesis next)
      simpa [elementLexemes] using read

/--
A list of tokens can be read back, an empty one too.  What is not empty begins
with an opening brace.
-/
theorem tokens?_elementLexemes
    (tokens : List Token)
    (after : List Lexeme) :
    tokens? (elementLexemes tokens ++ .closeBracket :: after) =
      some (tokens, after) := by
  cases tokens with
  | nil =>
      rfl
  | cons token others =>
      have read := elements?_elementLexemes token others after
      cases others with
      | nil =>
          exact read
      | cons next rest =>
          exact read

/-- A report is read back from its lexemes. -/
theorem reportOf?_reportLexemes (report : Report) :
    reportOf? (reportLexemes report) = some report := by
  have filled :
      fill? headShape (reportLexemes report) =
        some ([.text report.file, .number report.lines],
          elementLexemes report.tokens ++ [.closeBracket, .closeBrace]) := by
    rfl
  rw [reportOf?, filled]
  simp [tokens?_elementLexemes]

/-- The characters of lines, each ended by a newline. -/
def unlined (lines : List String) : List Char :=
  lines.flatMap fun line => line.toList ++ ['\n']

theorem toList_unlines (lines : List String) :
    (Report.unlines lines).toList = unlined lines := by
  simp [Report.unlines, unlined, String.toList_join, List.flatMap_map]

/--
The lines of a token spell its lexemes and those of the separator behind it.
-/
theorem spells_tokenLines
    {separator : String}
    {separation : List Lexeme}
    (separates : Spells separator.toList separation)
    (token : Token) :
    Spells (unlined (tokenLines separator token))
      (tokenLexemes token ++ separation) := by
  have kind :
      Spells "    \x7b\n      \"kind\": ".toList
        [.openBrace, .text "kind", .colon] := by
    rfl
  have text :
      Spells ",\n      \"text\": ".toList [.comma, .text "text", .colon] := by
    rfl
  have location :
      Spells ",\n      \"location\": \x7b\n        \"line\": ".toList
        [.comma, .text "location", .colon, .openBrace, .text "line",
          .colon] := by
    rfl
  have column (number : Nat) :
      scan (.number number) ",\n        \"column\": ".toList =
        some ([.number number, .comma, .text "column", .colon], .between) := by
    rfl
  have closing (number : Nat) :
      scan (.number number) "\n      \x7d\n    \x7d".toList =
        some ([.number number, .closeBrace, .closeBrace], .between) := by
    rfl
  have newline : Spells ['\n'] [] := by
    rfl
  have spelled :=
    kind.append (Spells.text token.kind.label
      (text.append (Spells.text token.text
        (location.append (Spells.number token.location.line
          (column token.location.line) (Spells.number token.location.column
            (closing token.location.column) (separates.append newline)))))))
  simpa [unlined, tokenLines, member, tokenLexemes] using spelled

theorem unlined_append
    (first second : List String) :
    unlined (first ++ second) = unlined first ++ unlined second := by
  simp [unlined]

theorem spells_elementLines (tokens : List Token) :
    Spells (unlined (elementLines tokens)) (elementLexemes tokens) := by
  have nothing : Spells "".toList [] := by
    rfl
  have comma : Spells ",".toList [.comma] := by
    rfl
  fun_induction elementLines tokens with
  | case1 =>
      rfl
  | case2 last =>
      simpa [elementLexemes] using spells_tokenLines nothing last
  | case3 token rest notLast inductionHypothesis =>
      have spelled := (spells_tokenLines comma token).append inductionHypothesis
      rw [unlined_append, elementLexemes]
      · simpa using spelled
      · exact notLast

theorem spells_tokensLines (tokens : List Token) :
    Spells (unlined (tokensLines tokens))
      (.text "tokens" :: .colon :: .openBracket ::
        (elementLexemes tokens ++ [.closeBracket])) := by
  cases tokens with
  | nil =>
      rfl
  | cons token others =>
      have opening :
          Spells (unlined ["  " ++ member "tokens" "["])
            [.text "tokens", .colon, .openBracket] := by
        rfl
      have closing : Spells (unlined ["  ]"]) [.closeBracket] := by
        rfl
      have spelled :=
        (opening.append (spells_elementLines (token :: others))).append closing
      rw [tokensLines, unlined_append, unlined_append]
      exact spelled

/-- The document of a report spells its lexemes. -/
theorem lexemes?_document (report : Report) :
    lexemes? report.document = some (reportLexemes report) := by
  have file :
      Spells "\x7b\n  \"file\": ".toList
        [.openBrace, .text "file", .colon] := by
    rfl
  have lines :
      Spells ",\n  \"lines\": ".toList [.comma, .text "lines", .colon] := by
    rfl
  have comma :
      scan (.number report.lines) [',', '\n'] =
        some ([.number report.lines, .comma], .between) := by
    rfl
  have closing : Spells ['\x7d', '\n'] [.closeBrace] := by
    rfl
  have spelled :=
    file.append (Spells.text report.file
      (lines.append (Spells.number report.lines comma
        ((spells_tokensLines report.tokens).append closing))))
  have shape :
      Spells report.document.toList (reportLexemes report) := by
    rw [Report.document, toList_unlines]
    simpa [reportLines, unlined, member, reportLexemes, headLexemes]
      using spelled
  rw [lexemes?, shape]

end JsonText

namespace Report

/-- The report that a text is a document of, if it is one. -/
def read? (text : String) : Option Report :=
  (JsonText.lexemes? text).bind JsonText.reportOf?

/-- A report is read back from its document. -/
theorem read?_document (report : Report) :
    read? report.document = some report := by
  rw [read?, JsonText.lexemes?_document]
  exact JsonText.reportOf?_reportLexemes report

/--
Every report can be read back from its document, so reports with the same
document are the same.  If a source is lexed twice with success, once to a
document and once to codes, then the kinds that are read back from the document
have exactly the codes that have been written.
-/
theorem document_agrees_with_codes :
    (∀ report : Report, read? (report.render .json) = some report) ∧
      (∀ first second : Report,
        first.render .json = second.render .json ↔ first = second) ∧
      ∀ (options : Options)
        (source : Source)
        (jsonFile textFile : String)
        (jsonSink textSink : Sink),
        let json := Run.ofSource options .json jsonFile source jsonSink
        let text := Run.ofSource options .text textFile source textSink
        jsonSink.written = [] →
          textSink.written = [] →
          json.result = .ok () →
          text.result = .ok () →
          ∃ report,
            read? (Utf8.decode json.sink.written) = some report ∧
              text.sink.written =
                Utf8.encode
                  (unlines (report.tokens.map fun token =>
                    Nat.repr token.kind.code)) := by
  refine ⟨read?_document, ?_, ?_⟩
  · intro first second
    constructor
    · intro same
      have sameReading := congrArg read? same
      rw [render, render, read?_document, read?_document] at sameReading
      exact Option.some.inj sameReading
    · rintro rfl
      rfl
  · intro options source jsonFile textFile jsonSink textSink json text
      jsonNew textNew jsonSucceeded textSucceeded
    obtain ⟨_, jsonWritten⟩ := Run.written_of_result_ok jsonNew jsonSucceeded
    obtain ⟨_, textWritten⟩ := Run.written_of_result_ok textNew textSucceeded
    let lines := Feed.goodLines source.feed.upcoming
    let report : Report :=
      { file := jsonFile
        lines := lines.length
        tokens := numberedTokens options 0 lines }
    refine ⟨report, ?_, ?_⟩
    · rw [jsonWritten, Run.rendering, Utf8.decode_encode]
      exact read?_document report
    · rw [textWritten]
      rfl

/--
Words that look like the end of a text or of a list do not mislead the reader.
-/
theorem document_agrees_with_codes_quotes :
    let source : Source :=
      { feed := { upcoming := [.item "int \"\x7d], \\\" \x00", .item "+"] } }
    let json :=
      Run.ofSource { keepsLastWord := true } .json "a\",\n" source {}
    let text := Run.ofSource { keepsLastWord := true } .text "memory" source {}
    json.result = .ok () ∧ text.result = .ok () ∧
      ∃ report,
        read? (Utf8.decode json.sink.written) = some report ∧
          text.sink.written =
            Utf8.encode
              (unlines (report.tokens.map fun token =>
                Nat.repr token.kind.code)) := by
  intro source json text
  have good : Feed.firstFault? source.feed.upcoming = none := rfl
  have jsonSucceeded : json.result = .ok () :=
    (Run.ofSource_without_faults good rfl _ .json _).1
  have textSucceeded : text.result = .ok () :=
    (Run.ofSource_without_faults good rfl _ .text _).1
  exact ⟨jsonSucceeded, textSucceeded,
    document_agrees_with_codes.2.2 { keepsLastWord := true } source "a\",\n"
      "memory" {} {} rfl rfl jsonSucceeded textSucceeded⟩

end Report

end StatementLexer
