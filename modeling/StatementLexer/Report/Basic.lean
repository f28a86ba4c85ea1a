import StatementLexer.Report.Format
import StatementLexer.Report.Json
import StatementLexer.Lexer

namespace StatementLexer

/-!
# Reports

A report says what was found in a file: how many lines it has and which tokens.
It is written either as one kind code a line or as a JSON document.
-/

/-- What was found in a file. -/
structure Report where
  /-- The name under which the file is reported. -/
  file : String
  /-- How many lines were read. -/
  lines : Nat
  tokens : List Token
  deriving Repr, DecidableEq

namespace Report

/-- Lines of output, each ended by a newline. -/
def unlines (lines : List String) : String :=
  String.join (lines.map fun line => line ++ "\n")

/-- The kind codes of the tokens, one a line. -/
def codes (report : Report) : String :=
  unlines (report.tokens.map fun token => Nat.repr token.kind.code)

/-- The report as a JSON document. -/
def document (report : Report) : String :=
  unlines (JsonText.reportLines report.file report.lines report.tokens)

/-- The text of a report in a format. -/
def render
    (format : Format)
    (report : Report) : String :=
  match format with
  | .text => report.codes
  | .json => report.document

/-- Reads a whole feed into a report; a fault of the feed leaves no report. -/
def ofFeed
    {ε : Type}
    (options : Options)
    (file : String)
    (feed : Feed ε) : Except ε Report :=
  match (Lexer.ofFeed options feed).rest with
  | (.error error, _) => .error error
  | (.ok tokens, lexer) =>
      .ok { file := file, lines := lexer.linesRead, tokens := tokens }

end Report

end StatementLexer
