namespace StatementLexer

/-!
# Output formats

The formats in which a report can be written, and the names by which they are
chosen.
-/

/-- The formats of a report. -/
inductive Format where
  | text
  | json
  deriving Repr, DecidableEq

namespace Format

/-- Every format. -/
def all : List Format :=
  [.text, .json]

/-- The name by which a format is chosen. -/
def name : Format → String
  | .text => "text"
  | .json => "json"

/--
The small form of a text; only the letters from `A` to `Z` have another one.
-/
def lowercase (text : String) : String :=
  String.ofList (text.toList.map Char.toLower)

/--
The format with the given name, where the case of its letters may be ignored.
-/
def ofName?
    (ignoreCase : Bool)
    (text : String) : Option Format :=
  let wanted := if ignoreCase then lowercase text else text
  all.find? fun format => format.name == wanted

/-- The message for a text that names no format. -/
def unknownMessage (text : String) : String :=
  "invalid variant: " ++ text

end Format

end StatementLexer
