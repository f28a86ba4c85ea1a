import StatementLexer.Token.Basic

namespace StatementLexer.JsonText

/-!
# JSON text

The pieces of a JSON document that is laid out with one member a line.  A quoted
text never holds a line break or another control character, so the layout of a
document does not depend on the texts in it.
-/

/-- The digit of a number below sixteen, with small letters. -/
def hexDigit (number : Nat) : Char :=
  Nat.digitChar number

/-- A character as it stands in a quoted text. -/
def escape (character : Char) : List Char :=
  if character = '"' then
    ['\\', '"']
  else if character = '\\' then
    ['\\', '\\']
  else if character = '\x08' then
    ['\\', 'b']
  else if character = '\x0c' then
    ['\\', 'f']
  else if character = '\n' then
    ['\\', 'n']
  else if character = '\r' then
    ['\\', 'r']
  else if character = '\t' then
    ['\\', 't']
  else if character.toNat < 0x20 then
    ['\\', 'u', '0', '0', hexDigit (character.toNat / 16),
      hexDigit (character.toNat % 16)]
  else
    [character]

/-- A text in quotes. -/
def quote (text : String) : String :=
  String.ofList ('"' :: text.toList.flatMap escape ++ ['"'])

/-- A member of an object: its key, a colon and the beginning of its value. -/
def member
    (key value : String) : String :=
  "\"" ++ key ++ "\": " ++ value

/-- The eight lines of a token; `separator` stands between it and a next one. -/
def tokenLines
    (separator : String)
    (token : Token) : List String :=
  [ "    \x7b",
    "      " ++ member "kind" (quote token.kind.label) ++ ",",
    "      " ++ member "text" (quote token.text) ++ ",",
    "      " ++ member "location" "\x7b",
    "        " ++ member "line" (Nat.repr token.location.line) ++ ",",
    "        " ++ member "column" (Nat.repr token.location.column),
    "      \x7d",
    "    \x7d" ++ separator ]

/-- The lines of tokens that a comma separates. -/
def elementLines : List Token → List String
  | [] => []
  | [last] => tokenLines "" last
  | token :: rest => tokenLines "," token ++ elementLines rest

/--
The lines of a list of tokens as a member; an empty list takes no line of its
own.
-/
def tokensLines : List Token → List String
  | [] => ["  " ++ member "tokens" "[]"]
  | token :: rest =>
      ["  " ++ member "tokens" "["] ++ elementLines (token :: rest) ++ ["  ]"]

/-- The lines of a whole report. -/
def reportLines
    (file : String)
    (lines : Nat)
    (tokens : List Token) : List String :=
  [ "\x7b",
    "  " ++ member "file" (quote file) ++ ",",
    "  " ++ member "lines" (Nat.repr lines) ++ "," ] ++
    tokensLines tokens ++ ["\x7d"]

end StatementLexer.JsonText
