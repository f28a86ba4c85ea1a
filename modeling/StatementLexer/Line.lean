import StatementLexer.Token.Basic

namespace StatementLexer

/-!
# Tokens of one line

A line is scanned once from left to right.  The space is the only delimiter:
each space completes the word before it, so two spaces in a row complete an
empty word.  A word that no space follows is incomplete, and only
`Options.keepsLastWord` makes it a token.  Every other character, white space
and control characters included, belongs to the word it stands in.
-/

/-- The two choices that scanning a line leaves open. -/
structure Options where
  /--
  A non-empty word at the end of a line is a token although no space follows it.
  -/
  keepsLastWord : Bool := false
  /-- An empty word is no token. -/
  dropsEmptyWords : Bool := false
  deriving Repr, DecidableEq

/--
The token of a word that a space has completed, unless the options drop it.
-/
def completedToken
    (options : Options)
    (word : List Char)
    (location : Location) : List Token :=
  if options.dropsEmptyWords && word.isEmpty then
    []
  else
    [Token.ofWord (String.ofList word) location]

/--
The token of the word that the end of the line cuts off, if the options keep it.
-/
def lastToken
    (options : Options)
    (word : List Char)
    (location : Location) : List Token :=
  if options.keepsLastWord && !word.isEmpty then
    [Token.ofWord (String.ofList word) location]
  else
    []

/--
Scans the rest of a line.

`start` is where the current word begins, `index` is the number of characters
before the next one, and `seen` holds the characters of the current word so far,
the latest one first.  Columns count from 1, so a word behind a space begins two
columns after the index of that space.
-/
def scanFrom
    (options : Options)
    (start : Location)
    (index : Nat)
    (seen : List Char) :
    List Char → List Token
  | [] =>
      lastToken options seen.reverse start
  | character :: rest =>
      if character = ' ' then
        completedToken options seen.reverse start ++
          scanFrom options { start with column := index + 2 } (index + 1) []
            rest
      else
        scanFrom options start (index + 1) (character :: seen) rest

/-- The tokens of a line that has the given number. -/
def lineTokens
    (options : Options)
    (lineNumber : Nat)
    (line : String) : List Token :=
  scanFrom options { line := lineNumber, column := 1 } 0 [] line.toList

end StatementLexer
