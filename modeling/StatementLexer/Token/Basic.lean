import StatementLexer.Token.Kind

namespace StatementLexer

/-!
# Tokens

A token is a word of the input together with its kind and the place where the
word starts.  Lines and columns are counted from one, columns in characters.
-/

/-- A place in the input: a line number and a column, both counted from one. -/
structure Location where
  line : Nat
  column : Nat
  deriving Repr, DecidableEq

/-- A word of the input with its kind and the place where it starts. -/
structure Token where
  kind : Kind
  text : String
  location : Location
  deriving Repr, DecidableEq

/-- The form in which a place is shown to a reader. -/
def Location.display (location : Location) : String :=
  "Line: " ++ Nat.repr location.line ++ ", Col: " ++ Nat.repr location.column

namespace Token

/--
The token of a word at a place, with the kind that the word's spelling gives.
-/
def ofWord
    (text : String)
    (location : Location) : Token where
  kind := Kind.ofWord text
  text := text
  location := location

/-- The form in which a token is shown to a reader. -/
def display (token : Token) : String :=
  "[(" ++ token.kind.title ++ ": " ++ token.text ++ "), " ++
    token.location.display ++ "]"

end Token

end StatementLexer
