namespace StatementLexer

/-!
# Token kinds

A statement is made of type names, operators and values.  Which of the three a
word is depends on its exact spelling only: the listed type names and operators
are recognised as they stand, and every other word, the empty one included, is
a value.
-/

/-- The three kinds of token. -/
inductive Kind where
  | type
  | operator
  | value
  deriving Repr, DecidableEq

namespace Kind

/-- The words that name a type. -/
def typeWords : List String :=
  ["int", "float"]

/-- The words that are operators. -/
def operatorWords : List String :=
  ["+", "-", "*", "/"]

/-- A word names a type when it is one of the listed type names. -/
def isTypeWord (word : String) : Bool :=
  typeWords.contains word

/-- A word is an operator when it is one of the listed operators. -/
def isOperatorWord (word : String) : Bool :=
  operatorWords.contains word

/-- The kind of a word: every word that is not listed is a value. -/
def ofWord (word : String) : Kind :=
  if isTypeWord word then
    .type
  else if isOperatorWord word then
    .operator
  else
    .value

/-- The number that stands for a kind in textual output. -/
def code : Kind → Nat
  | .type => 0
  | .operator => 1
  | .value => 2

/-- The name of a kind in structured output. -/
def label : Kind → String
  | .type => "type"
  | .operator => "operator"
  | .value => "value"

/-- The name of a kind in messages to a reader. -/
def title : Kind → String
  | .type => "Type"
  | .operator => "Operator"
  | .value => "Value"

end Kind

end StatementLexer
