import StatementLexer.Text.Utf8

namespace StatementLexer

/-!
# Lines

A newline ends a line, together with one carriage return that stands right
before it.  What follows the last newline is a line of its own unless it is
empty, and keeps a carriage return at its end.

The rule is the same for the characters of a text and for the bytes of a file,
so it is written once for any alphabet.  The bytes of a file are cut first and
each line is then read as text by itself.
-/

/-- The two symbols that take part in ending a line. -/
structure LineMarks (α : Type) where
  newline : α
  carriage : α

namespace LineMarks

/-- The line marks among characters. -/
def characters : LineMarks Char :=
  ⟨'\n', '\r'⟩

/-- The line marks among bytes. -/
def bytes : LineMarks UInt8 :=
  ⟨0x0A, 0x0D⟩

end LineMarks

/-- A line that a newline ends, given with its latest symbol first. -/
def endedLine
    {α : Type}
    [DecidableEq α]
    (marks : LineMarks α) :
    List α → List α
  | [] => []
  | latest :: earlier =>
      if latest = marks.carriage then
        earlier.reverse
      else
        (latest :: earlier).reverse

/--
The lines of a sequence, where `seen` holds the current line, the latest symbol
first.
-/
def linesFrom
    {α : Type}
    [DecidableEq α]
    (marks : LineMarks α)
    (seen : List α) :
    List α → List (List α)
  | [] =>
      if seen.isEmpty then
        []
      else
        [seen.reverse]
  | symbol :: rest =>
      if symbol = marks.newline then
        endedLine marks seen :: linesFrom marks [] rest
      else
        linesFrom marks (symbol :: seen) rest

/-- The lines of a text. -/
def textLines (text : String) : List String :=
  (linesFrom LineMarks.characters [] text.toList).map String.ofList

/-- The lines of a file, each of them read as text by itself. -/
def fileLines (content : Bytes) : List String :=
  (linesFrom LineMarks.bytes [] content).map Utf8.decode

/-- What a file holds up to its last newline. -/
def endedPart (content : Bytes) : Bytes :=
  (content.reverse.dropWhile (· ≠ LineMarks.bytes.newline)).reverse

end StatementLexer
