import StatementLexer.Command.Switch
import StatementLexer.Text.Terminal

namespace StatementLexer.Command

/-!
# Usage errors

Why arguments are refused, and in which words.  Arguments are repeated in a
message as far as they can be shown.  A message has a paragraph that says what
is wrong, and after it advice whose wording is left open.
-/

/-- Why arguments are refused. -/
inductive UsageError where
  /-- An argument, or a part of one, that nothing asked for. -/
  | unexpectedArgument (argument : Bytes)
  /-- A value attached to a switch that takes none. -/
  | unexpectedValue (value : Bytes) (switch : Switch)
  /-- A setting without a value, or with an empty one. -/
  | missingValue (setting : Setting)
  /-- A switch that has been given before. -/
  | repeated (switch : Switch)
  /-- A value that the setting does not allow. -/
  | invalidValue (value : Bytes) (setting : Setting)
  /-- No file has been named. -/
  | missingFile
  deriving Repr, DecidableEq

namespace UsageError

/-- An argument as a message repeats it. -/
def shown (argument : Bytes) : String :=
  "'" ++ Terminal.plain (Utf8.decode argument) ++ "'"

/-- The name of a switch as a message gives it. -/
def named (switch : Switch) : String :=
  "'" ++ switch.display ++ "'"

/--
The values that a setting allows, on a line of their own if there is a fixed
choice.
-/
def choices : Setting → String
  | .file => ""
  | .output => "\n  [possible values: text, json]"

/-- What is wrong with the arguments. -/
def complaint : UsageError → String
  | .unexpectedArgument argument =>
      "unexpected argument " ++ shown argument ++ " found"
  | .unexpectedValue value switch =>
      "unexpected value " ++ shown value ++ " for " ++ named switch ++
        " found; no more were expected"
  | .missingValue setting =>
      "a value is required for " ++ named (.setting setting) ++
        " but none was supplied" ++ choices setting
  | .repeated switch =>
      "the argument " ++ named switch ++ " cannot be used multiple times"
  | .invalidValue value setting =>
      "invalid value " ++ shown value ++ " for " ++ named (.setting setting) ++
        choices setting
  | .missingFile =>
      "the following required arguments were not provided:\n  " ++
        Switch.display (.setting .file)

end UsageError

/-- The words that begin the line of a failure. -/
def failureLead : String :=
  "Error: "

/-- Some line of a text begins in the way in which failures are written. -/
def HasFailureLine (text : String) : Prop :=
  ∃ line ∈ List.splitOn '\n' text.toList, failureLead.toList <+: line
  deriving Decidable

/-- There is no newline among the bytes. -/
def Unbroken (bytes : Bytes) : Prop :=
  0x0A ∉ bytes
  deriving Decidable

/--
The paragraphs that follow a complaint.

Their text may depend on the arguments and on what is wrong with them.  No line
of it is like that of a failure, unless an argument with a newline brings it in.
-/
structure Advice where
  text : List Bytes → UsageError → String
  quiet :
    ∀ arguments error,
      (∀ argument ∈ arguments, Unbroken argument) →
        ¬ HasFailureLine (text arguments error)

namespace Advice

/-- The advice to look at the help text, and nothing else. -/
def seeHelp : Advice where
  text _ _ := "For more information, try '--help'.\n"
  quiet _ _ _ := by decide

end Advice

/--
The message for refused arguments: what is wrong, and advice after a blank line.
-/
def UsageError.message
    (advice : Advice)
    (arguments : List Bytes)
    (error : UsageError) : String :=
  "error: " ++ error.complaint ++ "\n\n" ++ advice.text arguments error

end StatementLexer.Command
