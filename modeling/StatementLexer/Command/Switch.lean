import StatementLexer.Text.Utf8

namespace StatementLexer.Command

/-!
# Switches

The switches of the command line.  A flag is on once it is given, a setting
takes a value, and a request for information ends the reading of the arguments
as soon as it is met.
-/

/-- A switch that is on once it is given. -/
inductive Flag where
  | debug
  | keepLastWord
  | dropEmptyWords
  deriving Repr, DecidableEq

/-- A switch that asks for information about the program. -/
inductive Inquiry where
  | help
  | version
  deriving Repr, DecidableEq

/-- A switch that takes a value. -/
inductive Setting where
  | file
  | output
  deriving Repr, DecidableEq

/-- Any switch of the command line. -/
inductive Switch where
  | flag (flag : Flag)
  | inquiry (inquiry : Inquiry)
  | setting (setting : Setting)
  deriving Repr, DecidableEq

namespace Switch

/-- Every switch. -/
def all : List Switch :=
  [.flag .debug, .setting .file, .flag .keepLastWord, .flag .dropEmptyWords,
    .setting .output, .inquiry .help, .inquiry .version]

/-- The long name of a switch, without its dashes. -/
def longName : Switch → String
  | .flag .debug => "debug"
  | .flag .keepLastWord => "flush-eol"
  | .flag .dropEmptyWords => "skip-empty"
  | .inquiry .help => "help"
  | .inquiry .version => "version"
  | .setting .file => "file"
  | .setting .output => "output"

/-- The letter of a switch, for those that have one. -/
def letter? : Switch → Option UInt8
  | .flag .debug => some 0x64
  | .flag .keepLastWord => none
  | .flag .dropEmptyWords => none
  | .inquiry .help => some 0x68
  | .inquiry .version => some 0x56
  | .setting .file => some 0x66
  | .setting .output => some 0x6F

/-- The switch with the given long name. -/
def ofLongName? (name : Bytes) : Option Switch :=
  all.find? fun switch => Utf8.encode switch.longName == name

/-- The switch with the given letter. -/
def ofLetter? (letter : UInt8) : Option Switch :=
  all.find? fun switch => switch.letter? == some letter

/-- The form in which messages name a switch. -/
def display (switch : Switch) : String :=
  match switch with
  | .setting .file => "--file <PATH>"
  | .setting .output => "--output <OUTPUT>"
  | _ => "--" ++ switch.longName

end Switch

end StatementLexer.Command
