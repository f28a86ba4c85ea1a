import StatementLexer.Command.UsageError
import StatementLexer.Line
import StatementLexer.Report.Format

namespace StatementLexer.Command

/-!
# Arguments

Arguments are read from left to right, and the first problem ends the reading.

A setting without an attached value waits for one.  It takes the next argument
as its value unless that argument is a switch, and it is checked only when a
later switch is met or the arguments end.  An argument that nothing asked for is
therefore reported before a problem of the setting that still waits.
-/

/-- What the arguments ask the program to do. -/
structure Job where
  file : Bytes
  format : Format
  debug : Bool
  options : Options
  deriving Repr, DecidableEq

/-- Why the reading of the arguments ended before a job was known. -/
inductive Halt where
  | usage (error : UsageError)
  | inquiry (inquiry : Inquiry)
  deriving Repr, DecidableEq

/-- Ends the reading with a usage error. -/
def refuse
    {α : Type}
    (error : UsageError) : Except Halt α :=
  .error (.usage error)

/-- The shapes that an argument can have. -/
inductive Argument where
  /-- Two dashes alone, after which nothing may follow. -/
  | terminator
  /-- Two dashes and a name, perhaps with an attached value. -/
  | long (name : Bytes) (value : Option Bytes)
  /-- A dash and at least one letter. -/
  | cluster (letters : Bytes)
  /-- Anything else, a lone dash and the empty argument included. -/
  | plain (value : Bytes)
  deriving Repr, DecidableEq

/-- The byte of a dash. -/
def dash : UInt8 :=
  0x2D

/-- The byte that attaches a value to a name. -/
def equalsSign : UInt8 :=
  0x3D

namespace Argument

/-- The value that the first equals sign attaches to a name, if there is one. -/
def attachedValue? (body : Bytes) : Option Bytes :=
  match body.dropWhile (· ≠ equalsSign) with
  | [] => none
  | _ :: value => some value

/-- The shape of an argument. -/
def ofBytes (argument : Bytes) : Argument :=
  match argument with
  | first :: second :: rest =>
      if first ≠ dash then
        .plain argument
      else if second ≠ dash then
        .cluster (second :: rest)
      else if rest = [] then
        .terminator
      else
        .long (rest.takeWhile (· ≠ equalsSign)) (attachedValue? rest)
  | _ => .plain argument

end Argument

/-- The switches that have been given and checked. -/
structure Given where
  debug : Bool := false
  keepsLastWord : Bool := false
  dropsEmptyWords : Bool := false
  file : Option Bytes := none
  output : Option Format := none
  deriving Repr, DecidableEq

namespace Given

/-- Whether a switch has been given; a request for information never has. -/
def has
    (given : Given) :
    Switch → Bool
  | .flag .debug => given.debug
  | .flag .keepLastWord => given.keepsLastWord
  | .flag .dropEmptyWords => given.dropsEmptyWords
  | .setting .file => given.file.isSome
  | .setting .output => given.output.isSome
  | .inquiry _ => false

/-- Turns a flag on, which can be done only once. -/
def turnOn
    (given : Given)
    (flag : Flag) : Except Halt Given :=
  if given.has (.flag flag) then
    refuse (.repeated (.flag flag))
  else
    match flag with
    | .debug => .ok { given with debug := true }
    | .keepLastWord => .ok { given with keepsLastWord := true }
    | .dropEmptyWords => .ok { given with dropsEmptyWords := true }

/--
Gives a setting its value, which can be done only once and not with an empty
one.
-/
def assign
    (given : Given)
    (setting : Setting)
    (value : Bytes) : Except Halt Given :=
  if given.has (.setting setting) then
    refuse (.repeated (.setting setting))
  else if value = [] then
    refuse (.missingValue setting)
  else
    match setting with
    | .file => .ok { given with file := some value }
    | .output =>
        match Format.ofName? true (Utf8.decode value) with
        | some format => .ok { given with output := some format }
        | none => refuse (.invalidValue value setting)

/-- The job that the given switches describe, if they name a file. -/
def job (given : Given) : Except Halt Job :=
  match given.file with
  | none => refuse .missingFile
  | some file =>
      .ok {
        file := file
        format := given.output.getD .text
        debug := given.debug
        options := {
          keepsLastWord := given.keepsLastWord
          dropsEmptyWords := given.dropsEmptyWords
        }
      }

end Given

/-- The setting that has been met and not been checked yet, if there is one. -/
inductive Waiting where
  | nothing
  /-- The setting has no value so far. -/
  | forValue (setting : Setting)
  /-- The setting has taken the argument after it. -/
  | withValue (setting : Setting) (value : Bytes)
  deriving Repr, DecidableEq

/-- What is known after some arguments. -/
structure Reading where
  given : Given := {}
  waiting : Waiting := .nothing
  /-- Whether two dashes alone have been met. -/
  closed : Bool := false
  deriving Repr, DecidableEq

namespace Reading

/-- Checks the setting that waits. -/
def finish (reading : Reading) : Except Halt Given :=
  match reading.waiting with
  | .nothing => .ok reading.given
  | .forValue setting => refuse (.missingValue setting)
  | .withValue setting value => reading.given.assign setting value

/-- Meets a switch without an attached value. -/
def meet
    (reading : Reading)
    (switch : Switch) : Except Halt Reading := do
  let given ← reading.finish
  match switch with
  | .flag flag => return { given := ← given.turnOn flag }
  | .inquiry inquiry => .error (.inquiry inquiry)
  | .setting setting => return { given := given, waiting := .forValue setting }

/-- Meets a setting with an attached value, which is checked at once. -/
def meetWithValue
    (reading : Reading)
    (setting : Setting)
    (value : Bytes) : Except Halt Reading := do
  let given ← reading.finish
  return { given := ← given.assign setting value }

/-- Reads a long name, perhaps with an attached value. -/
def readLong
    (reading : Reading)
    (name : Bytes)
    (value : Option Bytes) : Except Halt Reading :=
  match Switch.ofLongName? name, value with
  | none, _ => refuse (.unexpectedArgument (dash :: dash :: name))
  | some switch, none => reading.meet switch
  | some (.setting setting), some value => reading.meetWithValue setting value
  | some switch, some value => refuse (.unexpectedValue value switch)

/-- What is reported of a cluster when no switch has its first letter. -/
def unknownLetter (letters : Bytes) : Bytes :=
  match Utf8.firstChar? letters with
  | some character => String.utf8EncodeChar character
  | none => letters

/-- The value that the rest of a cluster attaches to a setting. -/
def attachedRest : Bytes → Bytes
  | [] => []
  | first :: rest =>
      if first = equalsSign then
        rest
      else
        first :: rest

/--
Reads the letters of a cluster; a setting takes all that is left as its value.
-/
def readCluster
    (reading : Reading) :
    Bytes → Except Halt Reading
  | [] => .ok reading
  | letter :: rest =>
      match Switch.ofLetter? letter with
      | none =>
          refuse (.unexpectedArgument (dash :: unknownLetter (letter :: rest)))
      | some (.setting setting) =>
          if rest = [] then
            reading.meet (.setting setting)
          else
            reading.meetWithValue setting (attachedRest rest)
      | some switch => do
          let next ← reading.meet switch
          next.readCluster rest

/--
Reads an argument that is no switch: only a setting that waits for a value takes
it.
-/
def readPlain
    (reading : Reading)
    (value : Bytes) : Except Halt Reading :=
  match reading.waiting with
  | .forValue setting =>
      .ok { reading with waiting := .withValue setting value }
  | _ => refuse (.unexpectedArgument value)

/-- Reads one argument. -/
def read
    (reading : Reading)
    (argument : Bytes) : Except Halt Reading :=
  if reading.closed then
    refuse (.unexpectedArgument argument)
  else
    match Argument.ofBytes argument with
    | .terminator => .ok { reading with closed := true }
    | .long name value => reading.readLong name value
    | .cluster letters => reading.readCluster letters
    | .plain value => reading.readPlain value

end Reading

/--
The job that arguments describe; they come without the name of the program.
-/
def readArguments (arguments : List Bytes) : Except Halt Job := do
  let reading ← arguments.foldlM Reading.read {}
  let given ← reading.finish
  given.job

end StatementLexer.Command
