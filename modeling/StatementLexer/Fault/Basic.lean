import StatementLexer.Fault.ExitStatus
import StatementLexer.Fault.Io

namespace StatementLexer

/-!
# Faults of a run

A source fails while it is opened, read or closed.  A run fails because its
source does, because its output cannot be written or built, or because it was
called wrongly.  Each fault has a message, the chain of messages of what caused
it, and an exit status.
-/

/-- What was being done with a source when it failed. -/
inductive SourceStage where
  | opening
  | reading
  | closing
  deriving Repr, DecidableEq

/-- A source that could not be opened, read or closed. -/
structure SourceFault where
  stage : SourceStage
  path : String
  cause : IoFault
  deriving Repr, DecidableEq

namespace SourceStage

/-- The words that open the message of a fault at a stage. -/
def complaint : SourceStage → String
  | .opening => "Unable to open file: "
  | .reading => "Unable to read file: "
  | .closing => "There was a problem closing the file: "

/-- The exit status of a fault at a stage. -/
def exitStatus : SourceStage → ExitStatus
  | .opening => .fileOpen
  | .reading => .fileRead
  | .closing => .fileClose

end SourceStage

namespace SourceFault

/-- The message of a source fault names the file and the cause. -/
def message (fault : SourceFault) : String :=
  fault.stage.complaint ++ fault.path ++ " (" ++ fault.cause.message ++ ")"

/-- The messages of what caused a source fault, the nearest cause first. -/
def causes (fault : SourceFault) : List String :=
  [fault.cause.message]

end SourceFault

/-- Why a run failed. -/
inductive RunFault where
  /-- The source failed. -/
  | source (fault : SourceFault)
  /-- The arguments were refused with the given text. -/
  | usage (text : String)
  /-- The output could not be written. -/
  | output (fault : IoFault)
  /-- The structured report could not be built. -/
  | serialization (text : String)
  deriving Repr, DecidableEq

namespace RunFault

/-- The message of a fault of a run. -/
def message : RunFault → String
  | .source fault => fault.message
  | .usage text => text
  | .output fault => "IO error: " ++ fault.message
  | .serialization text => "Failed to serialize output: " ++ text

/-- The messages of what caused a fault of a run, the nearest cause first. -/
def causes : RunFault → List String
  | .source fault => fault.message :: fault.causes
  | .usage _ => []
  | .output fault => [fault.message]
  | .serialization text => [text]

/-- The exit status of a fault of a run. -/
def exitStatus : RunFault → ExitStatus
  | .source fault => fault.stage.exitStatus
  | .usage _ => .usage
  | .output _ => .general
  | .serialization _ => .general

end RunFault

/--
Anything that can end a program early.

All that is known of a failure in general is its message and what caused it.
What kind of fault it is has to be asked.
-/
inductive Failure where
  | run (fault : RunFault)
  | source (fault : SourceFault)
  | io (fault : IoFault)
  | plain (text : String)
  deriving Repr, DecidableEq

namespace Failure

/-- The message of a failure. -/
def message : Failure → String
  | .run fault => fault.message
  | .source fault => fault.message
  | .io fault => fault.message
  | .plain text => text

/-- The messages of what caused a failure, the nearest cause first. -/
def causes : Failure → List String
  | .run fault => fault.causes
  | .source fault => fault.causes
  | .io _ => []
  | .plain _ => []

/-- The fault of a run that a failure is, if it is one. -/
def asRunFault? : Failure → Option RunFault
  | .run fault => some fault
  | _ => none

/-- The fault of a source that a failure is, if it is one by itself. -/
def asSourceFault? : Failure → Option SourceFault
  | .source fault => some fault
  | _ => none

/--
The exit status of a failure: the general one unless the fault has its own.
-/
def exitStatus (failure : Failure) : ExitStatus :=
  match failure.asRunFault?, failure.asSourceFault? with
  | some fault, _ => fault.exitStatus
  | none, some fault => fault.stage.exitStatus
  | none, none => .general

/-- The exit status of a program that ends with a failure or without. -/
def statusOf : Except Failure Unit → ExitStatus
  | .ok () => .success
  | .error failure => failure.exitStatus

end Failure

end StatementLexer
