namespace StatementLexer

/-!
# Input and output faults

The causes for which the system, or a device standing in for it, refuses to
open, read, write or close.  A cause that comes with a number from the system
shows that number in its message.
-/

/-- The refusals of the system that have a number. -/
inductive SystemFault where
  | noSuchFile
  | inputOutput
  | badDescriptor
  | permissionDenied
  | notDirectory
  | isDirectory
  | noSpace
  | brokenPipe
  | nameTooLong
  deriving Repr, DecidableEq

namespace SystemFault

/-- Every refusal that has a number. -/
def all : List SystemFault :=
  [.noSuchFile, .inputOutput, .badDescriptor, .permissionDenied, .notDirectory,
    .isDirectory, .noSpace, .brokenPipe, .nameTooLong]

/-- The number of a refusal. -/
def number : SystemFault → Nat
  | .noSuchFile => 2
  | .inputOutput => 5
  | .badDescriptor => 9
  | .permissionDenied => 13
  | .notDirectory => 20
  | .isDirectory => 21
  | .noSpace => 28
  | .brokenPipe => 32
  | .nameTooLong => 36

/-- The refusal that has the given number. -/
def ofNumber? (number : Nat) : Option SystemFault :=
  all.find? fun fault => fault.number == number

/-- The description of a refusal. -/
def description : SystemFault → String
  | .noSuchFile => "No such file or directory"
  | .inputOutput => "Input/output error"
  | .badDescriptor => "Bad file descriptor"
  | .permissionDenied => "Permission denied"
  | .notDirectory => "Not a directory"
  | .isDirectory => "Is a directory"
  | .noSpace => "No space left on device"
  | .brokenPipe => "Broken pipe"
  | .nameTooLong => "File name too long"

end SystemFault

/-- The sorts of fault that may be known without any further detail. -/
inductive FaultSort where
  | notFound
  | permissionDenied
  | brokenPipe
  | invalidInput
  | invalidData
  | unexpectedEnd
  | writeZero
  | timedOut
  | other
  deriving Repr, DecidableEq

/-- The description of a sort of fault. -/
def FaultSort.description : FaultSort → String
  | .notFound => "entity not found"
  | .permissionDenied => "permission denied"
  | .brokenPipe => "broken pipe"
  | .invalidInput => "invalid input parameter"
  | .invalidData => "invalid data"
  | .unexpectedEnd => "unexpected end of file"
  | .writeZero => "write zero"
  | .timedOut => "timed out"
  | .other => "other error"

/-- Why an input or output operation failed. -/
inductive IoFault where
  /-- The system refused. -/
  | system (fault : SystemFault)
  /-- Only the sort of the fault is known. -/
  | unexplained (sort : FaultSort)
  /-- A device gave its own explanation. -/
  | explained (explanation : String)
  /-- No file name can hold a zero byte. -/
  | zeroByteInName
  /-- A device took no more bytes although some were left to write. -/
  | shortWrite
  deriving Repr, DecidableEq

/-- The message of an input or output fault. -/
def IoFault.message : IoFault → String
  | .system fault =>
      fault.description ++ " (os error " ++ Nat.repr fault.number ++ ")"
  | .unexplained sort => sort.description
  | .explained explanation => explanation
  | .zeroByteInName => "file name contained an unexpected NUL byte"
  | .shortWrite => "failed to write whole buffer"

end StatementLexer
