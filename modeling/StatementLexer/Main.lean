import StatementLexer.Command.Program

namespace StatementLexer.CommandLine

/-!
# The command line

Reads the one file that the arguments name and hands it to the program.
-/

/-- The number that the system gives an error, if it gives one. -/
def systemNumber? : IO.Error → Option UInt32
  | .alreadyExists _ number _
  | .otherError number _
  | .resourceBusy number _
  | .resourceVanished number _
  | .unsupportedOperation number _
  | .hardwareFault number _
  | .unsatisfiedConstraints number _
  | .illegalOperation number _
  | .protocolError number _
  | .timeExpired number _
  | .interrupted _ number _
  | .noFileOrDirectory _ number _
  | .invalidArgument _ number _
  | .permissionDenied _ number _
  | .resourceExhausted _ number _
  | .inappropriateType _ number _
  | .noSuchThing _ number _ => some number
  | .unexpectedEof
  | .userError _ => none

/-- The fault that an error of the system stands for. -/
def faultOfError (error : IO.Error) : IoFault :=
  match (systemNumber? error).bind (SystemFault.ofNumber? ·.toNat) with
  | some fault => .system fault
  | none => .explained (toString error)

/-- How many bytes are read at a time. -/
def chunkSize : USize :=
  8192

/-- Reads an open file to its end or up to the error that ends it. -/
def readHandle (handle : IO.FS.Handle) : IO OpenFile := do
  let mut content := ByteArray.empty
  repeat
    match ← (handle.read chunkSize).toBaseIO with
    | .error error =>
        return .unreadable content.toList (faultOfError error)
    | .ok chunk =>
        if chunk.isEmpty then
          break
        content := content ++ chunk
  return .readable content.toList

/-- Opens and reads the file at a path. -/
def readFile (path : String) : IO (Except IoFault OpenFile) := do
  try
    return .ok (← readHandle (← IO.FS.Handle.mk path .read))
  catch error =>
    return .error (faultOfError error)

/--
The answer of the disk to the path that the arguments name, if they name one.
-/
def diskFor (arguments : List Bytes) : IO Disk := do
  match Command.readArguments arguments with
  | .ok job =>
      let answer ← readFile (Utf8.decode job.file)
      return fun _ => answer
  | .error _ =>
      return fun _ => .error (.system .noSuchFile)

end StatementLexer.CommandLine

open StatementLexer

/-- Runs the program on the arguments of the command line. -/
def main (arguments : List String) : IO UInt32 := do
  let arguments := arguments.map Utf8.encode
  let disk ← CommandLine.diskFor arguments
  let outcome := Command.run .seeHelp disk arguments
  let output ← IO.getStdout
  output.write ⟨outcome.output.toArray⟩
  output.flush
  let errorOutput ← IO.getStderr
  errorOutput.putStr outcome.errorOutput
  return outcome.exitStatus.number.toUInt32
