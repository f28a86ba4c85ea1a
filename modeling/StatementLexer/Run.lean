import StatementLexer.Report.Basic
import StatementLexer.Sink
import StatementLexer.Source

namespace StatementLexer

/-!
# Runs

A run reads a source and writes its report to a sink.  The whole source is read
before anything is written, so a source that fails leaves no output.  The report
is then written and passed on, and only after that the source is closed, so a
source that fails to close leaves its report whole.
-/

/-- A step of the work that is worth a remark. -/
inductive Remark where
  | opened (path : String)
  | configured (options : Options)
  | finished (lines tokens : Nat)
  deriving Repr, DecidableEq

/--
What a run leaves behind: remarks in their order, the sink, and how it ended.
-/
structure Run where
  remarks : List Remark := []
  sink : Sink
  result : Except RunFault Unit

namespace Run

/--
How the program ends that makes a run: with the fault of the run, if it has one.
-/
def ending (run : Run) : Except Failure Unit :=
  run.result.mapError .run

/-- The exit status that the result of a run stands for. -/
def exitStatus (run : Run) : ExitStatus :=
  Failure.statusOf run.ending

/-- Writes a text to a sink and passes it on. -/
def deliver
    (text : String)
    (sink : Sink) : Except RunFault Unit × Sink :=
  match sink.write (Utf8.encode text) with
  | (.error fault, after) => (.error (.output fault), after)
  | (.ok (), after) =>
      match after.flush with
      | .error fault => (.error (.output fault), after)
      | .ok () => (.ok (), after)

/-- Closes a source. -/
def close (source : Source) : Except RunFault Unit :=
  match source.closing with
  | .error fault => .error (.source fault)
  | .ok () => .ok ()

/-- Reads a source, writes its report to a sink and closes the source. -/
def ofSource
    (options : Options)
    (format : Format)
    (file : String)
    (source : Source)
    (sink : Sink) : Run :=
  match Report.ofFeed options file source.feed with
  | .error fault =>
      { sink := sink, result := .error (.source fault) }
  | .ok report =>
      let remarks := [Remark.finished report.lines report.tokens.length]
      match deliver (report.render format) sink with
      | (.error fault, after) =>
          { remarks := remarks, sink := after, result := .error fault }
      | (.ok (), after) =>
          { remarks := remarks, sink := after, result := close source }

end Run

end StatementLexer
