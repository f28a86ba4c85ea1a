import StatementLexer.Command.Arguments
import StatementLexer.Run

namespace StatementLexer.Command

/-!
# The program

A run of the program depends on its arguments and on the disk, and leaves an
exit status and what it wrote.  Reports go to the output proper, remarks and
failures to the error output, so that remarks never mix with a report.

Whatever makes the program fail reaches its end as a failure of any kind.  Which
kind it is decides there how it is shown and what the exit status is.
-/

/-- What a run leaves behind. -/
structure Outcome where
  exitStatus : ExitStatus
  output : Bytes := []
  errorOutput : String := ""
  deriving Repr, DecidableEq

/-- The help text. -/
def helpText : String :=
  "Splits space-separated statements into tokens and prints each " ++
  "token's kind code (0 type, 1 operator, 2 value).\n" ++
  "\n" ++
  "Usage: mgs [OPTIONS] --file <PATH>\n" ++
  "\n" ++
  "Options:\n" ++
  "  -d, --debug            Enable debug logging\n" ++
  "  -f, --file <PATH>      Path to the file to tokenize\n" ++
  "      --flush-eol        " ++
  "Emit the last token of a line even when no space follows it\n" ++
  "      --skip-empty       " ++
  "Drop the empty tokens produced by consecutive spaces\n" ++
  "  -o, --output <OUTPUT>  " ++
  "Output format: text (one kind code per line) or json " ++
  "[default: text] [possible values: text, json]\n" ++
  "  -h, --help             Print help\n" ++
  "  -V, --version          Print version\n"

/-- The name and version of the program. -/
def versionText : String :=
  "mgs 0.1.0\n"

/-- The answer to a request for information. -/
def answer : Inquiry → String
  | .help => helpText
  | .version => versionText

/-- A truth value in a remark. -/
def boolText : Bool → String
  | true => "true"
  | false => "false"

/-- The wording of a remark. -/
def remarkText : Remark → String
  | .opened path => "Opened " ++ path
  | .configured options =>
      "Tokenizer options: TokenizerOptions \x7b flush_at_end_of_line: " ++
        boolText options.keepsLastWord ++ ", skip_empty: " ++
        boolText options.dropsEmptyWords ++ " \x7d"
  | .finished lines tokens =>
      "Read " ++ Nat.repr lines ++ " lines, produced " ++ Nat.repr tokens ++
        " tokens"

/-- The line of a remark on the error output. -/
def remarkLine (remark : Remark) : String :=
  "[debug] " ++ remarkText remark ++ "\n"

/-- The lines of remarks, which are written only when they are asked for. -/
def remarkLines
    (debug : Bool)
    (remarks : List Remark) : String :=
  if debug then
    String.join (remarks.map remarkLine)
  else
    ""

/-- The line of a failure on the error output. -/
def failureLine (failure : Failure) : String :=
  failureLead ++ failure.message ++ "\n"

/--
How a failure is shown: refused arguments in their own words, all else on a
line.
-/
def notice (failure : Failure) : String :=
  match failure.asRunFault? with
  | some (.usage text) => text
  | _ => failureLine failure

/-- What the program has written when its work is over, and how that ended. -/
structure Course where
  output : Bytes := []
  remarks : String := ""
  ending : Except Failure Unit := .ok ()

/--
Ends the program: a failure is shown after the remarks and gives the exit
status.
-/
def Course.outcome (course : Course) : Outcome where
  exitStatus := Failure.statusOf course.ending
  output := course.output
  errorOutput :=
    match course.ending with
    | .ok () => course.remarks
    | .error failure => course.remarks ++ notice failure

/-- Lexes an open source. -/
def lexOpened
    (job : Job)
    (file : String)
    (source : Source) : Course :=
  let run := Run.ofSource job.options job.format file source {}
  { output := run.sink.written
    remarks :=
      remarkLines job.debug
        (.opened file :: .configured job.options :: run.remarks)
    ending := run.ending }

/-- Opens the file of a job and lexes it. -/
def execute
    (disk : Disk)
    (job : Job) : Course :=
  match Source.openPath disk job.file with
  | .error fault => { ending := .error (.run (.source fault)) }
  | .ok source => lexOpened job (Utf8.decode job.file) source

/-- Does a job. -/
def runJob
    (disk : Disk)
    (job : Job) : Outcome :=
  (execute disk job).outcome

/-- Does what the arguments ask for. -/
def follow
    (advice : Advice)
    (disk : Disk)
    (arguments : List Bytes) : Course :=
  match readArguments arguments with
  | .ok job => execute disk job
  | .error (.inquiry inquiry) => { output := Utf8.encode (answer inquiry) }
  | .error (.usage error) =>
      { ending := .error (.run (.usage (error.message advice arguments))) }

/-- Runs the program. -/
def run
    (advice : Advice)
    (disk : Disk)
    (arguments : List Bytes) : Outcome :=
  (follow advice disk arguments).outcome

end StatementLexer.Command
