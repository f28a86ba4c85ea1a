import StatementLexer.Command.Program
import StatementLexer.Proofs.Effects
import StatementLexer.Proofs.Refusals

namespace StatementLexer.Command

/-!
# How the program ends

The program goes on to a file exactly if the grammar has its arguments and they
describe a job.  It may end because of its arguments, because the file that they
name cannot be opened or read, or with a report on that file.  Each of these
endings has its own exit number or output, nothing is written to the output
proper in any but the last one and in answer to a request for information, and
no other ending is possible.
-/

/-- The ways in which the program can end. -/
inductive Ending where
  /-- The arguments ask for information about the program. -/
  | information
  /-- The arguments are refused. -/
  | refusal
  /-- The file cannot be opened. -/
  | unopened
  /-- The file is opened and cannot be read to its end. -/
  | unread
  /-- The file is read and reported on. -/
  | reported
  deriving Repr, DecidableEq

namespace Ending

/-- The exit number of an ending. -/
def number : Ending → Nat
  | .information => 0
  | .refusal => 2
  | .unopened => 3
  | .unread => 4
  | .reported => 0

/--
What has led to an ending and what the program leaves behind.

The first two endings are the same whatever the disk holds.  What is written
about refused arguments is never what is written about a failure, and only a
newline in an argument can make one of its lines look like it.  Remarks come
before a failure to read and after a success, if they are asked for, and never
before a failure to open.  How much of a file could be read before its reading
failed makes no difference.
-/
def Fits
    (advice : Advice)
    (disk : Disk)
    (arguments : List Bytes) :
    Ending → Prop
  | .information =>
      ∃ inquiry,
        readArguments arguments = .error (.inquiry inquiry) ∧
          ∀ other,
            run advice other arguments =
              { exitStatus := .success
                output := Utf8.encode (answer inquiry)
                errorOutput := "" }
  | .refusal =>
      ∃ error,
        let message := error.message advice arguments
        readArguments arguments = .error (.usage error) ∧
          (∀ other,
            run advice other arguments =
              { exitStatus := .usage
                output := []
                errorOutput := message }) ∧
          "error: ".toList <+: message.toList ∧
          (∀ debug remarks failure,
            message ≠ remarkLines debug remarks ++ failureLine failure) ∧
          (HasFailureLine message → ∃ argument ∈ arguments, 0x0A ∈ argument)
  | .unopened =>
      ∃ job fault,
        readArguments arguments = .ok job ∧
          disk job.file = .error fault ∧
          run advice disk arguments =
            { exitStatus := .fileOpen
              output := []
              errorOutput :=
                "Error: " ++
                  SourceFault.message
                    { stage := .opening
                      path := Utf8.decode job.file
                      cause := fault } ++ "\n" }
  | .unread =>
      ∃ job before fault,
        readArguments arguments = .ok job ∧
          disk job.file = .ok (.unreadable before fault) ∧
          run advice disk arguments =
            { exitStatus := .fileRead
              output := []
              errorOutput :=
                (if job.debug then
                    remarkLine (.opened (Utf8.decode job.file)) ++
                      remarkLine (.configured job.options)
                  else
                    "") ++
                  ("Error: " ++
                    SourceFault.message
                      { stage := .reading
                        path := Utf8.decode job.file
                        cause := fault } ++ "\n") }
  | .reported =>
      ∃ job content,
        let report := Report.ofFile job.options (Utf8.decode job.file) content
        readArguments arguments = .ok job ∧
          disk job.file = .ok (.readable content) ∧
          run advice disk arguments =
            { exitStatus := .success
              output := Utf8.encode (report.render job.format)
              errorOutput :=
                if job.debug then
                  remarkLine (.opened (Utf8.decode job.file)) ++
                    remarkLine (.configured job.options) ++
                    remarkLine (.finished report.lines report.tokens.length)
                else
                  "" }

/-- The ending that arguments and a disk lead to. -/
def ofRun
    (disk : Disk)
    (arguments : List Bytes) : Ending :=
  match readArguments arguments with
  | .error (.inquiry _) => .information
  | .error (.usage _) => .refusal
  | .ok job =>
      match disk job.file with
      | .error _ => .unopened
      | .ok (.unreadable _ _) => .unread
      | .ok (.readable _) => .reported

end Ending

/-- Accepted arguments lead to their job. -/
theorem run_of_accepted
    (advice : Advice)
    (disk : Disk)
    {arguments : List Bytes}
    {job : Job}
    (accepted : readArguments arguments = .ok job) :
    run advice disk arguments = runJob disk job := by
  rw [run, follow, accepted, runJob]

/-- A file that cannot be opened is reported, with or without remarks. -/
theorem runJob_of_error
    {disk : Disk}
    {job : Job}
    {fault : IoFault}
    (failed : disk job.file = .error fault) :
    runJob disk job =
      { exitStatus := .fileOpen
        output := []
        errorOutput :=
          failureLine (.run (.source {
            stage := .opening
            path := Utf8.decode job.file
            cause := fault })) } := by
  simp only [runJob, execute, Source.openPath, failed]
  rfl

/-- A file that cannot be read to its end is reported after two remarks. -/
theorem runJob_of_unreadable
    {disk : Disk}
    {job : Job}
    {before : Bytes}
    {fault : IoFault}
    (opened : disk job.file = .ok (.unreadable before fault)) :
    runJob disk job =
      { exitStatus := .fileRead
        output := []
        errorOutput :=
          remarkLines job.debug
              [.opened (Utf8.decode job.file), .configured job.options] ++
            failureLine (.run (.source {
              stage := .reading
              path := Utf8.decode job.file
              cause := fault })) } := by
  simp only [runJob, execute, Source.openPath, opened, lexOpened,
    Run.ofSource_unreadable]
  rfl

/-- A file that can be read is reported on. -/
theorem runJob_of_readable
    {disk : Disk}
    {job : Job}
    {content : Bytes}
    (opened : disk job.file = .ok (.readable content)) :
    let report := Report.ofFile job.options (Utf8.decode job.file) content
    runJob disk job =
      { exitStatus := .success
        output := Utf8.encode (report.render job.format)
        errorOutput :=
          remarkLines job.debug
            [.opened (Utf8.decode job.file), .configured job.options,
              .finished report.lines report.tokens.length] } := by
  simp only [runJob, execute, Source.openPath, opened, lexOpened,
    Run.ofSource_ofOpenFile]
  rfl

theorem remarkLines_two
    (debug : Bool)
    (first second : Remark) :
    remarkLines debug [first, second] =
      if debug then remarkLine first ++ remarkLine second else "" := by
  simp [remarkLines]

theorem remarkLines_three
    (debug : Bool)
    (first second third : Remark) :
    remarkLines debug [first, second, third] =
      if debug then
        remarkLine first ++ remarkLine second ++ remarkLine third
      else
        "" := by
  simp [remarkLines, String.append_assoc]

/-- What the program writes about a failure begins with a remark or with it. -/
theorem head?_remarkLines_failureLine
    (debug : Bool)
    (remarks : List Remark)
    (failure : Failure) :
    let written := remarkLines debug remarks ++ failureLine failure
    written.toList.head? = some '[' ∨ written.toList.head? = some 'E' := by
  intro written
  cases debug with
  | false =>
      right
      simp [written, remarkLines, failureLine, failureLead]
  | true =>
      cases remarks with
      | nil =>
          right
          simp [written, remarkLines, failureLine, failureLead]
      | cons remark later =>
          left
          simp [written, remarkLines, remarkLine]

/-- The message for refused arguments begins in its own way. -/
theorem prefix_message
    (advice : Advice)
    (arguments : List Bytes)
    (error : UsageError) :
    "error: ".toList <+: (error.message advice arguments).toList := by
  simp only [UsageError.message, String.toList_append, List.append_assoc]
  exact List.prefix_append _ _

/--
The message for refused arguments is never what is written about a failure.
-/
theorem message_ne_failureReport
    (advice : Advice)
    (arguments : List Bytes)
    (error : UsageError)
    (debug : Bool)
    (remarks : List Remark)
    (failure : Failure) :
    error.message advice arguments ≠
      remarkLines debug remarks ++ failureLine failure := by
  intro same
  have first :
      (error.message advice arguments).toList.head? = some 'e' := by
    simp [UsageError.message]
  rw [same] at first
  rcases head?_remarkLines_failureLine debug remarks failure with remark | lead
  · rw [remark] at first
    exact absurd first (by decide)
  · rw [lead] at first
    exact absurd first (by decide)

namespace Ending

/-- The program leaves behind what belongs to the ending it is led to. -/
theorem fits_ofRun
    (advice : Advice)
    (disk : Disk)
    (arguments : List Bytes) :
    (ofRun disk arguments).Fits advice disk arguments := by
  unfold ofRun
  split
  next inquiry asked =>
    refine ⟨inquiry, asked, ?_⟩
    intro other
    rw [run, follow, asked]
    rfl
  next error refused =>
    have outcome (other : Disk) :
        run advice other arguments =
          { exitStatus := .usage
            output := []
            errorOutput := error.message advice arguments } := by
      rw [run, follow, refused]
      exact congrArg (Outcome.mk .usage []) String.empty_append
    exact ⟨error, refused, outcome, prefix_message advice arguments error,
      message_ne_failureReport advice arguments error,
      exists_newline_of_hasFailureLine refused⟩
  next job accepted =>
    have goesOn := run_of_accepted advice disk accepted
    split
    next fault failed =>
      refine ⟨job, fault, accepted, failed, ?_⟩
      rw [goesOn, runJob_of_error failed]
      rfl
    next before fault opened =>
      refine ⟨job, before, fault, accepted, opened, ?_⟩
      rw [goesOn, runJob_of_unreadable opened, remarkLines_two]
      rfl
    next content opened =>
      refine ⟨job, content, accepted, opened, ?_⟩
      rw [goesOn, runJob_of_readable opened, remarkLines_three]

/-- Arguments and a disk lead to one ending only. -/
theorem eq_ofRun_of_fits
    {advice : Advice}
    {disk : Disk}
    {arguments : List Bytes}
    {ending : Ending}
    (fits : ending.Fits advice disk arguments) :
    ending = ofRun disk arguments := by
  cases ending with
  | information =>
      obtain ⟨inquiry, asked, _⟩ := fits
      simp [ofRun, asked]
  | refusal =>
      obtain ⟨error, refused, _⟩ := fits
      simp [ofRun, refused]
  | unopened =>
      obtain ⟨job, fault, accepted, failed, _⟩ := fits
      simp [ofRun, accepted, failed]
  | unread =>
      obtain ⟨job, before, fault, accepted, opened, _⟩ := fits
      simp [ofRun, accepted, opened]
  | reported =>
      obtain ⟨job, content, accepted, opened, _⟩ := fits
      simp [ofRun, accepted, opened]

/-- The exit number is the one that belongs to the ending. -/
theorem number_exitStatus_of_fits
    {advice : Advice}
    {disk : Disk}
    {arguments : List Bytes}
    {ending : Ending}
    (fits : ending.Fits advice disk arguments) :
    (run advice disk arguments).exitStatus.number = ending.number := by
  cases ending with
  | information =>
      obtain ⟨inquiry, _, outcome⟩ := fits
      rw [outcome disk]
      rfl
  | refusal =>
      obtain ⟨error, _, outcome, _⟩ := fits
      rw [outcome disk]
      rfl
  | unread =>
      obtain ⟨job, before, fault, _, _, outcome⟩ := fits
      rw [outcome]
      rfl
  | unopened | reported =>
      obtain ⟨job, _, _, _, outcome⟩ := fits
      rw [outcome]
      rfl

end Ending

/--
Whatever the arguments and the disk are, the program ends in exactly one of five
ways, with the exit number and the output that belong to it.  The exit numbers 1
and 5 do not occur.
-/
theorem run_ends_in_one_way
    (advice : Advice)
    (disk : Disk)
    (arguments : List Bytes) :
    let outcome := run advice disk arguments
    (∃! ending : Ending,
        ending.Fits advice disk arguments ∧
          outcome.exitStatus.number = ending.number) ∧
      outcome.exitStatus.number ≠ 1 ∧
      outcome.exitStatus.number ≠ 5 := by
  intro outcome
  have fits := Ending.fits_ofRun advice disk arguments
  have number : outcome.exitStatus.number = _ :=
    Ending.number_exitStatus_of_fits fits
  refine ⟨⟨Ending.ofRun disk arguments, ⟨fits, number⟩, ?_⟩, ?_, ?_⟩
  · rintro ending ⟨otherFits, _⟩
    exact Ending.eq_ofRun_of_fits otherFits
  · rw [number]
    cases Ending.ofRun disk arguments <;> decide
  · rw [number]
    cases Ending.ofRun disk arguments <;> decide

/--
A refusal may have a line like that of a failure.  The argument is repeated with
the newline that it has, and what follows the newline begins a line.
-/
theorem run_repeats_failureLine :
    let outcome :=
      run .seeHelp (fun _ => .error (.system .noSuchFile))
        [Utf8.encode "x\nError: y"]
    outcome.exitStatus.number = 2 ∧
      outcome.output = [] ∧
      "error: ".toList <+: outcome.errorOutput.toList ∧
      HasFailureLine outcome.errorOutput := by
  intro outcome
  decide

/--
Arguments lead to the same outcome on every disk exactly if they stand for no
job.  A job ends differently on a disk without files and on one of empty files.
-/
theorem run_eq_run_iff
    (advice : Advice)
    {arguments : List Bytes} :
    (∀ disk other, run advice disk arguments = run advice other arguments) ↔
      ¬ ∃ job, readArguments arguments = .ok job := by
  constructor
  · rintro same ⟨job, accepted⟩
    have differ :=
      same (fun _ => .error .zeroByteInName) (fun _ => .ok (.readable []))
    rw [run_of_accepted advice _ accepted, run_of_accepted advice _ accepted,
      runJob_of_error rfl, runJob_of_readable rfl] at differ
    have sameStatus := congrArg Outcome.exitStatus differ
    simp at sameStatus
  · intro noJob disk other
    cases shape : readArguments arguments with
    | ok job =>
        exact (noJob ⟨job, shape⟩).elim
    | error halt =>
        simp only [run, follow, shape]
        cases halt <;> rfl

/--
The program goes on to a job exactly if its arguments are a sentence of the
grammar that describes the job.  Whatever the disk holds plays no part in the
outcome of other arguments.
-/
theorem run_eq_runJob_iff_sentence
    (advice : Advice)
    (arguments : List Bytes) :
    (∀ job,
        (∃ mentions, Sentence arguments mentions ∧ Describes mentions job) ↔
          readArguments arguments = .ok job ∧
            ∀ disk, run advice disk arguments = runJob disk job) ∧
      ((∀ disk other,
          run advice disk arguments = run advice other arguments) ↔
        ¬ ∃ job mentions,
          Sentence arguments mentions ∧ Describes mentions job) := by
  constructor
  · intro job
    rw [← readArguments_eq_ok_iff]
    constructor
    · intro accepted
      exact ⟨accepted, fun disk => run_of_accepted advice disk accepted⟩
    · rintro ⟨accepted, _⟩
      exact accepted
  · simp only [run_eq_run_iff, readArguments_eq_ok_iff]

end StatementLexer.Command
