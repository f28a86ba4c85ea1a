import StatementLexer.Proofs.Outcomes

namespace StatementLexer.Command

/-!
# Remarks keep to themselves

Asking for remarks changes what the program says about its work and nothing
else.  The switch for it may be put in anywhere among the arguments, as long as
it is not taken for a value and does not come after two dashes alone.  The
program then does the same job, with the same exit status and output, and the
remarks come before whatever else it writes to the error output.
-/

/-!
## Where a switch may be put in
-/

/--
Arguments after which a switch may be put in: two dashes alone are not among
them, and no setting waits for its value when they have been read.
-/
structure LeaveRoom (arguments : List Bytes) : Prop where
  unclosed : twoDashes ∉ arguments
  served :
    ∀ reading,
      arguments.foldlM Reading.read {} = .ok reading →
        ∀ setting, reading.waiting ≠ .forValue setting

namespace Reading

/-- Only two dashes alone close the arguments. -/
theorem closed_of_read
    {reading next : Reading}
    {argument : Bytes}
    (noEnd : argument ≠ twoDashes)
    (isOpen : reading.closed = false)
    (reads : reading.read argument = .ok next) :
    next.closed = false := by
  by_cases alone : StandsAlone argument
  · obtain ⟨setting, _, rfl⟩ :=
      (read_eq_ok_iff_of_standsAlone alone isOpen).mp reads
    exact isOpen
  · obtain ⟨given, _, readsChecked⟩ :=
      (read_eq_ok_iff_of_switch alone noEnd isOpen).mp reads
    rcases meaning_of_read readsChecked with isEnd | ⟨said, owed, meaning⟩
    · exact (noEnd isEnd).elim
    · rw [read_of_meaning meaning, map_eq_ok_iff] at readsChecked
      obtain ⟨taken, _, rfl⟩ := readsChecked
      cases owed <;> rfl

/-- Arguments without two dashes alone leave the reading open. -/
theorem closed_of_foldlM_read
    {reading next : Reading}
    {arguments : List Bytes}
    (unclosed : twoDashes ∉ arguments)
    (isOpen : reading.closed = false)
    (reads : arguments.foldlM read reading = .ok next) :
    next.closed = false := by
  induction arguments generalizing reading with
  | nil =>
      obtain rfl : reading = next := Except.ok.inj reads
      exact isOpen
  | cons argument rest inductionHypothesis =>
      rw [List.mem_cons, not_or] at unclosed
      rw [List.foldlM_cons, bind_eq_ok_iff] at reads
      obtain ⟨between, readsFirst, readsRest⟩ := reads
      have stillOpen : between.closed = false :=
        closed_of_read (Ne.symm unclosed.1) isOpen readsFirst
      exact inductionHypothesis unclosed.2 stillOpen readsRest

/--
A setting that has its value may be checked before the arguments that follow are
read.
-/
theorem accepts_iff_of_served
    {reading : Reading}
    {arguments : List Bytes}
    {given : Given}
    (isOpen : reading.closed = false)
    (served : ∀ setting, reading.waiting ≠ .forValue setting) :
    reading.Accepts arguments given ↔
      ∃ between,
        reading.finish = .ok between ∧
          Accepts { given := between } arguments given := by
  obtain ⟨before, waiting, closed⟩ := reading
  subst isOpen
  cases waiting with
  | nothing =>
      simp [finish]
  | forValue setting =>
      exact (served setting rfl).elim
  | withValue setting value =>
      exact accepts_withValue

end Reading

/-- Two sentences make one, unless the first is closed. -/
theorem Sentence.append
    {first second : List Bytes}
    {said later : List Mention}
    (sentence : Sentence first said)
    (unclosed : twoDashes ∉ first)
    (others : Sentence second later) :
    Sentence (first ++ second) (said ++ later) := by
  induction sentence with
  | empty =>
      exact others
  | closed =>
      exact (unclosed (List.mem_singleton_self _)).elim
  | alone meaning rest inductionHypothesis =>
      rw [List.mem_cons, not_or] at unclosed
      rw [List.append_assoc]
      exact Sentence.alone meaning (inductionHypothesis unclosed.2)
  | withValue meaning standsAlone rest inductionHypothesis =>
      rw [List.mem_cons, List.mem_cons, not_or, not_or] at unclosed
      rw [List.append_assoc]
      exact Sentence.withValue meaning standsAlone
        (inductionHypothesis unclosed.2.2)

/-- Accepted arguments are two sentences wherever a switch may be put in. -/
theorem sentences_of_leaveRoom
    {earlier later : List Bytes}
    {job : Job}
    (room : LeaveRoom earlier)
    (accepted : readArguments (earlier ++ later) = .ok job) :
    ∃ before after,
      Sentence earlier before ∧ Sentence later after ∧
        Describes (before ++ after) job := by
  rw [readArguments, List.foldlM_append, bind_assoc, bind_eq_ok_iff] at accepted
  obtain ⟨reading, readsEarlier, readsLater⟩ := accepted
  rw [← bind_assoc, bind_eq_ok_iff] at readsLater
  obtain ⟨given, acceptsLater, made⟩ := readsLater
  have isOpen : reading.closed = false :=
    Reading.closed_of_foldlM_read room.unclosed rfl readsEarlier
  obtain ⟨between, finished, acceptsChecked⟩ :=
    (Reading.accepts_iff_of_served isOpen (room.served reading readsEarlier)).mp
      acceptsLater
  have acceptsEarlier : Reading.Accepts {} earlier between := by
    rw [Reading.Accepts, readsEarlier]
    exact finished
  obtain ⟨before, sentence, takenBefore⟩ :=
    Reading.sentence_of_accepts acceptsEarlier
  obtain ⟨after, others, takenAfter⟩ :=
    Reading.sentence_of_accepts acceptsChecked
  have taken : Given.takeAll {} (before ++ after) = .ok given :=
    Given.takeAll_append_eq_ok_iff.mpr ⟨between, takenBefore, takenAfter⟩
  exact ⟨before, after, sentence, others,
    describes_iff.mpr ⟨given, Given.takeAll_eq_ok_iff.mp taken, made⟩⟩

/--
One more mention of the switch for remarks describes the same job with remarks.
-/
theorem Describes.insert_debug
    {before after : List Mention}
    {job : Job}
    (described : Describes (before ++ after) job)
    (silent : job.debug = false) :
    Describes (before ++ .flag .debug :: after) { job with debug := true } := by
  obtain ⟨filled, file, format, flags⟩ := described
  have values
      (setting : Setting) :
      valuesFor setting (before ++ .flag .debug :: after) =
        valuesFor setting (before ++ after) := by
    rw [List.append_cons, valuesFor_append, valuesFor_append, valuesFor_append,
      valuesFor_flag, List.append_nil]
  refine ⟨?_, ?_, ?_, ?_⟩
  · intro setting value member
    apply filled setting value
    simpa using member
  · rw [values]
    exact file
  · simp only [values]
    exact format
  · intro flag
    have counted := flags flag
    rw [List.count_append] at counted
    rw [List.count_append, List.count_cons]
    cases flag with
    | debug =>
        simp only [Job.asksFor, silent] at counted
        simp only [beq_self_eq_true, ↓reduceIte, ← Nat.add_assoc, counted,
          Job.asksFor]
        rfl
    | keepLastWord | dropEmptyWords =>
        simpa [Job.asksFor] using counted

/-- Both spellings of the switch ask for remarks. -/
theorem says_debug
    {switch : Bytes}
    (asks : switch = Utf8.encode "-d" ∨ switch = Utf8.encode "--debug") :
    Says switch [.flag .debug] none := by
  have letter : Utf8.encode "-d" = dash :: [debugLetter] := by decide
  rcases asks with rfl | rfl
  · rw [letter]
    exact Says.cluster Letters.debug
  · exact Says.flag .debug

/-- The switch for remarks may be put in without any other effect on the job. -/
theorem readArguments_insert_debug
    {earlier later : List Bytes}
    {switch : Bytes}
    {job : Job}
    (room : LeaveRoom earlier)
    (asks : switch = Utf8.encode "-d" ∨ switch = Utf8.encode "--debug")
    (accepted : readArguments (earlier ++ later) = .ok job)
    (silent : job.debug = false) :
    readArguments (earlier ++ switch :: later) =
      .ok { job with debug := true } := by
  obtain ⟨before, after, sentence, others, described⟩ :=
    sentences_of_leaveRoom room accepted
  have longer : Sentence (switch :: later) ([.flag .debug] ++ after) :=
    Sentence.alone (says_debug asks) others
  rw [readArguments_eq_ok_iff]
  exact ⟨before ++ .flag .debug :: after,
    sentence.append room.unclosed longer, described.insert_debug silent⟩

/-!
## What remarks add
-/

/-- The remarks on a job, when the disk gives an answer to its path. -/
def Job.remarks (job : Job) : Except IoFault OpenFile → List Remark
  | .error _ => []
  | .ok (.unreadable _ _) =>
      [.opened (Utf8.decode job.file), .configured job.options]
  | .ok (.readable content) =>
      let report := Report.ofFile job.options (Utf8.decode job.file) content
      [.opened (Utf8.decode job.file), .configured job.options,
        .finished report.lines report.tokens.length]

/--
A job with remarks ends as it does without, and the remarks come first on the
error output.  Its path is the same, and with it the answer of the disk.
-/
theorem runJob_debug
    (disk : Disk)
    {job : Job}
    (silent : job.debug = false) :
    runJob disk { job with debug := true } =
      { runJob disk job with
        errorOutput :=
          String.join ((job.remarks (disk job.file)).map remarkLine) ++
            (runJob disk job).errorOutput } := by
  let spoken : Job := { job with debug := true }
  have sameAnswer : disk spoken.file = disk job.file := rfl
  cases answer : disk job.file with
  | error fault =>
      rw [runJob_of_error answer, runJob_of_error (sameAnswer.trans answer)]
      simp [spoken, Job.remarks]
  | ok file =>
      cases file with
      | unreadable before fault =>
          rw [runJob_of_unreadable answer,
            runJob_of_unreadable (sameAnswer.trans answer), silent]
          simp [spoken, Job.remarks, remarkLines]
      | readable content =>
          rw [runJob_of_readable answer,
            runJob_of_readable (sameAnswer.trans answer), silent]
          simp [spoken, Job.remarks, remarkLines]

/--
The switch for remarks, put in among accepted arguments that do not ask for
them, leaves the exit status and the output as they are.  The error output gets
remarks before what it had: none if the file cannot be opened, two if it cannot
be read to its end, however much of it can be read, and three otherwise.
-/
theorem run_insert_debug
    (advice : Advice)
    (disk : Disk)
    {earlier later : List Bytes}
    {switch : Bytes}
    {job : Job}
    (accepted : readArguments (earlier ++ later) = .ok job)
    (silent : job.debug = false)
    (room : LeaveRoom earlier)
    (asks : switch = Utf8.encode "-d" ∨ switch = Utf8.encode "--debug") :
    let before := run advice disk (earlier ++ later)
    let after := run advice disk (earlier ++ switch :: later)
    after.exitStatus = before.exitStatus ∧
      after.output = before.output ∧
      ∃ entries : List String,
        after.errorOutput =
            String.join
                (entries.map fun entry => "[debug] " ++ entry ++ "\n") ++
              before.errorOutput ∧
          entries.length =
            match disk job.file with
            | .error _ => 0
            | .ok (.unreadable _ _) => 2
            | .ok (.readable _) => 3 := by
  intro before after
  have goesOn : before = runJob disk job :=
    run_of_accepted advice disk accepted
  have goesOnWithRemarks : after = runJob disk { job with debug := true } :=
    run_of_accepted advice disk
      (readArguments_insert_debug room asks accepted silent)
  rw [goesOnWithRemarks, runJob_debug disk silent, goesOn]
  refine ⟨rfl, rfl, (job.remarks (disk job.file)).map remarkText, ?_, ?_⟩
  · rw [List.map_map]
    rfl
  · rw [List.length_map]
    rcases disk job.file with fault | content | ⟨before, fault⟩ <;> rfl

/--
After the value of a setting that has not been checked yet, the switch adds two
remarks on a file that fails in its second line.
-/
theorem run_insert_debug_afterValue :
    let earlier := [Utf8.encode "-f", Utf8.encode "a"]
    let later := [Utf8.encode "-oJSON", Utf8.encode "--"]
    let job : Job :=
      { file := Utf8.encode "a"
        format := .json
        debug := false
        options := {} }
    let file : OpenFile :=
      .unreadable (Utf8.encode "int x \nint") (.system .inputOutput)
    let before := run .seeHelp (fun _ => .ok file) (earlier ++ later)
    let after :=
      run .seeHelp (fun _ => .ok file) (earlier ++ Utf8.encode "-d" :: later)
    readArguments (earlier ++ later) = .ok job ∧
      LeaveRoom earlier ∧
      after.exitStatus = before.exitStatus ∧
      after.output = before.output ∧
      ∃ entries : List String,
        after.errorOutput =
            String.join
                (entries.map fun entry => "[debug] " ++ entry ++ "\n") ++
              before.errorOutput ∧
          entries.length = 2 := by
  intro earlier later job file before after
  have accepted : readArguments (earlier ++ later) = .ok job := by rfl
  have read :
      earlier.foldlM Reading.read {} =
        .ok { waiting := .withValue .file (Utf8.encode "a") } := by rfl
  have room : LeaveRoom earlier := by
    refine ⟨by decide, ?_⟩
    intro reading reads setting
    obtain rfl := Except.ok.inj (read.symm.trans reads)
    simp
  exact ⟨accepted, room,
    run_insert_debug .seeHelp (fun _ => .ok file) accepted rfl room
      (Or.inl rfl)⟩

end StatementLexer.Command
