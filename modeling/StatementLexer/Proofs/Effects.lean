import Mathlib.Data.List.TakeDrop
import StatementLexer.Proofs.Remainder
import StatementLexer.Run

namespace StatementLexer

/-!
# What a run writes and how it ends

A run can fail in four places: its source may fail to be read, its sink may have
too little room or fail to pass the output on, and its source may fail to close.
Any of these may be the case at the same time.  This module says for every
combination what has been written when the run ends and which of the faults it
reports.
-/

namespace Sink

/-- Without a limit there is room for all of the given bytes. -/
def roomFor
    (limit : Option Nat)
    (bytes : Bytes) : Nat :=
  limit.getD bytes.length

/-- A sink that has taken nothing takes as many bytes as it has room for. -/
theorem write_of_empty
    (limit : Option Nat)
    (writeFault : IoFault)
    (flushFault : Option IoFault)
    (bytes : Bytes) :
    write
        { limit := limit, writeFault := writeFault, flushFault := flushFault }
        bytes =
      (if roomFor limit bytes < bytes.length then .error writeFault else .ok (),
        { limit := limit
          writeFault := writeFault
          flushFault := flushFault
          written := bytes.take (roomFor limit bytes) }) := by
  cases limit with
  | none =>
      simp [write, fitting, roomFor]
  | some limit =>
      have fewer :
          min limit bytes.length < bytes.length ↔ limit < bytes.length := by
        omega
      by_cases short : limit < bytes.length
      · simp [write, fitting, roomFor, fewer, short]
      · simp [write, fitting, roomFor, fewer, short]

end Sink

namespace Run

/--
A run gives the exit status of its fault, whatever its fault is taken for.
-/
theorem exitStatus_eq (run : Run) :
    run.exitStatus =
      match run.result with
      | .ok () => .success
      | .error fault => fault.exitStatus := by
  unfold exitStatus ending
  cases run.result <;> rfl

/-- The bytes of the report on the good lines among the given answers. -/
def rendering
    (options : Options)
    (format : Format)
    (file : String)
    (answers : List (Answer SourceFault String)) : Bytes :=
  Utf8.encode
    (Report.render format {
      file := file
      lines := (Feed.goodLines answers).length
      tokens := numberedTokens options 0 (Feed.goodLines answers) })

/-- How a run ends that has written everything. -/
def endingAfterWriting
    (flushFault : Option IoFault)
    (closing : Except SourceFault Unit) : Except RunFault Unit :=
  match flushFault, closing with
  | some fault, _ => .error (.output fault)
  | none, .error fault => .error (.source fault)
  | none, .ok () => .ok ()

/-- A run that has written everything succeeds if nothing fails after that. -/
theorem endingAfterWriting_eq_ok_iff
    (flushFault : Option IoFault)
    (closing : Except SourceFault Unit) :
    endingAfterWriting flushFault closing = .ok () ↔
      flushFault = none ∧ closing = .ok () := by
  rcases flushFault with _ | flushFault <;> rcases closing with fault | done <;>
    simp [endingAfterWriting]

/--
A fault of the source shows after writing only if passing on does not fail.
-/
theorem endingAfterWriting_eq_source_iff
    (flushFault : Option IoFault)
    (closing : Except SourceFault Unit)
    (fault : SourceFault) :
    endingAfterWriting flushFault closing = .error (.source fault) ↔
      flushFault = none ∧ closing = .error fault := by
  rcases flushFault with _ | flushFault <;>
    rcases closing with closeFault | done <;>
    simp [endingAfterWriting]

/--
A text is delivered to a new sink as far as there is room, and then passed on.
-/
theorem deliver_of_empty
    (text : String)
    (limit : Option Nat)
    (writeFault : IoFault)
    (flushFault : Option IoFault) :
    let bytes := Utf8.encode text
    let room := Sink.roomFor limit bytes
    deliver text
        { limit := limit, writeFault := writeFault, flushFault := flushFault } =
      (if room < bytes.length then
          .error (.output writeFault)
        else
          endingAfterWriting flushFault (.ok ()),
        { limit := limit
          writeFault := writeFault
          flushFault := flushFault
          written := bytes.take room }) := by
  intro bytes room
  unfold deliver
  rw [Sink.write_of_empty]
  by_cases short : room < bytes.length
  · simp only [bytes, room] at short
    simp [bytes, room, short]
  · simp only [bytes, room] at short
    cases flushFault with
    | none =>
        simp [bytes, room, short, Sink.flush, endingAfterWriting]
    | some fault =>
        simp [bytes, room, short, Sink.flush, endingAfterWriting]

/-- A source that cannot be read to its end leaves the sink as it was. -/
theorem ofSource_of_fault
    {source : Source}
    {fault : SourceFault}
    (failing : Feed.firstFault? source.feed.upcoming = some fault)
    (options : Options)
    (format : Format)
    (file : String)
    (sink : Sink) :
    ofSource options format file source sink =
      { sink := sink, result := .error (.source fault) } := by
  unfold ofSource
  rw [Report.ofFeed_eq, failing]

/--
A source that can be read to its end is written as far as there is room, and
closed last.
-/
theorem ofSource_of_good
    {source : Source}
    (good : Feed.firstFault? source.feed.upcoming = none)
    (options : Options)
    (format : Format)
    (file : String)
    (limit : Option Nat)
    (writeFault : IoFault)
    (flushFault : Option IoFault) :
    let lines := Feed.goodLines source.feed.upcoming
    let rendered := rendering options format file source.feed.upcoming
    let room := Sink.roomFor limit rendered
    ofSource options format file source
        { limit := limit, writeFault := writeFault, flushFault := flushFault } =
      { remarks :=
          [.finished lines.length (numberedTokens options 0 lines).length]
        sink :=
          { limit := limit
            writeFault := writeFault
            flushFault := flushFault
            written := rendered.take room }
        result :=
          if room < rendered.length then
            .error (.output writeFault)
          else
            endingAfterWriting flushFault source.closing } := by
  intro lines rendered room
  unfold ofSource
  rw [Report.ofFeed_eq, good]
  simp only [deliver_of_empty]
  by_cases short : room < rendered.length
  · simp only [rendered, room, rendering] at short
    simp [rendered, room, rendering, short, lines]
  · simp only [rendered, room, rendering] at short
    cases flushFault with
    | none =>
        cases closing : source.closing with
        | error fault =>
            simp [rendered, room, rendering, short, lines, close, closing,
              endingAfterWriting]
        | ok done =>
            simp [rendered, room, rendering, short, lines, close, closing,
              endingAfterWriting]
    | some fault =>
        simp [rendered, room, rendering, short, lines, endingAfterWriting]

/-- Where nothing fails, a run succeeds and writes the whole rendering. -/
theorem ofSource_without_faults
    {source : Source}
    (good : Feed.firstFault? source.feed.upcoming = none)
    (closes : source.closing = .ok ())
    (options : Options)
    (format : Format)
    (file : String) :
    (ofSource options format file source {}).result = .ok () ∧
      (ofSource options format file source {}).sink.written =
        rendering options format file source.feed.upcoming := by
  have shape := ofSource_of_good good options format file none .shortWrite none
  rw [shape]
  simp [Sink.roomFor, endingAfterWriting, closes]

/--
A run that succeeds with a new sink has read its source to the end and written
all.
-/
theorem written_of_result_ok
    {options : Options}
    {format : Format}
    {file : String}
    {source : Source}
    {sink : Sink}
    (new : sink.written = [])
    (succeeded : (ofSource options format file source sink).result = .ok ()) :
    Feed.firstFault? source.feed.upcoming = none ∧
      (ofSource options format file source sink).sink.written =
        rendering options format file source.feed.upcoming := by
  obtain ⟨limit, writeFault, flushFault, written⟩ := sink
  simp only at new
  subst new
  cases failing : Feed.firstFault? source.feed.upcoming with
  | some fault =>
      rw [ofSource_of_fault failing] at succeeded
      simp at succeeded
  | none =>
      rw [ofSource_of_good failing] at succeeded ⊢
      refine ⟨rfl, List.take_of_length_le ?_⟩
      by_contra short
      simp [Nat.lt_of_not_le short] at succeeded

/-- The exit number is zero for a success only. -/
theorem number_exitStatus_eq_zero_iff (run : Run) :
    run.exitStatus.number = 0 ↔ run.result = .ok () := by
  rw [exitStatus_eq]
  cases run.result with
  | ok done =>
      simp [ExitStatus.number]
  | error fault =>
      cases fault with
      | source fault =>
          rcases fault with ⟨stage, path, cause⟩
          cases stage <;>
            simp [RunFault.exitStatus, SourceStage.exitStatus,
              ExitStatus.number]
      | usage text =>
          simp [RunFault.exitStatus, ExitStatus.number]
      | output fault =>
          simp [RunFault.exitStatus, ExitStatus.number]
      | serialization text =>
          simp [RunFault.exitStatus, ExitStatus.number]

/--
What a run over any source and any new sink writes, and how it ends.

A source that cannot be read to its end is reported and leaves nothing written.
Otherwise the rendering is written as far as there is room.  Too little room is
reported before a failure to pass the output on, and that before a failure to
close, so the latter shows only when all of the rendering has been written.
-/
theorem ofSource_effects
    (options : Options)
    (format : Format)
    (file : String)
    (source : Source)
    (limit : Option Nat)
    (writeFault : IoFault)
    (flushFault : Option IoFault) :
    let answers := source.feed.upcoming
    let rendered := rendering options format file answers
    let room := Sink.roomFor limit rendered
    let run :=
      ofSource options format file source
        { limit := limit, writeFault := writeFault, flushFault := flushFault }
    (match Feed.firstFault? answers with
      | some fault =>
          run.sink.written = [] ∧ run.result = .error (.source fault)
      | none =>
          run.sink.written = rendered.take room ∧
            run.result =
              if room < rendered.length then
                .error (.output writeFault)
              else
                endingAfterWriting flushFault source.closing) ∧
      run.sink.written <+: rendered ∧
      (∀ fault,
        (Feed.firstFault? answers = none ∧
            run.result = .error (.source fault)) ↔
          (Feed.firstFault? answers = none ∧ run.sink.written = rendered ∧
            flushFault = none ∧ source.closing = .error fault)) ∧
      (run.exitStatus =
        match run.result with
        | .ok () => .success
        | .error (.source fault) => fault.stage.exitStatus
        | .error _ => .general) ∧
      (run.exitStatus.number = 0 ↔
        Feed.firstFault? answers = none ∧ run.sink.written = rendered ∧
          flushFault = none ∧ source.closing = .ok ()) := by
  intro answers rendered room run
  cases failing : Feed.firstFault? answers with
  | some fault =>
      have shape : run = _ := ofSource_of_fault failing options format file _
      refine ⟨⟨?_, ?_⟩, ?_, ?_, ?_, ?_⟩
      · rw [shape]
      · rw [shape]
      · rw [shape]
        exact List.nil_prefix
      · simp
      · rw [exitStatus_eq, shape]
        rfl
      · rw [number_exitStatus_eq_zero_iff, shape]
        simp
  | none =>
      have shape : run = _ :=
        ofSource_of_good failing options format file limit writeFault flushFault
      have writtenShape : run.sink.written = rendered.take room := by
        rw [shape]
      have resultShape :
          run.result =
            if room < rendered.length then
              .error (.output writeFault)
            else
              endingAfterWriting flushFault source.closing := by
        rw [shape]
      have allWritten :
          run.sink.written = rendered ↔ ¬ room < rendered.length := by
        rw [writtenShape, List.take_eq_self_iff, Nat.not_lt]
      refine ⟨⟨writtenShape, resultShape⟩, ?_, ?_, ?_, ?_⟩
      · rw [writtenShape]
        exact List.take_prefix room rendered
      · intro fault
        rw [allWritten, resultShape]
        by_cases short : room < rendered.length
        · simp [short]
        · simp [short, endingAfterWriting_eq_source_iff]
      · rw [exitStatus_eq, resultShape]
        by_cases short : room < rendered.length
        · simp [short, RunFault.exitStatus]
        · rcases flushFault with _ | flushFault <;>
            rcases source.closing with closeFault | done <;>
            simp [short, endingAfterWriting, RunFault.exitStatus]
      · rw [number_exitStatus_eq_zero_iff, allWritten, resultShape]
        by_cases short : room < rendered.length
        · simp [short]
        · simp [short, endingAfterWriting_eq_ok_iff]

end Run

/-- The report on a file: how many lines it has, and their tokens in order. -/
def Report.ofFile
    (options : Options)
    (file : String)
    (content : Bytes) : Report where
  file := file
  lines := (fileLines content).length
  tokens := numberedTokens options 0 (fileLines content)

/-- A file that can be read leads to the report on it. -/
theorem Report.ofFeed_ofOpenFile
    (options : Options)
    (file path : String)
    (content : Bytes) :
    Report.ofFeed options file
        (Source.ofOpenFile path (.readable content)).feed =
      .ok (Report.ofFile options file content) :=
  Report.ofFeed_ofLines options file (fileLines content)

/-- A run over a file that can be read writes the report on it and succeeds. -/
theorem Run.ofSource_ofOpenFile
    (options : Options)
    (format : Format)
    (file path : String)
    (content : Bytes) :
    let report := Report.ofFile options file content
    Run.ofSource options format file
        (Source.ofOpenFile path (.readable content)) {} =
      { remarks := [.finished report.lines report.tokens.length]
        sink := { written := Utf8.encode (report.render format) }
        result := .ok () } := by
  intro report
  have upcoming :
      (Source.ofOpenFile path (.readable content)).feed.upcoming =
        (fileLines content).map .item := rfl
  have good :
      Feed.firstFault?
        (Source.ofOpenFile path (.readable content)).feed.upcoming = none := by
    rw [upcoming, Feed.firstFault?_map_item]
  have closes : (Source.ofOpenFile path (.readable content)).closing = .ok () :=
    rfl
  have shape :=
    Run.ofSource_of_good good options format file none .shortWrite none
  rw [upcoming, Feed.goodLines_map_item] at shape
  rw [shape]
  simp [Run.rendering, Sink.roomFor, Run.endingAfterWriting, closes, report,
    Report.ofFile]

/--
A run over a file that cannot be read to its end fails and writes nothing.
-/
theorem Run.ofSource_unreadable
    (options : Options)
    (format : Format)
    (file path : String)
    (before : Bytes)
    (fault : IoFault)
    (sink : Sink) :
    Run.ofSource options format file
        (Source.ofOpenFile path (.unreadable before fault)) sink =
      { sink := sink
        result :=
          .error (.source {
            stage := .reading
            path := path
            cause := fault }) } := by
  apply Run.ofSource_of_fault
  simp only [Source.ofOpenFile, Feed.firstFault?_map_item_append]
  rfl

end StatementLexer
