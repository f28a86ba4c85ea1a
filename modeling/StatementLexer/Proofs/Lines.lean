import StatementLexer.Proofs.Encoding
import StatementLexer.Proofs.Segments
import StatementLexer.Source

namespace StatementLexer

/-!
# Cutting before reading and reading before cutting

The lines of a file are cut from its bytes and then read as text one by one, the
lines of a text from its characters.  Both are the same: lines are the segments
between newlines, and reading bytes as text keeps segments apart, since the
newline and the carriage return are ASCII.
-/

/-- A line without the carriage return at its end, if it has one there. -/
def withoutCarriage
    {α : Type}
    [DecidableEq α]
    (marks : LineMarks α)
    (line : List α) : List α :=
  if line.getLast? = some marks.carriage then
    line.dropLast
  else
    line

/--
The lines that the segments between newlines stand for.

A newline ends every segment but the last, which is a line unless it is empty.
-/
def linesOfSegments
    {α : Type}
    [DecidableEq α]
    (marks : LineMarks α) :
    List (List α) → List (List α)
  | [] => []
  | [last] =>
      if last.isEmpty then
        []
      else
        [last]
  | ended :: next :: rest =>
      withoutCarriage marks ended :: linesOfSegments marks (next :: rest)

/-- A line that a newline ends loses the carriage return before it. -/
theorem endedLine_eq
    {α : Type}
    [DecidableEq α]
    (marks : LineMarks α)
    (seen : List α) :
    endedLine marks seen = withoutCarriage marks seen.reverse := by
  cases seen with
  | nil =>
      simp [endedLine, withoutCarriage]
  | cons latest earlier =>
      simp [endedLine, withoutCarriage]

/-- Lines are what the segments between newlines stand for. -/
theorem linesFrom_eq
    {α : Type}
    [DecidableEq α]
    {marks : LineMarks α}
    {symbols first : List α}
    {others : List (List α)}
    (shape : List.splitOn marks.newline symbols = first :: others)
    (seen : List α) :
    linesFrom marks seen symbols =
      linesOfSegments marks ((seen.reverse ++ first) :: others) := by
  induction symbols generalizing seen first others with
  | nil =>
      rw [List.splitOn_nil, List.cons.injEq] at shape
      obtain ⟨rfl, rfl⟩ := shape
      simp [linesFrom, linesOfSegments]
  | cons symbol rest inductionHypothesis =>
      obtain ⟨next, later, restShape⟩ :=
        List.exists_cons_of_ne_nil (List.splitOn_ne_nil marks.newline rest)
      by_cases newline : symbol = marks.newline
      · rw [newline, splitOn_cons_self, restShape, List.cons.injEq] at shape
        obtain ⟨rfl, rfl⟩ := shape
        simp only [linesFrom, newline, ↓reduceIte, List.append_nil,
          linesOfSegments, endedLine_eq]
        rw [inductionHypothesis restShape]
        rfl
      · rw [splitOn_cons_of_ne newline restShape, List.cons.injEq] at shape
        obtain ⟨rfl, rfl⟩ := shape
        simp only [linesFrom, newline, ↓reduceIte]
        rw [inductionHypothesis restShape]
        simp

theorem linesFrom_nil_eq
    {α : Type}
    [DecidableEq α]
    (marks : LineMarks α)
    (symbols : List α) :
    linesFrom marks [] symbols =
      linesOfSegments marks (List.splitOn marks.newline symbols) := by
  obtain ⟨first, others, shape⟩ :=
    List.exists_cons_of_ne_nil (List.splitOn_ne_nil marks.newline symbols)
  rw [linesFrom_eq shape, shape]
  rfl

/--
Reading bytes as text keeps the segments between ASCII separators apart.  The
first one may begin within a character that is unfinished; all others begin
afresh.
-/
theorem splitOn_decodeFrom
    {state : Option Utf8.Unfinished}
    {separator : UInt8}
    {bytes first : Bytes}
    {others : List Bytes}
    (sound : Utf8.SoundState state)
    (ascii : separator < 0x80)
    (shape : List.splitOn separator bytes = first :: others) :
    List.splitOn (Char.ofNat separator.toNat) (Utf8.decodeFrom state bytes) =
      Utf8.decodeFrom state first :: others.map (Utf8.decodeFrom none) := by
  induction bytes generalizing state first others with
  | nil =>
      rw [List.splitOn_nil, List.cons.injEq] at shape
      obtain ⟨rfl, rfl⟩ := shape
      have absent := Utf8.charOfByte_not_mem_decodeFrom_nil state ascii
      exact List.splitOn_eq_singleton absent
  | cons byte rest inductionHypothesis =>
      obtain ⟨next, later, restShape⟩ :=
        List.exists_cons_of_ne_nil (List.splitOn_ne_nil separator rest)
      by_cases separates : byte = separator
      · subst separates
        rw [splitOn_cons_self, restShape, List.cons.injEq] at shape
        obtain ⟨rfl, rfl⟩ := shape
        have absent := Utf8.charOfByte_not_mem_decodeFrom_nil state ascii
        rw [Utf8.decodeFrom, Utf8.step_ascii sound ascii]
        simp only [List.append_assoc, List.singleton_append]
        rw [List.splitOn_append_cons_self_of_not_mem absent,
          inductionHypothesis Utf8.soundState_none restShape]
        rfl
      · rw [splitOn_cons_of_ne separates restShape, List.cons.injEq] at shape
        obtain ⟨rfl, rfl⟩ := shape
        have absent := Utf8.charOfByte_not_mem_step sound ascii separates
        have soundAfter := Utf8.soundState_step sound byte
        exact splitOn_append (inductionHypothesis soundAfter restShape) absent

/--
Whether a line ends in a carriage return can be seen before or after it is read.
-/
theorem withoutCarriage_decodeFrom (line : Bytes) :
    withoutCarriage LineMarks.characters (Utf8.decodeFrom none line) =
      Utf8.decodeFrom none (withoutCarriage LineMarks.bytes line) := by
  have carriage :
      LineMarks.characters.carriage =
        Char.ofNat LineMarks.bytes.carriage.toNat := rfl
  have ascii : LineMarks.bytes.carriage < 0x80 := by decide
  rcases List.eq_nil_or_concat line with rfl | ⟨earlier, last, shape⟩
  · rfl
  rw [List.concat_eq_append] at shape
  subst shape
  by_cases isCarriage : last = LineMarks.bytes.carriage
  · subst isCarriage
    have read :
        Utf8.decodeFrom none (earlier ++ [LineMarks.bytes.carriage]) =
          Utf8.decodeFrom none earlier ++ [LineMarks.characters.carriage] := by
      rw [carriage]
      exact Utf8.decodeFrom_append_ascii Utf8.soundState_none ascii earlier []
    simp [withoutCarriage, read]
  · have kept :=
      Utf8.getLast?_decodeFrom_ne Utf8.soundState_none ascii isCarriage earlier
    rw [← carriage] at kept
    simp [withoutCarriage, kept, isCarriage]

/-- Segments may be read as text before or after they are made lines. -/
theorem linesOfSegments_decodeFrom (pieces : List Bytes) :
    linesOfSegments LineMarks.characters (pieces.map (Utf8.decodeFrom none)) =
      (linesOfSegments LineMarks.bytes pieces).map (Utf8.decodeFrom none) := by
  fun_induction linesOfSegments LineMarks.bytes pieces with
  | case1 =>
      rfl
  | case2 last empty =>
      simp_all [linesOfSegments, Utf8.decodeFrom]
  | case3 last nonempty =>
      simp_all [linesOfSegments, Utf8.decodeFrom_none_eq_nil_iff]
  | case4 ended next rest inductionHypothesis =>
      simp only [List.map_cons] at inductionHypothesis ⊢
      rw [linesOfSegments, inductionHypothesis, withoutCarriage_decodeFrom]

/--
The lines of bytes that are read as text are the lines of the bytes, each read
by itself.
-/
theorem linesFrom_decodeFrom (content : Bytes) :
    linesFrom LineMarks.characters [] (Utf8.decodeFrom none content) =
      (linesFrom LineMarks.bytes [] content).map (Utf8.decodeFrom none) := by
  obtain ⟨first, others, shape⟩ :=
    List.exists_cons_of_ne_nil
      (List.splitOn_ne_nil LineMarks.bytes.newline content)
  have ascii : LineMarks.bytes.newline < 0x80 := by decide
  have read :
      List.splitOn LineMarks.characters.newline (Utf8.decodeFrom none content) =
        Utf8.decodeFrom none first :: others.map (Utf8.decodeFrom none) :=
    splitOn_decodeFrom Utf8.soundState_none ascii shape
  rw [linesFrom_nil_eq, linesFrom_nil_eq, read, shape]
  exact linesOfSegments_decodeFrom (first :: others)

/-- The lines of a file are the lines of the text that its bytes are read as. -/
theorem textLines_decode (content : Bytes) :
    textLines (Utf8.decode content) = fileLines content := by
  rw [textLines, fileLines, Utf8.decode, String.toList_ofList,
    linesFrom_decodeFrom, List.map_map]
  rfl

/-- A file that a text has been written to has the lines of that text. -/
theorem fileLines_encode (text : String) :
    fileLines (Utf8.encode text) = textLines text := by
  rw [← textLines_decode, Utf8.decode_encode]

theorem textLines_eq (text : String) :
    textLines text =
      (linesOfSegments LineMarks.characters
        (List.splitOn LineMarks.characters.newline text.toList)).map
          String.ofList := by
  rw [textLines, linesFrom_nil_eq]

theorem fileLines_eq (content : Bytes) :
    fileLines content =
      (linesOfSegments LineMarks.bytes
        (List.splitOn LineMarks.bytes.newline content)).map Utf8.decode := by
  rw [fileLines, linesFrom_nil_eq]

namespace Source

/--
A file gives the lines that a text in memory gives which has been read from the
bytes of the file, whatever these bytes are: the segments between newlines, each
that a newline ends without a carriage return before it, and each read by
itself.  So a file that a text has been written to gives the lines of that text.
-/
theorem ofOpenFile_feed_eq_ofText
    (path : String)
    (content : Bytes) :
    (ofOpenFile path (.readable content)).feed =
        Feed.ofLines
          ((linesOfSegments LineMarks.bytes
            (List.splitOn LineMarks.bytes.newline content)).map Utf8.decode) ∧
      (ofOpenFile path (.readable content)).feed =
        (ofText (Utf8.decode content)).feed ∧
      ∀ text,
        (ofOpenFile path (.readable (Utf8.encode text))).feed =
          (ofText text).feed := by
  refine ⟨?_, ?_, ?_⟩
  · simp only [ofOpenFile]
    rw [fileLines_eq]
  · simp only [ofOpenFile, ofText]
    rw [textLines_decode]
  · intro text
    simp only [ofOpenFile, ofText]
    rw [← textLines_decode, Utf8.decode_encode]

end Source

end StatementLexer
