import StatementLexer.Proofs.Concatenation

namespace StatementLexer

/-!
# Lines that are joined to a text

Lines without a newline are joined to a text by giving each an end of its own, a
newline or a carriage return and a newline.  The last line may go without one.
Two things could not be told from the text afterwards, and are excluded: a line
that ends in a carriage return before a bare newline, and an empty last line
without an end.  What is left is exact.  A source gives the joined lines back,
and every text is joined from lines in one way.
-/

/-- The two ways to end a line. -/
inductive LineEnd where
  | newline
  | carriageNewline
  deriving Repr, DecidableEq

/-- The symbols that end a line. -/
def LineEnd.symbols
    {α : Type}
    (marks : LineMarks α) :
    LineEnd → List α
  | .newline => [marks.newline]
  | .carriageNewline => [marks.carriage, marks.newline]

/--
A line with its end; a bare newline would take in a carriage return before it.
-/
@[ext]
structure TerminatedLine where
  text : String
  ending : LineEnd
  unbroken : '\n' ∉ text.toList
  bare : ending = .newline → text.toList.getLast? ≠ some '\r'

/-- A line that has no end because nothing follows it. -/
@[ext]
structure OpenLine where
  text : String
  unbroken : '\n' ∉ text.toList
  nonempty : text ≠ ""

/-- Lines to be joined, of which only the last may have no end. -/
@[ext]
structure JoinedLines where
  terminated : List TerminatedLine
  last : Option OpenLine

namespace TerminatedLine

/-- The characters of a line and of its end. -/
def characters (line : TerminatedLine) : List Char :=
  line.text.toList ++ line.ending.symbols LineMarks.characters

/-- The characters of a line up to the newline that ends it. -/
def beforeNewline (line : TerminatedLine) : List Char :=
  match line.ending with
  | .newline => line.text.toList
  | .carriageNewline => line.text.toList ++ ['\r']

end TerminatedLine

/-- The characters that follow the last end of a line. -/
def OpenLine.remainder : Option OpenLine → List Char
  | none => []
  | some line => line.text.toList

namespace JoinedLines

/-- The lines without their ends. -/
def lines (joined : JoinedLines) : List String :=
  joined.terminated.map TerminatedLine.text ++
    joined.last.toList.map OpenLine.text

/-- The text that lines are joined to. -/
def text (joined : JoinedLines) : String :=
  String.ofList
    (joined.terminated.flatMap TerminatedLine.characters ++
      OpenLine.remainder joined.last)

end JoinedLines

namespace TerminatedLine

/-- A terminated line ends in a newline. -/
theorem characters_eq (line : TerminatedLine) :
    line.characters = line.beforeNewline ++ ['\n'] := by
  obtain ⟨text, ending, unbroken, bare⟩ := line
  cases ending with
  | newline =>
      rfl
  | carriageNewline =>
      simp [characters, beforeNewline, LineEnd.symbols, LineMarks.characters]

/-- There is one newline in a terminated line. -/
theorem newline_not_mem_beforeNewline (line : TerminatedLine) :
    '\n' ∉ line.beforeNewline := by
  obtain ⟨text, ending, unbroken, bare⟩ := line
  cases ending with
  | newline =>
      exact unbroken
  | carriageNewline =>
      simp [beforeNewline, unbroken]

/--
The carriage return that belongs to an end is the only one that is taken away.
-/
theorem withoutCarriage_beforeNewline (line : TerminatedLine) :
    withoutCarriage LineMarks.characters line.beforeNewline =
      line.text.toList := by
  obtain ⟨text, ending, unbroken, bare⟩ := line
  cases ending with
  | newline =>
      exact if_neg (bare rfl)
  | carriageNewline =>
      simp [withoutCarriage, beforeNewline, LineMarks.characters]

/-- A carriage return before the newline belongs to the end of the line. -/
theorem getLast?_beforeNewline_eq_carriage_iff (line : TerminatedLine) :
    line.beforeNewline.getLast? = some '\r' ↔
      line.ending = .carriageNewline := by
  obtain ⟨text, ending, unbroken, bare⟩ := line
  cases ending with
  | newline =>
      simpa [beforeNewline] using bare rfl
  | carriageNewline =>
      simp [beforeNewline]

/-- What stands before a newline is a line and its end in one way only. -/
theorem beforeNewline_injective :
    Function.Injective beforeNewline := by
  intro first second same
  have texts : first.text.toList = second.text.toList := by
    rw [← withoutCarriage_beforeNewline, same, withoutCarriage_beforeNewline]
  have endings :
      first.ending = .carriageNewline ↔ second.ending = .carriageNewline := by
    rw [← getLast?_beforeNewline_eq_carriage_iff, same,
      getLast?_beforeNewline_eq_carriage_iff]
  apply TerminatedLine.ext
  · exact String.toList_inj.mp texts
  · cases firstEnd : first.ending <;>
      cases secondEnd : second.ending <;> simp_all

/-- Whatever stands before a newline is a line and its end. -/
theorem exists_beforeNewline_eq
    {characters : List Char}
    (unbroken : '\n' ∉ characters) :
    ∃ line : TerminatedLine, line.beforeNewline = characters := by
  by_cases carriage : characters.getLast? = some '\r'
  · obtain ⟨earlier, rfl⟩ := List.getLast?_eq_some_iff.mp carriage
    have earlierUnbroken : '\n' ∉ earlier := by
      intro member
      exact unbroken (List.mem_append_left _ member)
    let line : TerminatedLine :=
      { text := String.ofList earlier
        ending := .carriageNewline
        unbroken := by simpa using earlierUnbroken
        bare := by simp }
    exact ⟨line, by simp [beforeNewline, line]⟩
  · let line : TerminatedLine :=
      { text := String.ofList characters
        ending := .newline
        unbroken := by simpa using unbroken
        bare := by simpa using carriage }
    exact ⟨line, by simp [beforeNewline, line]⟩

end TerminatedLine

namespace OpenLine

/-- There is no newline behind the last one. -/
theorem newline_not_mem_remainder (last : Option OpenLine) :
    '\n' ∉ remainder last := by
  cases last with
  | none =>
      exact List.not_mem_nil
  | some line =>
      exact line.unbroken

/-- What is behind the last newline is the open line, if there is one. -/
theorem linesOfSegments_remainder (last : Option OpenLine) :
    linesOfSegments LineMarks.characters [remainder last] =
      last.toList.map fun line => line.text.toList := by
  cases last with
  | none =>
      rfl
  | some line =>
      simp [remainder, linesOfSegments, line.nonempty]

theorem remainder_injective :
    Function.Injective remainder := by
  rintro (_ | first) (_ | second) same
  · rfl
  · exact (second.nonempty (String.toList_eq_nil_iff.mp same.symm)).elim
  · exact (first.nonempty (String.toList_eq_nil_iff.mp same)).elim
  · exact congrArg some (OpenLine.ext (String.toList_inj.mp same))

end OpenLine

namespace JoinedLines

/-- The newlines of a joined text are those of the ends of its lines. -/
theorem splitOn_text (joined : JoinedLines) :
    List.splitOn '\n' joined.text.toList =
      joined.terminated.map TerminatedLine.beforeNewline ++
        [OpenLine.remainder joined.last] := by
  have absent :
      ∀ piece ∈ joined.terminated.map TerminatedLine.beforeNewline,
        '\n' ∉ piece := by
    intro piece member
    obtain ⟨line, _, rfl⟩ := List.mem_map.mp member
    exact line.newline_not_mem_beforeNewline
  have cut :=
    splitOn_flatMap_separator absent
      (OpenLine.newline_not_mem_remainder joined.last)
  simpa [text, List.flatMap_map, ← TerminatedLine.characters_eq] using cut

/-- Cutting a joined text into lines gives the joined lines. -/
theorem textLines_text (joined : JoinedLines) :
    textLines joined.text = joined.lines := by
  have cut :
      List.splitOn LineMarks.characters.newline joined.text.toList =
        joined.terminated.map TerminatedLine.beforeNewline ++
          [OpenLine.remainder joined.last] :=
    joined.splitOn_text
  rw [textLines_eq, cut, linesOfSegments_append _ _ (List.cons_ne_nil _ _),
    OpenLine.linesOfSegments_remainder]
  simp [lines, TerminatedLine.withoutCarriage_beforeNewline, Function.comp_def]

/-- One carriage return belongs to a newline, any other to the line. -/
example : textLines "a\r\r\n\r\nb\r" = ["a\r", "", "b\r"] := by
  decide

/-- Lines and their ends can be told from the text that they are joined to. -/
theorem text_injective :
    Function.Injective text := by
  intro first second same
  have cuts :
      List.splitOn '\n' first.text.toList =
        List.splitOn '\n' second.text.toList := by
    rw [same]
  simp only [splitOn_text] at cuts
  obtain ⟨terminated, remainders⟩ := List.append_inj' cuts rfl
  apply JoinedLines.ext
  · exact List.map_injective_iff.mpr
      TerminatedLine.beforeNewline_injective terminated
  · exact OpenLine.remainder_injective (List.singleton_inj.mp remainders)

/--
Every sequence of characters is joined from lines.  Each newline ends one of
them, and only what follows the last newline may be open.
-/
theorem exists_text_eq (characters : List Char) :
    ∃ joined : JoinedLines, joined.text.toList = characters := by
  induction characters using segmentInduction '\n' with
  | last items absent =>
      by_cases empty : items = []
      · exact ⟨⟨[], none⟩, by simp [text, OpenLine.remainder, empty]⟩
      · let line : OpenLine :=
          { text := String.ofList items
            unbroken := by simpa using absent
            nonempty := by simpa using empty }
        exact ⟨⟨[], some line⟩, by simp [text, OpenLine.remainder, line]⟩
  | completed first rest absent inductionHypothesis =>
      obtain ⟨line, rfl⟩ := TerminatedLine.exists_beforeNewline_eq absent
      obtain ⟨⟨terminated, last⟩, rfl⟩ := inductionHypothesis
      refine ⟨⟨line :: terminated, last⟩, ?_⟩
      simp [text, TerminatedLine.characters_eq]

end JoinedLines

namespace Feed

/-- The answers of a feed to a number of calls. -/
def answers
    {ε : Type}
    (feed : Feed ε) :
    Nat → List (Answer ε String)
  | 0 => []
  | calls + 1 => feed.next.1 :: feed.next.2.answers calls

/-- A feed whose store is used up gives nothing, however often it is asked. -/
theorem answers_of_empty
    {ε : Type}
    (pulled calls : Nat) :
    ({ upcoming := [], pulled := pulled } : Feed ε).answers calls =
      List.replicate calls .nothing := by
  induction calls generalizing pulled with
  | zero =>
      rfl
  | succ calls inductionHypothesis =>
      exact congrArg (Answer.nothing :: ·) (inductionHypothesis (pulled + 1))

/-- A feed of lines gives these lines and then nothing for ever. -/
theorem answers_of_items
    {ε : Type}
    (lines : List String)
    (pulled more : Nat) :
    ({ upcoming := lines.map .item, pulled := pulled } : Feed ε).answers
        (lines.length + more) =
      lines.map .item ++ List.replicate more .nothing := by
  induction lines generalizing pulled with
  | nil =>
      simpa using answers_of_empty pulled more
  | cons line rest inductionHypothesis =>
      have later := inductionHypothesis (pulled + 1)
      rw [List.length_cons, Nat.add_right_comm]
      exact congrArg (Answer.item line :: ·) later

end Feed

/--
Joined lines are given back, each as it was without its end, by a text in memory
and by a file that the text has been written to, and nothing is given from then
on.  Every text is joined from lines in exactly one way, so that the ends of its
lines are all that a source leaves out.
-/
theorem sources_answer_joined_lines :
    (∀ (joined : JoinedLines) (path : String) (more : Nat),
      let calls := joined.lines.length + more
      let given : List (Answer SourceFault String) :=
        joined.lines.map .item ++ List.replicate more .nothing
      (Source.ofText joined.text).feed.answers calls = given ∧
        (Source.ofOpenFile path
            (.readable (Utf8.encode joined.text))).feed.answers calls =
          given) ∧
      ∀ text : String, ∃! joined : JoinedLines, joined.text = text := by
  constructor
  · intro joined path more calls given
    have answered :
        (Feed.ofLines joined.lines : Feed SourceFault).answers calls = given :=
      Feed.answers_of_items joined.lines 0 more
    simp only [Source.ofText, Source.ofOpenFile, fileLines_encode,
      JoinedLines.textLines_text]
    exact ⟨answered, answered⟩
  · intro text
    obtain ⟨joined, shape⟩ := JoinedLines.exists_text_eq text.toList
    have same : joined.text = text := String.toList_inj.mp shape
    refine ⟨joined, same, ?_⟩
    intro other otherSame
    exact JoinedLines.text_injective (otherSame.trans same.symm)

end StatementLexer
