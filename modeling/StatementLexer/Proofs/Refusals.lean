import StatementLexer.Proofs.Grammar
import StatementLexer.Proofs.Lines

namespace StatementLexer

/-!
# What a refusal repeats

A message for refused arguments repeats parts of them, without what would steer
a terminal.  A newline is not left out.  Unless an argument has one in it, the
message therefore has the lines that are worded for it and no other ones.
-/

/-- The characters that are shown are some of those that were there. -/
theorem Terminal.plainFrom_sublist
    (state : State)
    (characters : List Char) :
    (plainFrom state characters).Sublist characters := by
  fun_induction plainFrom state characters with
  | case1 =>
      exact List.Sublist.slnil
  | case2 state character rest shown inductionHypothesis =>
      exact inductionHypothesis.cons_cons character
  | case3 state character rest hidden inductionHypothesis =>
      exact inductionHypothesis.cons character

namespace Utf8

/-- A character of several bytes that begins an argument is beyond ASCII. -/
theorem completeFrom?_beyondAscii
    {unfinished : Unfinished}
    {bytes : Bytes}
    {character : Char}
    (sound : unfinished.Sound)
    (completed : completeFrom? unfinished bytes = some character) :
    0x80 ≤ character.toNat := by
  induction bytes generalizing unfinished with
  | nil =>
      simp [completeFrom?] at completed
  | cons byte rest inductionHypothesis =>
      unfold completeFrom? at completed
      split at completed
      next found extended =>
        rw [Option.some.injEq] at completed
        subst completed
        exact Unfinished.extend?_complete sound extended
      next next extended =>
        exact inductionHypothesis
          (Unfinished.extend?_sound sound extended) completed
      next =>
        simp at completed

/-- Bytes that begin with a character within ASCII have its byte first. -/
theorem head?_of_firstChar?
    {bytes : Bytes}
    {mark : UInt8}
    (ascii : mark < 0x80)
    (first : firstChar? bytes = some (Char.ofNat mark.toNat)) :
    bytes.head? = some mark := by
  have markNumber := toNat_charOfByte ascii
  cases bytes with
  | nil =>
      simp [firstChar?] at first
  | cons byte rest =>
      simp only [firstChar?] at first
      split at first
      next found begun =>
        obtain ⟨byteAscii, rfl⟩ := begin?_complete begun
        have sameNumber := congrArg Char.toNat (Option.some.inj first)
        rw [markNumber, toNat_charOfByte byteAscii] at sameNumber
        rw [UInt8.toNat_inj.mp sameNumber, List.head?_cons]
      next unfinished begun =>
        have beyond := completeFrom?_beyondAscii (begin?_sound begun) first
        rw [markNumber] at beyond
        exact absurd beyond (Nat.not_le.mpr ascii)
      next =>
        simp at first

/-- An ASCII byte in the bytes of a character is all of them. -/
theorem eq_charOfByte_of_mem_encodeChar
    {byte : UInt8}
    {character : Char}
    (ascii : byte < 0x80)
    (member : byte ∈ String.utf8EncodeChar character) :
    character = Char.ofNat byte.toNat := by
  obtain ⟨before, later, parts⟩ := List.append_of_mem member
  have whole :
      decodeFrom none (String.utf8EncodeChar character) = [character] := by
    simpa [decodeFrom] using decodeFrom_encodeChar character []
  rw [parts, decodeFrom_append_ascii soundState_none ascii] at whole
  have found :
      Char.ofNat byte.toNat ∈
        decodeFrom none before ++
          Char.ofNat byte.toNat :: decodeFrom none later := by
    simp
  rw [whole, List.mem_singleton] at found
  exact found.symm

end Utf8

namespace Command

/-- The bytes of the arguments that a message repeats. -/
def UsageError.quoted : UsageError → Bytes
  | .unexpectedArgument argument => argument
  | .unexpectedValue value _ => value
  | .invalidValue value _ => value
  | .missingValue _ => []
  | .repeated _ => []
  | .missingFile => []

/-- A result has a property, and a refusal in its place repeats no newline. -/
def Tidy
    {α : Type}
    (property : α → Prop) :
    Except Halt α → Prop
  | .ok result => property result
  | .error (.usage error) => Unbroken error.quoted
  | .error (.inquiry _) => True

/-- A step that follows a tidy one and is tidy itself makes both tidy. -/
theorem Tidy.bind
    {α β : Type}
    {property : α → Prop}
    {nextProperty : β → Prop}
    {first : Except Halt α}
    {next : α → Except Halt β}
    (tidy : Tidy property first)
    (nextTidy : ∀ result, property result → Tidy nextProperty (next result)) :
    Tidy nextProperty (first >>= next) := by
  match first, tidy with
  | .ok result, holds =>
      exact nextTidy result holds
  | .error (.usage _), unbroken =>
      exact unbroken
  | .error (.inquiry _), _ =>
      trivial

theorem unbroken_nil : Unbroken [] := by
  simp [Unbroken]

namespace Given

theorem tidy_turnOn
    (given : Given)
    (flag : Flag) :
    Tidy (fun _ => True) (given.turnOn flag) := by
  unfold turnOn
  split
  · exact unbroken_nil
  · cases flag <;> trivial

/-- A value without a newline is repeated without one. -/
theorem tidy_assign
    (given : Given)
    (setting : Setting)
    {value : Bytes}
    (unbroken : Unbroken value) :
    Tidy (fun _ => True) (given.assign setting value) := by
  unfold assign
  split
  · exact unbroken_nil
  split
  · exact unbroken_nil
  cases setting with
  | file =>
      trivial
  | output =>
      simp only
      split
      · trivial
      · exact unbroken

theorem tidy_job (given : Given) :
    Tidy (fun _ => True) given.job := by
  unfold job
  split
  · exact unbroken_nil
  · trivial

end Given

namespace Reading

/--
The value that has not been checked yet, if there is one, has no newline in it.
-/
def WaitsUnbroken (reading : Reading) : Prop :=
  ∀ setting value, reading.waiting = .withValue setting value → Unbroken value

theorem tidy_finish
    {reading : Reading}
    (waits : reading.WaitsUnbroken) :
    Tidy (fun _ => True) reading.finish := by
  unfold finish
  split
  · trivial
  · exact unbroken_nil
  next setting value waiting =>
    exact reading.given.tidy_assign setting (waits setting value waiting)

/-- Meeting a switch repeats no newline and leaves none waiting. -/
theorem tidy_meet
    {reading : Reading}
    (waits : reading.WaitsUnbroken)
    (switch : Switch) :
    Tidy WaitsUnbroken (reading.meet switch) := by
  refine (tidy_finish waits).bind fun given _ => ?_
  cases switch with
  | flag flag =>
      refine (given.tidy_turnOn flag).bind fun next _ => ?_
      simp [Tidy, pure, Except.pure, WaitsUnbroken]
  | inquiry inquiry =>
      trivial
  | setting setting =>
      simp [Tidy, pure, Except.pure, WaitsUnbroken]

theorem tidy_meetWithValue
    {reading : Reading}
    (waits : reading.WaitsUnbroken)
    (setting : Setting)
    {value : Bytes}
    (unbroken : Unbroken value) :
    Tidy WaitsUnbroken (reading.meetWithValue setting value) := by
  refine (tidy_finish waits).bind fun given _ => ?_
  refine (given.tidy_assign setting unbroken).bind fun next _ => ?_
  simp [Tidy, pure, Except.pure, WaitsUnbroken]

/-- A long name without a newline is repeated without one. -/
theorem tidy_readLong
    {reading : Reading}
    (waits : reading.WaitsUnbroken)
    {name : Bytes}
    {value : Option Bytes}
    (unbrokenName : Unbroken name)
    (unbrokenValue : ∀ attached ∈ value, Unbroken attached) :
    Tidy WaitsUnbroken (reading.readLong name value) := by
  unfold readLong
  split
  · simpa [refuse, Tidy, UsageError.quoted, Unbroken, dash] using unbrokenName
  · exact tidy_meet waits _
  · exact tidy_meetWithValue waits _ (unbrokenValue _ rfl)
  · exact unbrokenValue _ rfl

/-- The letter that a refusal repeats is among those of the cluster. -/
theorem unbroken_unknownLetter
    {letters : Bytes}
    (unbroken : Unbroken letters) :
    Unbroken (unknownLetter letters) := by
  unfold unknownLetter
  split
  next character first =>
    intro member
    obtain rfl := Utf8.eq_charOfByte_of_mem_encodeChar (by decide) member
    have atHead := Utf8.head?_of_firstChar? (by decide) first
    exact unbroken (List.mem_of_mem_head? atHead)
  next =>
    exact unbroken

theorem unbroken_attachedRest
    {rest : Bytes}
    (unbroken : Unbroken rest) :
    Unbroken (attachedRest rest) := by
  fun_cases attachedRest rest with
  | case1 =>
      exact unbroken
  | case2 later =>
      exact fun member => unbroken (List.mem_cons_of_mem _ member)
  | case3 =>
      exact unbroken

/-- A cluster without a newline is repeated without one, letter by letter. -/
theorem tidy_readCluster
    {reading : Reading}
    (waits : reading.WaitsUnbroken)
    {letters : Bytes}
    (unbroken : Unbroken letters) :
    Tidy WaitsUnbroken (reading.readCluster letters) := by
  induction letters generalizing reading with
  | nil =>
      exact waits
  | cons letter rest inductionHypothesis =>
      have unbrokenRest : Unbroken rest :=
        fun member => unbroken (List.mem_cons_of_mem letter member)
      unfold readCluster
      split
      · simpa [refuse, Tidy, UsageError.quoted, Unbroken, dash] using
          unbroken_unknownLetter unbroken
      · split
        · exact tidy_meet waits _
        · exact tidy_meetWithValue waits _ (unbroken_attachedRest unbrokenRest)
      · exact (tidy_meet waits _).bind fun next nextWaits =>
          inductionHypothesis nextWaits unbrokenRest

/-- A value without a newline waits, or is repeated, without one. -/
theorem tidy_readPlain
    {reading : Reading}
    {value : Bytes}
    (unbroken : Unbroken value) :
    Tidy WaitsUnbroken (reading.readPlain value) := by
  unfold readPlain
  split
  · rintro setting taken same
    cases same
    exact unbroken
  · exact unbroken

/--
Reading an argument without a newline leaves none to be repeated, now or later.
-/
theorem tidy_read
    {reading : Reading}
    (waits : reading.WaitsUnbroken)
    {argument : Bytes}
    (unbroken : Unbroken argument) :
    Tidy WaitsUnbroken (reading.read argument) := by
  unfold read
  split
  · exact unbroken
  rcases Argument.ofBytes_cases argument with
    ⟨_, shape⟩ | ⟨_, shape⟩ | ⟨letter, rest, _, rfl, shape⟩ |
      ⟨name, value, rfl, shape⟩
  · rw [shape]
    exact tidy_readPlain unbroken
  · rw [shape]
    exact waits
  · rw [shape]
    exact tidy_readCluster waits fun member =>
      unbroken (List.mem_cons_of_mem dash member)
  · rw [shape]
    have unbrokenName : Unbroken name := by
      intro member
      exact unbroken (by simp [member])
    have unbrokenValue : ∀ attached ∈ value, Unbroken attached := by
      rintro attached ⟨⟩ member
      exact unbroken (by simp [Argument.attachment, member])
    exact tidy_readLong waits unbrokenName unbrokenValue

/-- Reading arguments without newlines leaves none to be repeated. -/
theorem tidy_foldlM_read
    {reading : Reading}
    (waits : reading.WaitsUnbroken)
    {arguments : List Bytes}
    (unbroken : ∀ argument ∈ arguments, Unbroken argument) :
    Tidy WaitsUnbroken (arguments.foldlM read reading) := by
  induction arguments generalizing reading with
  | nil =>
      exact waits
  | cons argument rest inductionHypothesis =>
      rw [List.forall_mem_cons] at unbroken
      rw [List.foldlM_cons]
      exact (tidy_read waits unbroken.1).bind fun next nextWaits =>
        inductionHypothesis nextWaits unbroken.2

end Reading

/-- A refusal repeats no newline unless an argument has one. -/
theorem exists_newline_of_quoted
    {arguments : List Bytes}
    {error : UsageError}
    (refused : readArguments arguments = .error (.usage error))
    (quoted : 0x0A ∈ error.quoted) :
    ∃ argument ∈ arguments, 0x0A ∈ argument := by
  by_contra! unbroken
  have start : Reading.WaitsUnbroken {} := by
    simp [Reading.WaitsUnbroken]
  have tidy : Tidy (fun _ => True) (readArguments arguments) :=
    (Reading.tidy_foldlM_read start unbroken).bind fun _ waits =>
      (Reading.tidy_finish waits).bind fun given _ => given.tidy_job
  rw [refused] at tidy
  exact tidy quoted

/-!
## The lines of the message
-/

/-- A newline parts the lines of a text. -/
theorem hasFailureLine_append_newline
    (first later : String) :
    HasFailureLine (first ++ "\n" ++ later) ↔
      HasFailureLine first ∨ HasFailureLine later := by
  have parts :
      List.splitOn '\n' (first ++ "\n" ++ later).toList =
        List.splitOn '\n' first.toList ++ List.splitOn '\n' later.toList := by
    rw [String.toList_append, String.toList_append, List.append_assoc]
    exact List.splitOn_append_cons_self first.toList later.toList
  simp only [HasFailureLine, parts, List.mem_append, or_and_right, exists_or]

namespace UsageError

/-- An argument without a newline is shown without one. -/
theorem newline_not_mem_shown
    {argument : Bytes}
    (unbroken : Unbroken argument) :
    '\n' ∉ (shown argument).toList := by
  have absent : '\n' ∉ Utf8.decodeFrom none argument :=
    Utf8.charOfByte_not_mem_decodeFrom Utf8.soundState_none (by decide) unbroken
  have hidden :
      '\n' ∉ Terminal.plainFrom .ground (Utf8.decodeFrom none argument) :=
    fun member => absent ((Terminal.plainFrom_sublist _ _).subset member)
  simpa [shown, Terminal.plain, Utf8.decode] using hidden

theorem newline_not_mem_named (switch : Switch) :
    '\n' ∉ (named switch).toList := by
  rcases switch with (_ | _ | _) | (_ | _) | (_ | _) <;> decide

/-- A complaint on one line is not like a failure. -/
theorem not_hasFailureLine_of_unbroken
    {text : String}
    (unbroken : '\n' ∉ text.toList) :
    ¬ HasFailureLine ("error: " ++ text) := by
  have absent : '\n' ∉ ("error: " ++ text).toList := by
    simpa using unbroken
  rintro ⟨line, member, begins⟩
  rw [List.splitOn_eq_singleton absent, List.mem_singleton] at member
  subst member
  simp [failureLead] at begins

/--
The values that a setting allows are listed on a line that is not like a
failure.
-/
theorem not_hasFailureLine_append_choices
    {text : String}
    (unbroken : '\n' ∉ text.toList)
    (setting : Setting) :
    ¬ HasFailureLine ("error: " ++ (text ++ choices setting)) := by
  have firstLine := not_hasFailureLine_of_unbroken unbroken
  cases setting with
  | file =>
      rwa [choices, String.append_empty]
  | output =>
      have parts :
          choices .output = "\n" ++ "  [possible values: text, json]" := rfl
      rw [parts, ← String.append_assoc, ← String.append_assoc,
        hasFailureLine_append_newline]
      exact not_or.mpr ⟨firstLine, by decide⟩

/--
A complaint without a newline in what it repeats has no line like that of a
failure.  What is repeated stands before the first newline, which is where each
complaint is parted.
-/
theorem not_hasFailureLine_complaint
    {error : UsageError}
    (unbroken : Unbroken error.quoted) :
    ¬ HasFailureLine ("error: " ++ error.complaint) := by
  cases error with
  | unexpectedArgument argument =>
      have absent : '\n' ∉ (shown argument).toList :=
        newline_not_mem_shown unbroken
      apply not_hasFailureLine_of_unbroken
      unfold complaint
      simp [absent]
  | unexpectedValue value switch =>
      have absent : '\n' ∉ (shown value).toList :=
        newline_not_mem_shown unbroken
      apply not_hasFailureLine_of_unbroken
      unfold complaint
      simp [absent, newline_not_mem_named]
  | missingValue setting =>
      refine not_hasFailureLine_append_choices ?_ setting
      simp [newline_not_mem_named]
  | repeated switch =>
      apply not_hasFailureLine_of_unbroken
      unfold complaint
      simp [newline_not_mem_named]
  | invalidValue value setting =>
      have absent : '\n' ∉ (shown value).toList :=
        newline_not_mem_shown unbroken
      refine not_hasFailureLine_append_choices ?_ setting
      simp [absent, newline_not_mem_named]
  | missingFile =>
      unfold complaint
      decide

/--
A message has the lines of its complaint, a blank one and those of the advice.
-/
theorem hasFailureLine_message_iff
    (advice : Advice)
    (arguments : List Bytes)
    (error : UsageError) :
    HasFailureLine (error.message advice arguments) ↔
      HasFailureLine ("error: " ++ error.complaint) ∨
        HasFailureLine (advice.text arguments error) := by
  have blank : ¬ HasFailureLine "" := by decide
  have twoNewlines : "\n\n" = "\n" ++ "" ++ "\n" := rfl
  rw [message, twoNewlines, ← String.append_assoc, ← String.append_assoc,
    hasFailureLine_append_newline, hasFailureLine_append_newline]
  simp [blank]

end UsageError

/--
A refusal has a line like that of a failure only if an argument has a newline.
-/
theorem exists_newline_of_hasFailureLine
    {advice : Advice}
    {arguments : List Bytes}
    {error : UsageError}
    (refused : readArguments arguments = .error (.usage error))
    (failureLine : HasFailureLine (error.message advice arguments)) :
    ∃ argument ∈ arguments, 0x0A ∈ argument := by
  by_contra! unbroken
  have unbrokenQuoted : Unbroken error.quoted := by
    intro quoted
    obtain ⟨argument, member, newline⟩ :=
      exists_newline_of_quoted refused quoted
    exact unbroken argument member newline
  rcases (UsageError.hasFailureLine_message_iff advice arguments error).mp
    failureLine with inComplaint | inAdvice
  · exact UsageError.not_hasFailureLine_complaint unbrokenQuoted inComplaint
  · exact advice.quiet arguments error unbroken inAdvice

end Command

end StatementLexer
