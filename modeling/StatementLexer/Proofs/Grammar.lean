import StatementLexer.Command.Program
import StatementLexer.Proofs.Mentions

namespace StatementLexer.Command

/-!
# The grammar of the command line

Arguments are read by a machine with a memory: a setting may wait for its value,
and is checked only later.  The arguments that it accepts can be described
without that machine.  They are a sequence of groups, each of which mentions
switches and consists of one argument, or of two if the second one is the value
of a setting.  Two dashes alone may stand at the end.
-/

/-- The argument that gives a flag by its name. -/
def Flag.spelling : Flag → Bytes
  | .debug => Utf8.encode "--debug"
  | .keepLastWord => Utf8.encode "--flush-eol"
  | .dropEmptyWords => Utf8.encode "--skip-empty"

/--
The argument that gives a setting by its name and leaves the value to the next
one.
-/
def Setting.spelling : Setting → Bytes
  | .file => Utf8.encode "--file"
  | .output => Utf8.encode "--output"

/-- The letters `f` and `o`, which give a setting. -/
def Setting.letter : Setting → UInt8
  | .file => 0x66
  | .output => 0x6F

/-- The letter `d`, the only one that gives a flag. -/
def debugLetter : UInt8 :=
  0x64

/-- Two dashes alone. -/
def twoDashes : Bytes :=
  [dash, dash]

/--
An argument that can be a value: it does not begin with a dash unless it is only
that.
-/
def StandsAlone (argument : Bytes) : Prop :=
  argument = [dash] ∨ argument.head? ≠ some dash

/--
What is left of an argument attaches a value, itself or what follows its equals
sign.
-/
inductive Attaches : Bytes → Bytes → Prop where
  | itself
      {first : UInt8}
      {rest : Bytes}
      (noSign : first ≠ equalsSign) :
      Attaches (first :: rest) (first :: rest)
  | afterSign
      {value : Bytes} :
      Attaches (equalsSign :: value) value

/--
What a cluster of letters mentions, and the setting whose value it leaves to the
next argument.

A cluster has any number of letters `d`, and `f` or `o` may end it or have their
value behind them.
-/
inductive Letters : Bytes → List Mention → Option Setting → Prop where
  | debug :
      Letters [debugLetter] [.flag .debug] none
  | debugThen
      {rest : Bytes}
      {said : List Mention}
      {owed : Option Setting}
      (later : Letters rest said owed) :
      Letters (debugLetter :: rest) (.flag .debug :: said) owed
  | setting (setting : Setting) :
      Letters [setting.letter] [] (some setting)
  | value
      {rest value : Bytes}
      (setting : Setting)
      (attached : Attaches rest value) :
      Letters (setting.letter :: rest) [.setting setting value] none

/--
What an argument mentions, and the setting whose value it leaves to the next
one.
-/
inductive Says : Bytes → List Mention → Option Setting → Prop where
  | flag (flag : Flag) :
      Says flag.spelling [.flag flag] none
  | setting (setting : Setting) :
      Says setting.spelling [] (some setting)
  | value
      (setting : Setting)
      (value : Bytes) :
      Says (setting.spelling ++ equalsSign :: value)
        [.setting setting value] none
  | cluster
      {letters : Bytes}
      {said : List Mention}
      {owed : Option Setting}
      (spelled : Letters letters said owed) :
      Says (dash :: letters) said owed

/-- Arguments that are a sequence of groups, and what they mention. -/
inductive Sentence : List Bytes → List Mention → Prop where
  | empty :
      Sentence [] []
  | closed :
      Sentence [twoDashes] []
  | alone
      {argument : Bytes}
      {rest : List Bytes}
      {said later : List Mention}
      (meaning : Says argument said none)
      (others : Sentence rest later) :
      Sentence (argument :: rest) (said ++ later)
  | withValue
      {argument value : Bytes}
      {rest : List Bytes}
      {said later : List Mention}
      {setting : Setting}
      (meaning : Says argument said (some setting))
      (alone : StandsAlone value)
      (others : Sentence rest later) :
      Sentence (argument :: value :: rest)
        (said ++ .setting setting value :: later)

/-!
## Names and shapes
-/

/-- A cluster has a letter, and its first one is no dash. -/
theorem Letters.exists_cons
    {letters : Bytes}
    {said : List Mention}
    {owed : Option Setting}
    (spelled : Letters letters said owed) :
    ∃ letter rest, letter ≠ dash ∧ letters = letter :: rest := by
  cases spelled with
  | debug | debugThen =>
      exact ⟨_, _, by decide, rfl⟩
  | setting setting | value setting =>
      exact ⟨_, _, by cases setting <;> decide, rfl⟩

namespace Switch

/-- A long name is known exactly if it is that of a switch. -/
theorem ofLongName?_eq_some_iff
    {name : Bytes}
    {switch : Switch} :
    ofLongName? name = some switch ↔ name = Utf8.encode switch.longName := by
  constructor
  · intro found
    have same := List.find?_some found
    exact (beq_iff_eq.mp same).symm
  · rintro rfl
    rcases switch with (_ | _ | _) | (_ | _) | (_ | _) <;> decide

@[simp] theorem ofLongName?_longName (switch : Switch) :
    ofLongName? (Utf8.encode switch.longName) = some switch :=
  ofLongName?_eq_some_iff.mpr rfl

theorem longName_ne_nil (switch : Switch) :
    Utf8.encode switch.longName ≠ [] := by
  rcases switch with (_ | _ | _) | (_ | _) | (_ | _) <;> decide

theorem equalsSign_not_mem_longName (switch : Switch) :
    equalsSign ∉ Utf8.encode switch.longName := by
  rcases switch with (_ | _ | _) | (_ | _) | (_ | _) <;> decide

/-- A letter is known exactly if it is that of a switch. -/
theorem ofLetter?_eq_some_iff
    {letter : UInt8}
    {switch : Switch} :
    ofLetter? letter = some switch ↔ switch.letter? = some letter := by
  constructor
  · intro found
    have same := List.find?_some found
    exact beq_iff_eq.mp same
  · intro same
    rcases switch with (_ | _ | _) | (_ | _) | (_ | _) <;>
      simp only [letter?, Option.some.injEq, reduceCtorEq] at same <;>
      subst same <;> decide

end Switch

theorem Setting.letter?_eq (setting : Setting) :
    Switch.letter? (.setting setting) = some setting.letter := by
  cases setting <;> rfl

namespace Argument

/-- The bytes that attach a value to a name. -/
def attachment : Option Bytes → Bytes
  | none => []
  | some value => equalsSign :: value

/-- An argument is its name and the value that is attached to it. -/
theorem attachment_attachedValue? (body : Bytes) :
    body.takeWhile (· ≠ equalsSign) ++ attachment (attachedValue? body) =
      body := by
  have parts :=
    List.takeWhile_append_dropWhile (p := (· ≠ equalsSign)) (l := body)
  unfold attachedValue?
  split
  next none =>
    rw [none] at parts
    simpa [attachment] using parts
  next first value found =>
    have isSign : first = equalsSign := by
      have head := List.head?_dropWhile_not (· ≠ equalsSign) body
      rw [found] at head
      simpa using head
    rw [found, isSign] at parts
    exact parts

/-- Two dashes with something behind them begin a long name. -/
theorem ofBytes_of_dashes
    {body : Bytes}
    (nonempty : body ≠ []) :
    ofBytes (dash :: dash :: body) =
      .long (body.takeWhile (· ≠ equalsSign)) (attachedValue? body) := by
  simp [ofBytes, nonempty]

/-- The name and the value of a long argument are found again in its bytes. -/
theorem ofBytes_long
    {name : Bytes}
    (nonempty : name ≠ [])
    (noSign : equalsSign ∉ name)
    (value : Option Bytes) :
    ofBytes (dash :: dash :: (name ++ attachment value)) =
      .long name value := by
  have inName : ∀ byte ∈ name, decide (byte ≠ equalsSign) = true := by
    intro byte member
    exact decide_eq_true fun isSign => noSign (isSign ▸ member)
  have nameFound :
      (name ++ attachment value).takeWhile (· ≠ equalsSign) = name := by
    rw [List.takeWhile_append_of_pos inName]
    cases value <;> simp [attachment]
  have valueFound : attachedValue? (name ++ attachment value) = value := by
    rw [attachedValue?, List.dropWhile_append_of_pos inName]
    cases value <;> simp [attachment]
  rw [ofBytes_of_dashes (List.append_ne_nil_of_left_ne_nil nonempty _),
    nameFound, valueFound]

theorem spelling_flag (flag : Flag) :
    flag.spelling =
      dash :: dash ::
        (Utf8.encode (Switch.longName (.flag flag)) ++ attachment none) := by
  cases flag <;> rfl

/-- A setting is spelled as its long name, with or without a value. -/
theorem spelling_setting
    (setting : Setting)
    (value : Option Bytes) :
    setting.spelling ++ attachment value =
      dash :: dash ::
        (Utf8.encode (Switch.longName (.setting setting)) ++
          attachment value) := by
  have spelled :
      setting.spelling =
        dash :: dash :: Utf8.encode (Switch.longName (.setting setting)) := by
    cases setting <;> rfl
  rw [spelled, List.cons_append, List.cons_append]

/-- An argument has one of four shapes, which its first two bytes tell apart. -/
theorem ofBytes_cases (argument : Bytes) :
    (StandsAlone argument ∧ ofBytes argument = .plain argument) ∨
      (argument = twoDashes ∧ ofBytes argument = .terminator) ∨
      (∃ letter rest,
        letter ≠ dash ∧ argument = dash :: letter :: rest ∧
          ofBytes argument = .cluster (letter :: rest)) ∨
      ∃ name value,
        argument = dash :: dash :: (name ++ attachment value) ∧
          ofBytes argument = .long name value := by
  match argument with
  | [] =>
      exact Or.inl ⟨Or.inr (by simp), rfl⟩
  | [single] =>
      left
      by_cases isDash : single = dash
      · exact ⟨Or.inl (by rw [isDash]), rfl⟩
      · exact ⟨Or.inr (by simpa using isDash), rfl⟩
  | first :: second :: rest =>
      by_cases firstDash : first = dash
      · right
        subst firstDash
        by_cases secondDash : second = dash
        · subst secondDash
          by_cases nothing : rest = []
          · left
            subst nothing
            exact ⟨rfl, rfl⟩
          · right
            right
            refine ⟨_, _, ?_, ofBytes_of_dashes nothing⟩
            rw [attachment_attachedValue?]
        · right
          left
          exact ⟨second, rest, secondDash, rfl, by simp [ofBytes, secondDash]⟩
      · left
        exact ⟨Or.inr (by simpa using firstDash), by simp [ofBytes, firstDash]⟩

theorem not_standsAlone_of_dash
    (second : UInt8)
    (rest : Bytes) :
    ¬ StandsAlone (dash :: second :: rest) := by
  simp [StandsAlone]

/-- An argument that can be a value is taken as it is. -/
theorem ofBytes_of_standsAlone
    {argument : Bytes}
    (alone : StandsAlone argument) :
    ofBytes argument = .plain argument := by
  rcases ofBytes_cases argument with
    ⟨_, shape⟩ | ⟨rfl, _⟩ | ⟨letter, rest, _, rfl, _⟩ | ⟨name, value, rfl, _⟩
  · exact shape
  · exact (not_standsAlone_of_dash _ _ alone).elim
  · exact (not_standsAlone_of_dash _ _ alone).elim
  · exact (not_standsAlone_of_dash _ _ alone).elim

end Argument

/-!
## Reading one argument
-/

namespace Reading

/-- What is known when some switches have been given and a value may be owed. -/
def after
    (given : Given) :
    Option Setting → Reading
  | none => { given := given }
  | some setting => { given := given, waiting := .forValue setting }

/-- A switch is met once the setting that waits has been checked. -/
theorem meet_eq
    (reading : Reading)
    (switch : Switch) :
    reading.meet switch =
      reading.finish >>= fun given => meet { given := given } switch := rfl

theorem meetWithValue_eq
    (reading : Reading)
    (setting : Setting)
    (value : Bytes) :
    reading.meetWithValue setting value =
      reading.finish >>= fun given =>
        meetWithValue { given := given } setting value := rfl

theorem meet_flag
    (given : Given)
    (flag : Flag) :
    meet { given := given } (.flag flag) =
      (given.takeAll [.flag flag]).map (after · none) := by
  rw [Given.takeAll_singleton]
  cases turned : given.turnOn flag <;>
    simp [meet, finish, Given.take, turned, after, bind, Except.bind, pure,
      Except.pure, Except.map]

theorem meet_setting
    (given : Given)
    (setting : Setting) :
    meet { given := given } (.setting setting) =
      (given.takeAll []).map (after · (some setting)) := rfl

/-- Meeting a setting with its value takes in the mention of both. -/
theorem meetWithValue_setting
    (given : Given)
    (setting : Setting)
    (value : Bytes) :
    meetWithValue { given := given } setting value =
      (given.takeAll [.setting setting value]).map (after · none) := by
  rw [Given.takeAll_singleton]
  cases assigned : given.assign setting value <;>
    simp [meetWithValue, finish, Given.take, assigned, after, bind, Except.bind,
      pure, Except.pure, Except.map]

/-- The value in a cluster is what follows the letter, less one equals sign. -/
theorem attaches_iff
    {rest value : Bytes} :
    Attaches rest value ↔ rest ≠ [] ∧ attachedRest rest = value := by
  constructor
  · rintro (noSign | _)
    · simp [attachedRest, noSign]
    · simp [attachedRest]
  · rintro ⟨nonempty, rfl⟩
    obtain ⟨first, later, rfl⟩ := List.exists_cons_of_ne_nil nonempty
    by_cases sign : first = equalsSign
    · simpa [attachedRest, sign] using Attaches.afterSign
    · simpa [attachedRest, sign] using Attaches.itself sign

theorem readCluster_debug
    (reading : Reading)
    (rest : Bytes) :
    reading.readCluster (debugLetter :: rest) =
      reading.meet (.flag .debug) >>= fun next => next.readCluster rest := by
  have found : Switch.ofLetter? debugLetter = some (.flag .debug) :=
    Switch.ofLetter?_eq_some_iff.mpr rfl
  simp only [readCluster, found]

/--
A setting in a cluster takes the rest of it as its value, if there is any.
-/
theorem readCluster_setting
    (reading : Reading)
    (setting : Setting)
    (rest : Bytes) :
    reading.readCluster (setting.letter :: rest) =
      if rest = [] then
        reading.meet (.setting setting)
      else
        reading.meetWithValue setting (attachedRest rest) := by
  have found := Switch.ofLetter?_eq_some_iff.mpr setting.letter?_eq
  simp only [readCluster, found]

/-- A cluster of the grammar gives what it mentions. -/
theorem readCluster_of_letters
    {letters : Bytes}
    {said : List Mention}
    {owed : Option Setting}
    (spelled : Letters letters said owed)
    (given : Given) :
    readCluster { given := given } letters =
      (given.takeAll said).map (after · owed) := by
  induction spelled generalizing given with
  | debug =>
      rw [readCluster_debug, meet_flag]
      cases given.takeAll [.flag .debug] <;> rfl
  | debugThen later inductionHypothesis =>
      rw [readCluster_debug, meet_flag, Given.takeAll_singleton,
        Given.takeAll_cons]
      cases given.take (.flag .debug) with
      | error halt =>
          rfl
      | ok next =>
          exact inductionHypothesis next
  | setting setting =>
      rw [readCluster_setting, if_pos rfl, meet_setting]
  | value setting attached =>
      obtain ⟨nonempty, rfl⟩ := attaches_iff.mp attached
      rw [readCluster_setting, if_neg nonempty, meetWithValue_setting]

/-- Only clusters of the grammar can be read. -/
theorem letters_of_readCluster
    {letters : Bytes}
    {given : Given}
    {next : Reading}
    (nonempty : letters ≠ [])
    (read : readCluster { given := given } letters = .ok next) :
    ∃ said owed, Letters letters said owed := by
  induction letters generalizing given with
  | nil =>
      exact (nonempty rfl).elim
  | cons letter rest inductionHypothesis =>
      cases found : Switch.ofLetter? letter with
      | none =>
          simp [readCluster, found, refuse] at read
      | some switch =>
          have isLetter := Switch.ofLetter?_eq_some_iff.mp found
          cases switch with
          | inquiry inquiry =>
              simp [readCluster, found, meet, finish, bind, Except.bind] at read
          | setting setting =>
              obtain rfl : setting.letter = letter := by
                rwa [Setting.letter?_eq, Option.some.injEq] at isLetter
              by_cases empty : rest = []
              · subst empty
                exact ⟨_, _, Letters.setting setting⟩
              · exact ⟨_, _,
                  Letters.value setting (attaches_iff.mpr ⟨empty, rfl⟩)⟩
          | flag flag =>
              obtain ⟨rfl, rfl⟩ : flag = .debug ∧ letter = debugLetter := by
                cases flag <;> simp_all [Switch.letter?, debugLetter]
              by_cases empty : rest = []
              · subst empty
                exact ⟨_, _, Letters.debug⟩
              · rw [readCluster_debug, meet_flag, bind_eq_ok_iff] at read
                obtain ⟨between, met, readRest⟩ := read
                obtain ⟨turned, _, rfl⟩ := map_eq_ok_iff.mp met
                obtain ⟨said, owed, later⟩ := inductionHypothesis empty readRest
                exact ⟨_, _, Letters.debugThen later⟩

/-- A long name is read with the value that is attached to it. -/
theorem read_long
    (given : Given)
    (switch : Switch)
    (value : Option Bytes) :
    read { given := given }
        (dash :: dash ::
          (Utf8.encode switch.longName ++ Argument.attachment value)) =
      readLong { given := given } (Utf8.encode switch.longName) value := by
  have shape :=
    Argument.ofBytes_long switch.longName_ne_nil
      switch.equalsSign_not_mem_longName value
  simp only [read, Bool.false_eq_true, ↓reduceIte, shape]

/-- An argument of the grammar gives what it mentions. -/
theorem read_of_meaning
    {argument : Bytes}
    {said : List Mention}
    {owed : Option Setting}
    (meaning : Says argument said owed)
    (given : Given) :
    read { given := given } argument =
      (given.takeAll said).map (after · owed) := by
  cases meaning with
  | flag flag =>
      rw [Argument.spelling_flag, read_long]
      simp only [readLong, Switch.ofLongName?_longName, meet_flag]
  | setting setting =>
      rw [← List.append_nil setting.spelling]
      change read _ (setting.spelling ++ Argument.attachment none) = _
      rw [Argument.spelling_setting, read_long]
      simp only [readLong, Switch.ofLongName?_longName, meet_setting]
  | value setting value =>
      change read _ (setting.spelling ++ Argument.attachment (some value)) = _
      rw [Argument.spelling_setting, read_long]
      simp only [readLong, Switch.ofLongName?_longName, meetWithValue_setting]
  | cluster spelled =>
      obtain ⟨letter, rest, noDash, rfl⟩ := spelled.exists_cons
      have shape :
          Argument.ofBytes (dash :: letter :: rest) =
            .cluster (letter :: rest) := by
        simp [Argument.ofBytes, noDash]
      simp only [read, Bool.false_eq_true, ↓reduceIte, shape]
      exact readCluster_of_letters spelled given

/-- Only arguments of the grammar can be read while no setting waits. -/
theorem meaning_of_read
    {argument : Bytes}
    {given : Given}
    {next : Reading}
    (reads : read { given := given } argument = .ok next) :
    argument = twoDashes ∨ ∃ said owed, Says argument said owed := by
  rcases Argument.ofBytes_cases argument with
    ⟨_, shape⟩ | ⟨isTerminator, _⟩ | ⟨letter, rest, _, rfl, shape⟩ |
      ⟨name, value, rfl, shape⟩
  · simp [read, shape, readPlain, refuse] at reads
  · exact Or.inl isTerminator
  · right
    simp only [read, Bool.false_eq_true, ↓reduceIte, shape] at reads
    obtain ⟨said, owed, spelled⟩ :=
      letters_of_readCluster (List.cons_ne_nil letter rest) reads
    exact ⟨said, owed, Says.cluster spelled⟩
  · right
    simp only [read, Bool.false_eq_true, ↓reduceIte, shape] at reads
    cases found : Switch.ofLongName? name with
    | none =>
        simp [readLong, found, refuse] at reads
    | some switch =>
        obtain rfl := Switch.ofLongName?_eq_some_iff.mp found
        cases switch with
        | flag flag =>
            cases value with
            | none =>
                rw [← Argument.spelling_flag]
                exact ⟨_, _, Says.flag flag⟩
            | some value =>
                simp [readLong, refuse] at reads
        | inquiry inquiry =>
            cases value <;>
              simp [readLong, refuse, meet, finish, bind, Except.bind] at reads
        | setting setting =>
            rw [← Argument.spelling_setting]
            cases value with
            | none =>
                rw [Argument.attachment, List.append_nil]
                exact ⟨_, _, Says.setting setting⟩
            | some value =>
                exact ⟨_, _, Says.value setting value⟩

/-!
## Checking the setting that waits

A switch may be read as if the setting that waits had been checked before: what
can be read and what is then known are the same, though not what is refused
first.
-/

/-- A setting that waits is checked before a long name is read. -/
theorem readLong_eq_ok_iff
    {reading next : Reading}
    {name : Bytes}
    {value : Option Bytes} :
    reading.readLong name value = .ok next ↔
      ∃ given, reading.finish = .ok given ∧
        readLong { given := given } name value = .ok next := by
  cases found : Switch.ofLongName? name with
  | none =>
      simp [readLong, found, refuse]
  | some switch =>
      cases value with
      | none =>
          simp only [readLong, found]
          rw [meet_eq, bind_eq_ok_iff]
      | some value =>
          cases switch with
          | setting setting =>
              simp only [readLong, found]
              rw [meetWithValue_eq, bind_eq_ok_iff]
          | flag flag | inquiry inquiry =>
              simp [readLong, found, refuse]

/-- A setting that waits is checked before a cluster is read. -/
theorem readCluster_eq_ok_iff
    {reading next : Reading}
    {letter : UInt8}
    {rest : Bytes} :
    reading.readCluster (letter :: rest) = .ok next ↔
      ∃ given, reading.finish = .ok given ∧
        readCluster { given := given } (letter :: rest) = .ok next := by
  cases found : Switch.ofLetter? letter with
  | none =>
      simp [readCluster, found, refuse]
  | some switch =>
      cases switch with
      | setting setting =>
          simp only [readCluster, found]
          split
          · rw [meet_eq, bind_eq_ok_iff]
          · rw [meetWithValue_eq, bind_eq_ok_iff]
      | flag flag | inquiry inquiry =>
          simp only [readCluster, found]
          rw [meet_eq, bind_assoc, bind_eq_ok_iff]

/-- An argument that can be a value is read only if a setting waits for one. -/
theorem read_eq_ok_iff_of_standsAlone
    {reading next : Reading}
    {argument : Bytes}
    (alone : StandsAlone argument)
    (isOpen : reading.closed = false) :
    reading.read argument = .ok next ↔
      ∃ setting, reading.waiting = .forValue setting ∧
        next = { reading with waiting := .withValue setting argument } := by
  simp only [read, isOpen, Bool.false_eq_true, ↓reduceIte,
    Argument.ofBytes_of_standsAlone alone, readPlain]
  cases reading.waiting with
  | nothing | withValue =>
      simp [refuse]
  | forValue setting =>
      simp [eq_comm]

theorem read_twoDashes
    {reading : Reading}
    (isOpen : reading.closed = false) :
    reading.read twoDashes = .ok { reading with closed := true } := by
  simp [read, isOpen, twoDashes, Argument.ofBytes]

/-- Any other argument is read after the setting that waits has been checked. -/
theorem read_eq_ok_iff_of_switch
    {reading next : Reading}
    {argument : Bytes}
    (noValue : ¬ StandsAlone argument)
    (noEnd : argument ≠ twoDashes)
    (isOpen : reading.closed = false) :
    reading.read argument = .ok next ↔
      ∃ given, reading.finish = .ok given ∧
        read { given := given } argument = .ok next := by
  rcases Argument.ofBytes_cases argument with
    ⟨alone, _⟩ | ⟨isEnd, _⟩ | ⟨letter, rest, _, rfl, shape⟩ |
      ⟨name, value, rfl, shape⟩
  · exact (noValue alone).elim
  · exact (noEnd isEnd).elim
  · simp only [read, isOpen, Bool.false_eq_true, ↓reduceIte, shape]
    exact readCluster_eq_ok_iff
  · simp only [read, isOpen, Bool.false_eq_true, ↓reduceIte, shape]
    exact readLong_eq_ok_iff

/-!
## Reading all arguments
-/

/--
All arguments can be read after some others, and give what is named in the end.
-/
def Accepts
    (reading : Reading)
    (arguments : List Bytes)
    (given : Given) : Prop :=
  (arguments.foldlM read reading >>= finish) = .ok given

theorem accepts_nil
    {reading : Reading}
    {given : Given} :
    reading.Accepts [] given ↔ reading.finish = .ok given := Iff.rfl

theorem accepts_cons
    {reading : Reading}
    {argument : Bytes}
    {rest : List Bytes}
    {given : Given} :
    reading.Accepts (argument :: rest) given ↔
      ∃ next, reading.read argument = .ok next ∧ next.Accepts rest given := by
  rw [Accepts, List.foldlM_cons, bind_assoc, bind_eq_ok_iff]
  rfl

/-- Nothing may follow two dashes alone. -/
theorem accepts_of_closed
    {reading : Reading}
    {arguments : List Bytes}
    {given : Given}
    (closed : reading.closed = true) :
    reading.Accepts arguments given ↔
      arguments = [] ∧ reading.finish = .ok given := by
  cases arguments with
  | nil =>
      simp [accepts_nil]
  | cons argument rest =>
      simp [accepts_cons, read, closed, refuse]

/-- Nothing may follow two dashes alone. -/
theorem accepts_twoDashes
    {reading : Reading}
    {rest : List Bytes}
    {given : Given}
    (isOpen : reading.closed = false) :
    reading.Accepts (twoDashes :: rest) given ↔
      rest = [] ∧ reading.finish = .ok given := by
  simp only [accepts_cons, read_twoDashes isOpen, Except.ok.injEq,
    exists_eq_left']
  exact accepts_of_closed rfl

/--
Unless the next argument is a value, the setting that waits may be checked
before it.
-/
theorem accepts_cons_of_noValue
    {reading : Reading}
    {argument : Bytes}
    {rest : List Bytes}
    {given : Given}
    (noValue : ¬ StandsAlone argument)
    (isOpen : reading.closed = false) :
    reading.Accepts (argument :: rest) given ↔
      ∃ between,
        reading.finish = .ok between ∧
          Accepts { given := between } (argument :: rest) given := by
  by_cases isEnd : argument = twoDashes
  · subst isEnd
    simp [accepts_twoDashes isOpen, accepts_twoDashes, finish, and_comm]
  · simp only [accepts_cons, read_eq_ok_iff_of_switch noValue isEnd isOpen]
    constructor
    · rintro ⟨next, ⟨between, finished, reads⟩, accepted⟩
      exact ⟨between, finished, next, reads, accepted⟩
    · rintro ⟨between, finished, next, reads, accepted⟩
      exact ⟨next, ⟨between, finished, reads⟩, accepted⟩

/--
A setting that waits for a value takes the next argument, which must be able to
be one.
-/
theorem accepts_forValue
    {before given : Given}
    {setting : Setting}
    {arguments : List Bytes} :
    Accepts { given := before, waiting := .forValue setting } arguments given ↔
      ∃ value rest,
        arguments = value :: rest ∧ StandsAlone value ∧
          Accepts { given := before, waiting := .withValue setting value }
            rest given := by
  cases arguments with
  | nil =>
      simp [accepts_nil, finish, refuse]
  | cons argument rest =>
      by_cases alone : StandsAlone argument
      · simp [accepts_cons, read_eq_ok_iff_of_standsAlone alone, alone]
      · rw [accepts_cons_of_noValue alone rfl]
        simp [finish, refuse, alone]

/-- A setting that has its value may be checked before anything else is read. -/
theorem accepts_withValue
    {before given : Given}
    {setting : Setting}
    {value : Bytes}
    {arguments : List Bytes} :
    Accepts { given := before, waiting := .withValue setting value }
        arguments given ↔
      ∃ between,
        before.assign setting value = .ok between ∧
          Accepts { given := between } arguments given := by
  cases arguments with
  | nil =>
      simp [accepts_nil, finish]
  | cons argument rest =>
      by_cases alone : StandsAlone argument
      · simp [accepts_cons, read_eq_ok_iff_of_standsAlone alone]
      · exact accepts_cons_of_noValue alone rfl

/-- Whatever is mentioned by arguments of the grammar is given in turn. -/
theorem accepts_of_sentence
    {arguments : List Bytes}
    {mentions : List Mention}
    {before given : Given}
    (sentence : Sentence arguments mentions)
    (taken : before.takeAll mentions = .ok given) :
    Accepts { given := before } arguments given := by
  induction sentence generalizing before with
  | empty =>
      exact taken
  | closed =>
      exact (accepts_twoDashes rfl).mpr ⟨rfl, taken⟩
  | alone meaning others inductionHypothesis =>
      obtain ⟨between, takenFirst, takenRest⟩ :=
        Given.takeAll_append_eq_ok_iff.mp taken
      rw [accepts_cons, read_of_meaning meaning, takenFirst]
      exact ⟨_, rfl, inductionHypothesis takenRest⟩
  | withValue meaning alone others inductionHypothesis =>
      obtain ⟨between, takenFirst, takenRest⟩ :=
        Given.takeAll_append_eq_ok_iff.mp taken
      rw [Given.takeAll_cons, bind_eq_ok_iff] at takenRest
      obtain ⟨later, assigned, takenLater⟩ := takenRest
      rw [accepts_cons, read_of_meaning meaning, takenFirst]
      refine ⟨_, rfl, accepts_forValue.mpr ⟨_, _, rfl, alone, ?_⟩⟩
      exact accepts_withValue.mpr
        ⟨later, assigned, inductionHypothesis takenLater⟩

/-- Arguments that can be read are arguments of the grammar. -/
theorem sentence_of_accepts
    {arguments : List Bytes}
    {before given : Given}
    (accepted : Accepts { given := before } arguments given) :
    ∃ mentions,
      Sentence arguments mentions ∧ before.takeAll mentions = .ok given := by
  match arguments with
  | [] =>
      exact ⟨[], Sentence.empty, accepted⟩
  | argument :: rest =>
      obtain ⟨next, reads, acceptedRest⟩ := accepts_cons.mp accepted
      rcases meaning_of_read reads with rfl | ⟨said, owed, meaning⟩
      · obtain ⟨rfl, finished⟩ := (accepts_twoDashes rfl).mp accepted
        exact ⟨[], Sentence.closed, finished⟩
      rw [read_of_meaning meaning, map_eq_ok_iff] at reads
      obtain ⟨between, takenFirst, rfl⟩ := reads
      cases owed with
      | none =>
          obtain ⟨later, others, takenRest⟩ := sentence_of_accepts acceptedRest
          exact ⟨_, Sentence.alone meaning others,
            Given.takeAll_append_eq_ok_iff.mpr ⟨between, takenFirst, takenRest⟩⟩
      | some setting =>
          obtain ⟨value, rest, rfl, alone, acceptedValue⟩ :=
            accepts_forValue.mp acceptedRest
          obtain ⟨assignedTo, assigned, acceptedLater⟩ :=
            accepts_withValue.mp acceptedValue
          obtain ⟨later, others, takenRest⟩ := sentence_of_accepts acceptedLater
          refine ⟨_, Sentence.withValue meaning alone others,
            Given.takeAll_append_eq_ok_iff.mpr ⟨between, takenFirst, ?_⟩⟩
          rw [Given.takeAll_cons, bind_eq_ok_iff]
          exact ⟨assignedTo, assigned, takenRest⟩
termination_by arguments.length

end Reading

/--
Arguments stand for a job exactly if the grammar has them and they describe the
job.
-/
theorem readArguments_eq_ok_iff
    {arguments : List Bytes}
    {job : Job} :
    readArguments arguments = .ok job ↔
      ∃ mentions, Sentence arguments mentions ∧ Describes mentions job := by
  have accepted :
      readArguments arguments = .ok job ↔
        ∃ given, Reading.Accepts {} arguments given ∧ given.job = .ok job := by
    rw [readArguments, ← bind_assoc, bind_eq_ok_iff]
    rfl
  rw [accepted]
  constructor
  · rintro ⟨given, accepts, made⟩
    obtain ⟨mentions, sentence, taken⟩ := Reading.sentence_of_accepts accepts
    exact ⟨mentions, sentence,
      describes_iff.mpr ⟨given, Given.takeAll_eq_ok_iff.mp taken, made⟩⟩
  · rintro ⟨mentions, sentence, described⟩
    obtain ⟨given, recorded, made⟩ := describes_iff.mp described
    exact ⟨given,
      Reading.accepts_of_sentence sentence
        (Given.takeAll_eq_ok_iff.mpr recorded), made⟩

end StatementLexer.Command
