import Mathlib.Data.List.Basic
import Mathlib.Data.List.Forall2
import Mathlib.Data.List.Induction
import StatementLexer.Command.Arguments
import StatementLexer.Proofs.Decoding

namespace StatementLexer.Command

/-!
# What arguments mention

Arguments mention flags, and settings with their values.  Which job they
describe depends on these mentions only, and not on the forms in which they are
made.  This module says when mentions describe a job, and shows that giving the
switches one after the other, each of them checked as it is given, comes down to
that.
-/

/-- A switch that is given, with its value if it takes one. -/
inductive Mention where
  | flag (flag : Flag)
  | setting (setting : Setting) (value : Bytes)
  deriving Repr, DecidableEq

/-- The value of a mention of the given setting. -/
def Mention.valueFor?
    (wanted : Setting) :
    Mention → Option Bytes
  | .flag _ => none
  | .setting named value =>
      if named = wanted then
        some value
      else
        none

/-- The values that a setting is given, in their order. -/
def valuesFor
    (setting : Setting)
    (mentions : List Mention) : List Bytes :=
  mentions.filterMap (Mention.valueFor? setting)

/--
The small form of a byte; only the letters from `A` to `Z` have another one.
-/
def smallByte (byte : UInt8) : UInt8 :=
  if 0x41 ≤ byte ∧ byte ≤ 0x5A then
    byte + 0x20
  else
    byte

/--
A value names a format if it is the format's name, in small or capital letters.
-/
def Names
    (value : Bytes)
    (format : Format) : Prop :=
  value.map smallByte = Utf8.encode format.name

/-- Whether a job asks for what a flag stands for. -/
def Job.asksFor (job : Job) : Flag → Bool
  | .debug => job.debug
  | .keepLastWord => job.options.keepsLastWord
  | .dropEmptyWords => job.options.dropsEmptyWords

/--
Mentions describe a job.

The file is given once.  The format is given at most once and is the textual one
otherwise.  Each flag that the job asks for is given once, and no other one.
-/
structure Describes
    (mentions : List Mention)
    (job : Job) : Prop where
  filled :
    ∀ setting value, Mention.setting setting value ∈ mentions → value ≠ []
  file : valuesFor .file mentions = [job.file]
  format :
    valuesFor .output mentions = [] ∧ job.format = .text ∨
      ∃ value, valuesFor .output mentions = [value] ∧ Names value job.format
  flags :
    ∀ flag, mentions.count (.flag flag) = (job.asksFor flag).toNat

@[simp] theorem valuesFor_append
    (setting : Setting)
    (first second : List Mention) :
    valuesFor setting (first ++ second) =
      valuesFor setting first ++ valuesFor setting second :=
  List.filterMap_append

@[simp] theorem valuesFor_flag
    (setting : Setting)
    (flag : Flag) :
    valuesFor setting [.flag flag] = [] := rfl

@[simp] theorem valuesFor_setting
    (wanted setting : Setting)
    (value : Bytes) :
    valuesFor wanted [.setting setting value] =
      if setting = wanted then [value] else [] := by
  by_cases same : setting = wanted
  · simp [valuesFor, Mention.valueFor?, same]
  · simp [valuesFor, Mention.valueFor?, same]

theorem forall_flag_iff
    {motive : Flag → Prop} :
    (∀ flag, motive flag) ↔
      motive .debug ∧ motive .keepLastWord ∧ motive .dropEmptyWords := by
  constructor
  · intro all
    exact ⟨all .debug, all .keepLastWord, all .dropEmptyWords⟩
  · rintro ⟨debug, keepLastWord, dropEmptyWords⟩ flag
    cases flag <;> assumption

theorem bind_eq_ok_iff
    {ε α β : Type}
    {first : Except ε α}
    {next : α → Except ε β}
    {result : β} :
    (first >>= next) = .ok result ↔
      ∃ value, first = .ok value ∧ next value = .ok result := by
  cases first with
  | error fault =>
      simp [bind, Except.bind]
  | ok value =>
      simp [bind, Except.bind]

theorem map_eq_ok_iff
    {ε α β : Type}
    {first : Except ε α}
    {function : α → β}
    {result : β} :
    first.map function = .ok result ↔
      ∃ value, first = .ok value ∧ function value = result := by
  cases first with
  | error fault =>
      simp [Except.map]
  | ok value =>
      simp [Except.map]

/-!
## Names of formats
-/

set_option maxRecDepth 4000 in
/-- An ASCII letter is made small before or after it is read. -/
theorem toLower_charOfByte
    {byte : UInt8}
    (ascii : byte < 0x80) :
    (Char.ofNat byte.toNat).toLower = Char.ofNat (smallByte byte).toNat := by
  have all :
      ∀ number < 0x80,
        (Char.ofNat number).toLower =
          Char.ofNat (smallByte (UInt8.ofNat number)).toNat := by
    decide
  have small := all byte.toNat ascii
  rwa [UInt8.ofNat_toNat] at small

theorem smallByte_ascii_iff (byte : UInt8) :
    smallByte byte < 0x80 ↔ byte < 0x80 := by
  unfold smallByte
  split
  next capital =>
    simp only [UInt8.lt_iff_toNat_lt, UInt8.le_iff_toNat_le, UInt8.toNat_add,
      UInt8.reduceToNat] at capital ⊢
    omega
  next =>
    rfl

/-- Only ASCII characters have a small form that is one. -/
theorem ascii_of_toLower
    {character : Char}
    (ascii : character.toLower.toNat < 0x80) :
    character.toNat < 0x80 := by
  unfold Char.toLower at ascii
  split at ascii
  next capital =>
    have atMost : character.val ≤ 'Z'.val := capital.2
    have number : character.val.toNat ≤ 90 := atMost
    exact Nat.lt_of_le_of_lt number (by decide)
  next =>
    exact ascii

/-- ASCII bytes are made small before or after they are read. -/
theorem map_toLower_asciiCharacters
    {bytes : Bytes}
    (ascii : ∀ byte ∈ bytes, byte < 0x80) :
    (Utf8.asciiCharacters bytes).map Char.toLower =
      Utf8.asciiCharacters (bytes.map smallByte) := by
  simp only [Utf8.asciiCharacters, List.map_map, List.map_inj_left]
  intro byte member
  exact toLower_charOfByte (ascii byte member)

/-- A text is ASCII if all of its characters are. -/
theorem exists_asciiCharacters
    {characters : List Char}
    (ascii : ∀ character ∈ characters, character.toNat < 0x80) :
    ∃ bytes,
      (∀ byte ∈ bytes, byte < 0x80) ∧
        Utf8.asciiCharacters bytes = characters := by
  refine ⟨characters.map fun character => UInt8.ofNat character.toNat, ?_, ?_⟩
  · intro byte member
    obtain ⟨character, isThere, rfl⟩ := List.mem_map.mp member
    have small := ascii character isThere
    simp only [UInt8.lt_iff_toNat_lt, UInt8.toNat_ofNat', UInt8.reduceToNat]
    omega
  · simp only [Utf8.asciiCharacters, List.map_map]
    refine (List.map_congr_left ?_).trans (List.map_id characters)
    intro character member
    have small := ascii character member
    have kept : character.toNat % 2 ^ 8 = character.toNat := by omega
    simp only [Function.comp_apply, UInt8.toNat_ofNat', kept, Char.ofNat_toNat,
      id_eq]

/--
Up to the case of letters, an ASCII text is read from its own bytes and from no
others.  Either side makes all bytes ASCII, and then both say the same byte by
byte.
-/
theorem map_toLower_decodeFrom_iff
    {spelling : Bytes}
    (ascii : ∀ byte ∈ spelling, byte < 0x80)
    (bytes : Bytes) :
    (Utf8.decodeFrom none bytes).map Char.toLower =
        Utf8.asciiCharacters spelling ↔
      bytes.map smallByte = spelling := by
  have onAscii
      (bytesAscii : ∀ byte ∈ bytes, byte < 0x80) :
      (Utf8.decodeFrom none bytes).map Char.toLower =
          Utf8.asciiCharacters spelling ↔
        bytes.map smallByte = spelling := by
    have read : Utf8.decodeFrom none bytes = Utf8.asciiCharacters bytes :=
      (Utf8.decodeFrom_eq_asciiCharacters_iff bytesAscii bytes).mpr rfl
    have smallAscii : ∀ byte ∈ bytes.map smallByte, byte < 0x80 := by
      intro byte member
      obtain ⟨original, isThere, rfl⟩ := List.mem_map.mp member
      exact (smallByte_ascii_iff original).mpr (bytesAscii original isThere)
    have readSmall :=
      (Utf8.decodeFrom_eq_asciiCharacters_iff smallAscii
        (bytes.map smallByte)).mpr rfl
    rw [read, map_toLower_asciiCharacters bytesAscii, ← readSmall]
    exact Utf8.decodeFrom_eq_asciiCharacters_iff ascii (bytes.map smallByte)
  constructor
  · intro same
    have charactersAscii :
        ∀ character ∈ Utf8.decodeFrom none bytes, character.toNat < 0x80 := by
      intro character member
      apply ascii_of_toLower
      have inSpelling : character.toLower ∈ Utf8.asciiCharacters spelling := by
        rw [← same]
        exact List.mem_map_of_mem member
      obtain ⟨byte, isThere, shape⟩ := List.mem_map.mp inSpelling
      rw [← shape, Utf8.toNat_charOfByte (ascii byte isThere)]
      exact ascii byte isThere
    obtain ⟨own, ownAscii, read⟩ := exists_asciiCharacters charactersAscii
    have isOwn : bytes = own :=
      (Utf8.decodeFrom_eq_asciiCharacters_iff ownAscii bytes).mp read.symm
    exact (onAscii (isOwn ▸ ownAscii)).mp same
  · intro same
    have bytesAscii : ∀ byte ∈ bytes, byte < 0x80 := by
      intro byte member
      apply (smallByte_ascii_iff byte).mp
      apply ascii
      rw [← same]
      exact List.mem_map_of_mem member
    exact (onAscii bytesAscii).mpr same

set_option maxRecDepth 2000 in
theorem ascii_encode_name (format : Format) :
    ∀ byte ∈ Utf8.encode format.name, byte < 0x80 := by
  cases format <;> decide

/-- A value is taken for a format exactly if it names that format. -/
theorem ofName?_decode_eq_some_iff
    (value : Bytes)
    (format : Format) :
    Format.ofName? true (Utf8.decode value) = some format ↔
      Names value format := by
  have spelled :
      format.name =
        String.ofList (Utf8.asciiCharacters (Utf8.encode format.name)) := by
    cases format <;> decide
  have ascii := ascii_encode_name format
  have found :
      Format.ofName? true (Utf8.decode value) = some format ↔
        format.name = Format.lowercase (Utf8.decode value) := by
    constructor
    · intro isFormat
      simpa using List.find?_some isFormat
    · intro isName
      simp only [Format.ofName?, ↓reduceIte, ← isName]
      cases format <;> simp [Format.all, Format.name]
  rw [found, Names, ← map_toLower_decodeFrom_iff ascii, eq_comm, spelled,
    Format.lowercase, Utf8.decode, String.toList_ofList, String.ofList_inj,
    ← spelled]

/-!
## Giving one switch after the other
-/

namespace Given

/-- Takes one mention in, as long as the switch may still be given. -/
def take (given : Given) : Mention → Except Halt Given
  | .flag flag => given.turnOn flag
  | .setting setting value => given.assign setting value

/-- Takes mentions in from left to right. -/
def takeAll
    (given : Given)
    (mentions : List Mention) : Except Halt Given :=
  mentions.foldlM take given

@[simp] theorem takeAll_nil (given : Given) :
    given.takeAll [] = .ok given := rfl

theorem takeAll_cons
    (given : Given)
    (mention : Mention)
    (later : List Mention) :
    given.takeAll (mention :: later) =
      given.take mention >>= fun next => next.takeAll later :=
  List.foldlM_cons

theorem takeAll_singleton
    (given : Given)
    (mention : Mention) :
    given.takeAll [mention] = given.take mention := by
  simp [takeAll]

theorem takeAll_append_eq_ok_iff
    {given after : Given}
    {first second : List Mention} :
    given.takeAll (first ++ second) = .ok after ↔
      ∃ between,
        given.takeAll first = .ok between ∧
          between.takeAll second = .ok after := by
  simp only [takeAll, List.foldlM_append, bind_eq_ok_iff]

/-- The latest mention can be seen in what has been given. -/
def Shows (given : Given) : Mention → Prop
  | .flag flag => given.has (.flag flag) = true
  | .setting .file value => given.file = some value ∧ value ≠ []
  | .setting .output value =>
      (∃ format, given.output = some format ∧ Names value format) ∧ value ≠ []

/-- What had been given before a mention. -/
def without (given : Given) : Mention → Given
  | .flag .debug => { given with debug := false }
  | .flag .keepLastWord => { given with keepsLastWord := false }
  | .flag .dropEmptyWords => { given with dropsEmptyWords := false }
  | .setting .file _ => { given with file := none }
  | .setting .output _ => { given with output := none }

/-- A flag can be turned on if it was off, and is all that changes. -/
theorem turnOn_eq_ok_iff
    {before given : Given}
    {flag : Flag} :
    before.turnOn flag = .ok given ↔
      given.Shows (.flag flag) ∧ before = given.without (.flag flag) := by
  obtain ⟨debug, keepsLastWord, dropsEmptyWords, file, output⟩ := before
  obtain ⟨_, _, _, _, _⟩ := given
  cases flag with
  | debug =>
      cases debug <;> simp [turnOn, has, refuse, Shows, without, eq_comm]
  | keepLastWord =>
      cases keepsLastWord <;>
        simp [turnOn, has, refuse, Shows, without, eq_comm, and_left_comm]
  | dropEmptyWords =>
      cases dropsEmptyWords <;>
        simp [turnOn, has, refuse, Shows, without, eq_comm, and_left_comm]

/-- A setting can be given if it was not, and is all that changes. -/
theorem assign_eq_ok_iff
    {before given : Given}
    {setting : Setting}
    {value : Bytes} :
    before.assign setting value = .ok given ↔
      given.Shows (.setting setting value) ∧
        before = given.without (.setting setting value) := by
  obtain ⟨debug, keepsLastWord, dropsEmptyWords, file, output⟩ := before
  obtain ⟨_, _, _, _, _⟩ := given
  by_cases empty : value = []
  · cases setting with
    | file =>
        cases file <;> simp [assign, has, refuse, Shows, empty]
    | output =>
        cases output <;> simp [assign, has, refuse, Shows, empty]
  · cases setting with
    | file =>
        cases file <;>
          simp [assign, has, refuse, Shows, without, empty, eq_comm,
            and_left_comm]
    | output =>
        simp only [Shows, without, ← ofName?_decode_eq_some_iff]
        cases named : Format.ofName? true (Utf8.decode value) <;>
          cases output <;>
          simp [assign, has, refuse, empty, named, eq_comm, and_comm, and_assoc]

/--
A mention is taken in if it can be seen afterwards and is all that has been
added.
-/
theorem take_eq_ok_iff
    {before given : Given}
    {mention : Mention} :
    before.take mention = .ok given ↔
      given.Shows mention ∧ before = given.without mention := by
  cases mention with
  | flag flag =>
      exact turnOn_eq_ok_iff
  | setting setting value =>
      exact assign_eq_ok_iff

/-- What has been given is what has been mentioned. -/
@[mk_iff]
structure Records
    (given : Given)
    (mentions : List Mention) : Prop where
  filled :
    ∀ setting value, Mention.setting setting value ∈ mentions → value ≠ []
  file : valuesFor .file mentions = given.file.toList
  output : List.Forall₂ Names (valuesFor .output mentions) given.output.toList
  flags :
    ∀ flag, mentions.count (.flag flag) = (given.has (.flag flag)).toNat

theorem records_nil_iff (given : Given) :
    given.Records [] ↔ given = {} := by
  obtain ⟨debug, keepsLastWord, dropsEmptyWords, file, output⟩ := given
  cases file <;> cases output <;>
    simp [records_iff, valuesFor, forall_flag_iff, has, eq_comm]

/--
One more mention is recorded if it can be seen and was not recorded before.
-/
theorem records_append_singleton_iff
    {given : Given}
    {earlier : List Mention}
    {mention : Mention} :
    given.Records (earlier ++ [mention]) ↔
      given.Shows mention ∧ (given.without mention).Records earlier := by
  obtain ⟨debug, keepsLastWord, dropsEmptyWords, file, output⟩ := given
  cases mention with
  | flag flag =>
      cases flag with
      | debug =>
          cases debug <;>
            simp [records_iff, forall_flag_iff, has, without, Shows,
              List.count_append]
      | keepLastWord =>
          cases keepsLastWord <;>
            simp [records_iff, forall_flag_iff, has, without, Shows,
              List.count_append]
      | dropEmptyWords =>
          cases dropsEmptyWords <;>
            simp [records_iff, forall_flag_iff, has, without, Shows,
              List.count_append]
  | setting setting value =>
      have filled :
          (∀ other text,
              Mention.setting other text ∈ earlier ++ [.setting setting value] →
                text ≠ []) ↔
            (∀ other text, Mention.setting other text ∈ earlier → text ≠ []) ∧
              value ≠ [] := by
        simp [or_imp, forall_and]
      cases setting with
      | file =>
          have last :
              valuesFor .file earlier ++ [value] = file.toList ↔
                file = some value ∧ valuesFor .file earlier = [] := by
            rw [eq_comm (a := file)]
            cases valuesFor .file earlier <;> cases file <;> simp
          simp only [records_iff, filled, valuesFor_append, valuesFor_setting,
            ↓reduceIte, last]
          simp [forall_flag_iff, has, without, Shows, List.count_append,
            and_assoc, and_left_comm]
      | output =>
          have last :
              List.Forall₂ Names (valuesFor .output earlier ++ [value])
                  output.toList ↔
                (∃ format, output = some format ∧ Names value format) ∧
                  valuesFor .output earlier = [] := by
            cases valuesFor .output earlier <;> cases output <;> simp
          simp only [records_iff, filled, valuesFor_append, valuesFor_setting,
            ↓reduceIte, last]
          simp [forall_flag_iff, has, without, Shows, List.count_append,
            and_assoc, and_left_comm]

/--
Mentions can be taken in one after the other if what is given in the end records
them.
-/
theorem takeAll_eq_ok_iff
    {given : Given}
    {mentions : List Mention} :
    Given.takeAll {} mentions = .ok given ↔ given.Records mentions := by
  induction mentions using List.reverseRecOn generalizing given with
  | nil =>
      rw [records_nil_iff, takeAll_nil, Except.ok.injEq, eq_comm]
  | append_singleton earlier mention inductionHypothesis =>
      rw [takeAll_append_eq_ok_iff, records_append_singleton_iff]
      simp only [takeAll_singleton, take_eq_ok_iff]
      constructor
      · rintro ⟨before, taken, shows, rfl⟩
        exact ⟨shows, inductionHypothesis.mp taken⟩
      · rintro ⟨shows, recorded⟩
        exact ⟨_, inductionHypothesis.mpr recorded, shows, rfl⟩

end Given

/-- Mentions describe a job if it is the job that what they give stands for. -/
theorem describes_iff
    {mentions : List Mention}
    {job : Job} :
    Describes mentions job ↔
      ∃ given : Given, given.Records mentions ∧ given.job = .ok job := by
  constructor
  · rintro ⟨filled, file, format, flags⟩
    let given : Given :=
      { debug := job.debug
        keepsLastWord := job.options.keepsLastWord
        dropsEmptyWords := job.options.dropsEmptyWords
        file := some job.file }
    have flagsGiven
        (output : Option Format) :
        ∀ flag,
          mentions.count (.flag flag) =
            (Given.has { given with output := output } (.flag flag)).toNat := by
      rw [forall_flag_iff] at flags ⊢
      exact flags
    rcases format with ⟨noFormat, isText⟩ | ⟨value, oneFormat, named⟩
    · refine ⟨given, ⟨filled, file, ?_, flagsGiven none⟩, ?_⟩
      · rw [noFormat]
        exact List.Forall₂.nil
      · simp [given, Given.job, ← isText]
    · refine ⟨{ given with output := some job.format },
        ⟨filled, file, ?_, flagsGiven (some job.format)⟩, ?_⟩
      · rw [oneFormat]
        exact List.Forall₂.cons named List.Forall₂.nil
      · simp [given, Given.job]
  · rintro ⟨⟨debug, keepsLastWord, dropsEmptyWords, file, output⟩,
      ⟨filled, fileValues, outputValues, flags⟩, made⟩
    cases file with
    | none =>
        simp [Given.job, refuse] at made
    | some file =>
        simp only [Given.job, Except.ok.injEq] at made
        subst made
        refine ⟨filled, fileValues, ?_, ?_⟩
        · cases output with
          | none =>
              exact Or.inl ⟨by simpa using outputValues, rfl⟩
          | some format =>
              right
              simpa [List.forall₂_cons_right_iff, and_comm] using outputValues
        · rw [forall_flag_iff] at flags ⊢
          exact flags

end StatementLexer.Command
