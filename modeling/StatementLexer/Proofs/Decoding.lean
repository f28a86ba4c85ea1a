import Mathlib.Algebra.Group.Nat.Defs
import StatementLexer.Text.Utf8

namespace StatementLexer.Utf8

/-!
# How reading treats ASCII

Reading bytes as text replaces what forms no character, and what is read may
then be cut at a space or a newline.  That this can just as well be done on the
bytes rests on two facts.  A byte below `0x80` always stands for its own
character, whatever comes before it, and no other byte ever takes part in such a
character.  The second one holds because a character that takes several bytes is
never among the first 128, which is what the bounds on its bytes are for.
-/

/-- A number that is one of a character is the number of its character. -/
theorem toNat_charOfNat
    {number : Nat}
    (valid : number.isValidChar) :
    (Char.ofNat number).toNat = number := by
  rw [Char.ofNat, dif_pos valid]
  rfl

/-- A byte within ASCII has the number of the character that it stands for. -/
theorem toNat_charOfByte
    {byte : UInt8}
    (ascii : byte < 0x80) :
    (Char.ofNat byte.toNat).toNat = byte.toNat := by
  simp only [UInt8.lt_iff_toNat_lt, UInt8.reduceToNat] at ascii
  exact toNat_charOfNat (Or.inl (by omega))

namespace Unfinished

/-- The least number that the character can still turn out to have. -/
def least (unfinished : Unfinished) : Nat :=
  (unfinished.bits * 64 + (unfinished.low.toNat - 0x80)) * 64 ^ unfinished.after

/-- The number that all numbers are below that the character can still have. -/
def limit (unfinished : Unfinished) : Nat :=
  (unfinished.bits * 64 + (unfinished.high.toNat - 0x80) + 1) *
    64 ^ unfinished.after

/-- Whatever bytes complete it, an unfinished character is one beyond ASCII. -/
structure Sound (unfinished : Unfinished) : Prop where
  lowBound : 0x80 ≤ unfinished.low.toNat
  beyondAscii : 0x80 ≤ unfinished.least
  scalar :
    unfinished.limit ≤ 0xD800 ∨
      0xE000 ≤ unfinished.least ∧ unfinished.limit ≤ 0x110000

/--
A number that an unfinished character can still have is that of a character.
-/
theorem Sound.isValidChar
    {unfinished : Unfinished}
    (sound : unfinished.Sound)
    {number : Nat}
    (atLeast : unfinished.least ≤ number)
    (below : number < unfinished.limit) :
    number.isValidChar := by
  rcases sound.scalar with beforeSurrogates | ⟨afterSurrogates, inRange⟩
  · exact Or.inl (by omega)
  · exact Or.inr ⟨by omega, by omega⟩

/-- A first byte of two leaves numbers beyond ASCII only. -/
theorem sound_ofTwo
    {byte : UInt8}
    (atLeast : 0xC2 ≤ byte.toNat)
    (below : byte.toNat < 0xE0) :
    Sound ⟨0x80, 0xBF, 0, byte.toNat - 0xC0⟩ := by
  refine ⟨Nat.le_refl _, ?beyond, Or.inl ?scalar⟩
  case beyond =>
    simp only [least, UInt8.reduceToNat]
    omega
  case scalar =>
    simp only [limit, UInt8.reduceToNat]
    omega

/--
A first byte of three leaves no numbers that need fewer bytes, for which `0xE0`
narrows the second byte, and no surrogates, for which `0xED` does.
-/
theorem sound_ofThree
    {byte : UInt8}
    (atLeast : 0xE0 ≤ byte.toNat)
    (below : byte.toNat < 0xF0) :
    Sound ⟨if byte = 0xE0 then 0xA0 else 0x80,
      if byte = 0xED then 0x9F else 0xBF, 1, byte.toNat - 0xE0⟩ := by
  by_cases shortest : byte = 0xE0
  · subst shortest
    exact ⟨by decide, by decide, Or.inl (by decide)⟩
  by_cases surrogate : byte = 0xED
  · subst surrogate
    exact ⟨by decide, by decide, Or.inl (by decide)⟩
  rw [if_neg shortest, if_neg surrogate]
  simp only [← UInt8.toNat_inj, UInt8.reduceToNat] at shortest surrogate
  refine ⟨Nat.le_refl _, ?beyond, ?scalar⟩
  case beyond =>
    simp only [least, UInt8.reduceToNat]
    omega
  case scalar =>
    simp only [least, limit, UInt8.reduceToNat]
    omega

/--
A first byte of four leaves no numbers that need fewer bytes, for which `0xF0`
narrows the second byte, and none beyond the last character, for which `0xF4`
does.
-/
theorem sound_ofFour
    {byte : UInt8}
    (atLeast : 0xF0 ≤ byte.toNat)
    (below : byte.toNat < 0xF5) :
    Sound ⟨if byte = 0xF0 then 0x90 else 0x80,
      if byte = 0xF4 then 0x8F else 0xBF, 2, byte.toNat - 0xF0⟩ := by
  by_cases shortest : byte = 0xF0
  · subst shortest
    exact ⟨by decide, by decide, Or.inr (by decide)⟩
  by_cases last : byte = 0xF4
  · subst last
    exact ⟨by decide, by decide, Or.inr (by decide)⟩
  rw [if_neg shortest, if_neg last]
  simp only [← UInt8.toNat_inj, UInt8.reduceToNat] at shortest last
  refine ⟨Nat.le_refl _, ?beyond, Or.inr ⟨?above, ?within⟩⟩
  case beyond | above =>
    simp only [least, UInt8.reduceToNat]
    omega
  case within =>
    simp only [limit, UInt8.reduceToNat]
    omega

end Unfinished

/-- A byte that begins a character of several bytes begins one beyond ASCII. -/
theorem begin?_sound
    {byte : UInt8}
    {unfinished : Unfinished}
    (begun : begin? byte = some (.more unfinished)) :
    unfinished.Sound := by
  by_cases ascii : byte < 0x80
  · simp [begin?, ascii] at begun
  by_cases continuing : byte < 0xC2
  · simp [begin?, ascii, continuing] at begun
  by_cases ofTwo : byte < 0xE0
  · obtain rfl : _ = unfinished := by
      simpa [begin?, ascii, continuing, ofTwo] using begun
    exact Unfinished.sound_ofTwo (UInt8.not_lt.mp continuing) ofTwo
  by_cases ofThree : byte < 0xF0
  · obtain rfl : _ = unfinished := by
      simpa [begin?, ascii, continuing, ofTwo, ofThree] using begun
    exact Unfinished.sound_ofThree (UInt8.not_lt.mp ofTwo) ofThree
  by_cases ofFour : byte < 0xF5
  · obtain rfl : _ = unfinished := by
      simpa [begin?, ascii, continuing, ofTwo, ofThree, ofFour] using begun
    exact Unfinished.sound_ofFour (UInt8.not_lt.mp ofThree) ofFour
  · simp [begin?, ascii, continuing, ofTwo, ofThree, ofFour] at begun

namespace Unfinished

/-- A byte that can come next keeps the number within its bounds. -/
theorem spelled_bounds
    {unfinished : Unfinished}
    {byte : UInt8}
    (fits : unfinished.low ≤ byte ∧ byte ≤ unfinished.high) :
    unfinished.least ≤
        (unfinished.bits * 64 + (byte.toNat - 0x80)) * 64 ^ unfinished.after ∧
      (unfinished.bits * 64 + (byte.toNat - 0x80) + 1) * 64 ^ unfinished.after ≤
        unfinished.limit := by
  simp only [UInt8.le_iff_toNat_le] at fits
  constructor
  · apply Nat.mul_le_mul_right
    omega
  · apply Nat.mul_le_mul_right
    omega

/--
A character that one more byte leaves unfinished is still one beyond ASCII.
-/
theorem extend?_sound
    {unfinished next : Unfinished}
    {byte : UInt8}
    (sound : unfinished.Sound)
    (extended : unfinished.extend? byte = some (.more next)) :
    next.Sound := by
  unfold extend? at extended
  split at extended
  next fits =>
    obtain ⟨atLeast, atMost⟩ := spelled_bounds fits
    obtain ⟨low, high, after, bits⟩ := unfinished
    cases after with
    | zero =>
        simp at extended
    | succ after =>
        simp only [Option.some.injEq, Progress.more.injEq] at extended
        subst extended
        have leastSame :
            least ⟨0x80, 0xBF, after, bits * 64 + (byte.toNat - 0x80)⟩ =
              (bits * 64 + (byte.toNat - 0x80)) * 64 ^ (after + 1) := by
          simp [least, Nat.pow_succ, Nat.mul_assoc, Nat.mul_comm 64]
        have limitSame :
            limit ⟨0x80, 0xBF, after, bits * 64 + (byte.toNat - 0x80)⟩ =
              (bits * 64 + (byte.toNat - 0x80) + 1) * 64 ^ (after + 1) := by
          simp only [limit, UInt8.reduceToNat, Nat.reduceSub, Nat.pow_succ,
            Nat.mul_comm _ 64, ← Nat.mul_assoc]
          congr 1
        have beyond := sound.beyondAscii
        have scalar := sound.scalar
        constructor
        · simp
        · rw [leastSame]
          exact Nat.le_trans beyond atLeast
        · rw [leastSame, limitSame]
          rcases scalar with beforeSurrogates | ⟨afterSurrogates, inRange⟩
          · exact Or.inl (Nat.le_trans atMost beforeSurrogates)
          · exact Or.inr ⟨Nat.le_trans afterSurrogates atLeast,
              Nat.le_trans atMost inRange⟩
  next =>
    simp at extended

/-- A character that takes several bytes is never within ASCII. -/
theorem extend?_complete
    {unfinished : Unfinished}
    {byte : UInt8}
    {character : Char}
    (sound : unfinished.Sound)
    (extended : unfinished.extend? byte = some (.complete character)) :
    0x80 ≤ character.toNat := by
  unfold extend? at extended
  split at extended
  next fits =>
    obtain ⟨atLeast, atMost⟩ := spelled_bounds fits
    obtain ⟨low, high, after, bits⟩ := unfinished
    cases after with
    | zero =>
        simp only [Option.some.injEq, Progress.complete.injEq] at extended
        simp only [Nat.pow_zero, Nat.mul_one] at atLeast atMost
        have valid := sound.isValidChar atLeast atMost
        rw [← extended, toNat_charOfNat valid]
        exact Nat.le_trans sound.beyondAscii atLeast
    | succ after =>
        simp at extended
  next =>
    simp at extended

/-- No byte below `0x80` carries a character on. -/
theorem extend?_ascii
    {unfinished : Unfinished}
    {byte : UInt8}
    (sound : unfinished.Sound)
    (ascii : byte < 0x80) :
    unfinished.extend? byte = none := by
  have misses : ¬ (unfinished.low ≤ byte ∧ byte ≤ unfinished.high) := by
    have lowBound := sound.lowBound
    simp only [UInt8.lt_iff_toNat_lt, UInt8.le_iff_toNat_le,
      UInt8.reduceToNat] at ascii ⊢
    omega
  simp [extend?, misses]

end Unfinished

/-- Only a byte within ASCII is a character by itself. -/
theorem begin?_complete
    {byte : UInt8}
    {character : Char}
    (begun : begin? byte = some (.complete character)) :
    byte < 0x80 ∧ character = Char.ofNat byte.toNat := by
  unfold begin? at begun
  split at begun
  next ascii =>
    simp only [Option.some.injEq, Progress.complete.injEq] at begun
    exact ⟨ascii, begun.symm⟩
  next =>
    split at begun
    · simp at begun
    split at begun
    · simp at begun
    split at begun
    · simp at begun
    split at begun
    · simp at begun
    · simp at begun

/-- The unfinished character of a state, if there is one, is beyond ASCII. -/
def SoundState (state : Option Unfinished) : Prop :=
  ∀ unfinished ∈ state, unfinished.Sound

theorem soundState_none : SoundState none := by
  simp [SoundState]

theorem replacement_beyondAscii : ¬ replacement.toNat < 0x80 := by
  decide

/-- A byte within ASCII is read as its character. -/
theorem beginStep_ascii
    {byte : UInt8}
    (ascii : byte < 0x80) :
    beginStep byte = ([Char.ofNat byte.toNat], none) := by
  simp [beginStep, begin?, ascii]

theorem soundState_beginStep (byte : UInt8) :
    SoundState (beginStep byte).2 := by
  unfold beginStep
  split
  next =>
    exact soundState_none
  next unfinished begun =>
    intro other same
    cases same
    exact begin?_sound begun
  next =>
    exact soundState_none

/-- A byte that is read afresh gives no ASCII character but its own. -/
theorem mem_beginStep
    {byte : UInt8}
    {character : Char}
    (member : character ∈ (beginStep byte).1)
    (ascii : character.toNat < 0x80) :
    byte < 0x80 ∧ character = Char.ofNat byte.toNat := by
  unfold beginStep at member
  split at member
  next completed begun =>
    rw [List.mem_singleton] at member
    subst member
    exact begin?_complete begun
  next =>
    simp at member
  next =>
    rw [List.mem_singleton] at member
    subst member
    exact (replacement_beyondAscii ascii).elim

/-- After any byte, an unfinished character is beyond ASCII. -/
theorem soundState_step
    {state : Option Unfinished}
    (sound : SoundState state)
    (byte : UInt8) :
    SoundState (step state byte).2 := by
  cases state with
  | none =>
      exact soundState_beginStep byte
  | some unfinished =>
      unfold step
      simp only
      split
      next =>
        exact soundState_none
      next next extended =>
        intro other same
        cases same
        exact Unfinished.extend?_sound (sound unfinished rfl) extended
      next =>
        exact soundState_beginStep byte

/-- An ASCII character that a byte gives is that byte. -/
theorem mem_step
    {state : Option Unfinished}
    {byte : UInt8}
    {character : Char}
    (sound : SoundState state)
    (member : character ∈ (step state byte).1)
    (ascii : character.toNat < 0x80) :
    byte < 0x80 ∧ character = Char.ofNat byte.toNat := by
  cases state with
  | none =>
      exact mem_beginStep member ascii
  | some unfinished =>
      unfold step at member
      simp only at member
      split at member
      next completed extended =>
        rw [List.mem_singleton] at member
        subst member
        have beyond :=
          Unfinished.extend?_complete (sound unfinished rfl) extended
        omega
      next =>
        simp at member
      next =>
        rcases List.mem_cons.mp member with isReplacement | inRest
        · subst isReplacement
          exact (replacement_beyondAscii ascii).elim
        · exact mem_beginStep inRest ascii

/--
A byte below `0x80` ends the unfinished character, if there is one, and is its
own.
-/
theorem step_ascii
    {state : Option Unfinished}
    {byte : UInt8}
    (sound : SoundState state)
    (ascii : byte < 0x80) :
    step state byte =
      (decodeFrom state [] ++ [Char.ofNat byte.toNat], none) := by
  cases state with
  | none =>
      exact beginStep_ascii ascii
  | some unfinished =>
      have refused := Unfinished.extend?_ascii (sound unfinished rfl) ascii
      simp [step, refused, beginStep_ascii ascii, decodeFrom]

/--
The characters that are certain after several bytes, and the one still
unfinished.
-/
def readFrom (state : Option Unfinished) : Bytes → Step
  | [] => ([], state)
  | byte :: rest =>
      let later := readFrom (step state byte).2 rest
      ((step state byte).1 ++ later.1, later.2)

theorem soundState_readFrom
    {state : Option Unfinished}
    (sound : SoundState state)
    (bytes : Bytes) :
    SoundState (readFrom state bytes).2 := by
  induction bytes generalizing state with
  | nil =>
      exact sound
  | cons byte rest inductionHypothesis =>
      exact inductionHypothesis (soundState_step sound byte)

/-- Reading can be interrupted after any bytes and taken up again. -/
theorem decodeFrom_append
    (state : Option Unfinished)
    (first second : Bytes) :
    decodeFrom state (first ++ second) =
      (readFrom state first).1 ++
        decodeFrom (readFrom state first).2 second := by
  induction first generalizing state with
  | nil =>
      rfl
  | cons byte rest inductionHypothesis =>
      simp only [List.cons_append, decodeFrom, readFrom, List.append_assoc]
      rw [inductionHypothesis]

/--
What is certain after some bytes, and a replacement if they end within a
character.
-/
theorem decodeFrom_eq_readFrom
    (state : Option Unfinished)
    (bytes : Bytes) :
    decodeFrom state bytes =
      (readFrom state bytes).1 ++ decodeFrom (readFrom state bytes).2 [] := by
  have whole := decodeFrom_append state bytes []
  rwa [List.append_nil] at whole

/--
A byte below `0x80` parts what is read before it from what is read after it.
-/
theorem decodeFrom_append_ascii
    {state : Option Unfinished}
    {byte : UInt8}
    (sound : SoundState state)
    (ascii : byte < 0x80)
    (first second : Bytes) :
    decodeFrom state (first ++ byte :: second) =
      decodeFrom state first ++
        Char.ofNat byte.toNat :: decodeFrom none second := by
  have soundAfter := soundState_readFrom sound first
  rw [decodeFrom_append, decodeFrom_eq_readFrom state first, decodeFrom,
    step_ascii soundAfter ascii]
  simp

/-- An unfinished character is completed or replaced, and never lost. -/
theorem decodeFrom_some_ne_nil
    (unfinished : Unfinished)
    (bytes : Bytes) :
    decodeFrom (some unfinished) bytes ≠ [] := by
  induction bytes generalizing unfinished with
  | nil =>
      simp [decodeFrom]
  | cons byte rest inductionHypothesis =>
      unfold decodeFrom step
      simp only
      split
      next =>
        simp
      next next extended =>
        exact inductionHypothesis next
      next =>
        simp

/-- No bytes but none at all are read as the empty text. -/
theorem decodeFrom_none_eq_nil_iff (bytes : Bytes) :
    decodeFrom none bytes = [] ↔ bytes = [] := by
  cases bytes with
  | nil =>
      simp [decodeFrom]
  | cons byte rest =>
      unfold decodeFrom step beginStep
      simp only [reduceCtorEq, iff_false]
      split
      next =>
        simp
      next unfinished begun =>
        exact decodeFrom_some_ne_nil unfinished rest
      next =>
        simp

/-- A byte other than the given one does not give its character. -/
theorem charOfByte_not_mem_step
    {state : Option Unfinished}
    {byte mark : UInt8}
    (sound : SoundState state)
    (ascii : mark < 0x80)
    (differs : byte ≠ mark) :
    Char.ofNat mark.toNat ∉ (step state byte).1 := by
  intro member
  have markNumber := toNat_charOfByte ascii
  have markAscii : (Char.ofNat mark.toNat).toNat < 0x80 := by
    rw [markNumber]
    exact ascii
  obtain ⟨byteAscii, same⟩ := mem_step sound member markAscii
  have sameNumber := congrArg Char.toNat same
  rw [markNumber, toNat_charOfByte byteAscii] at sameNumber
  exact differs (UInt8.toNat_inj.mp sameNumber.symm)

/-- What is replaced at the end is not within ASCII. -/
theorem charOfByte_not_mem_decodeFrom_nil
    (state : Option Unfinished)
    {mark : UInt8}
    (ascii : mark < 0x80) :
    Char.ofNat mark.toNat ∉ decodeFrom state [] := by
  cases state with
  | none =>
      simp [decodeFrom]
  | some unfinished =>
      intro member
      simp only [decodeFrom, List.mem_singleton] at member
      apply replacement_beyondAscii
      rw [← member, toNat_charOfByte ascii]
      exact ascii

/-- Bytes without the given one do not spell its character. -/
theorem charOfByte_not_mem_decodeFrom
    {state : Option Unfinished}
    {mark : UInt8}
    {bytes : Bytes}
    (sound : SoundState state)
    (ascii : mark < 0x80)
    (absent : mark ∉ bytes) :
    Char.ofNat mark.toNat ∉ decodeFrom state bytes := by
  induction bytes generalizing state with
  | nil =>
      exact charOfByte_not_mem_decodeFrom_nil state ascii
  | cons byte rest inductionHypothesis =>
      rw [List.mem_cons, not_or] at absent
      obtain ⟨differs, absentInRest⟩ := absent
      have notNow := charOfByte_not_mem_step sound ascii (Ne.symm differs)
      have notLater :=
        inductionHypothesis (soundState_step sound byte) absentInRest
      rw [decodeFrom, List.mem_append, not_or]
      exact ⟨notNow, notLater⟩

/--
A text does not end in an ASCII character if its last byte is another one.  That
byte adds at least one character, and none that it adds is the mark.
-/
theorem getLast?_decodeFrom_ne
    {state : Option Unfinished}
    {byte mark : UInt8}
    (sound : SoundState state)
    (ascii : mark < 0x80)
    (differs : byte ≠ mark)
    (earlier : Bytes) :
    (decodeFrom state (earlier ++ [byte])).getLast? ≠
      some (Char.ofNat mark.toNat) := by
  have soundAfter := soundState_readFrom sound earlier
  rw [decodeFrom_append]
  generalize (readFrom state earlier).2 = before at soundAfter
  have absent : Char.ofNat mark.toNat ∉ decodeFrom before [byte] := by
    simp only [decodeFrom, List.mem_append, not_or]
    exact ⟨charOfByte_not_mem_step soundAfter ascii differs,
      charOfByte_not_mem_decodeFrom_nil _ ascii⟩
  have nonempty : decodeFrom before [byte] ≠ [] := by
    cases before with
    | none =>
        simp [decodeFrom_none_eq_nil_iff]
    | some unfinished =>
        exact decodeFrom_some_ne_nil unfinished [byte]
  rw [List.getLast?_append, List.getLast?_eq_some_getLast nonempty,
    Option.some_or]
  intro last
  apply absent
  rw [← Option.some.inj last]
  exact List.getLast_mem nonempty

/--
What is read of a character once begun does not begin with an ASCII character.
-/
theorem beyondAscii_of_head?_decodeFrom
    {unfinished : Unfinished}
    {bytes : Bytes}
    {character : Char}
    (sound : unfinished.Sound)
    (first : (decodeFrom (some unfinished) bytes).head? = some character) :
    ¬ character.toNat < 0x80 := by
  induction bytes generalizing unfinished with
  | nil =>
      simp only [decodeFrom, List.head?_cons, Option.some.injEq] at first
      subst first
      exact replacement_beyondAscii
  | cons byte rest inductionHypothesis =>
      unfold decodeFrom step at first
      simp only at first
      split at first
      next completed extended =>
        simp only [List.cons_append, List.head?_cons, Option.some.injEq]
          at first
        subst first
        exact Nat.not_lt.mpr (Unfinished.extend?_complete sound extended)
      next next extended =>
        exact inductionHypothesis
          (Unfinished.extend?_sound sound extended) first
      next =>
        simp only [List.cons_append, List.head?_cons, Option.some.injEq]
          at first
        subst first
        exact replacement_beyondAscii

/-- A text that begins with an ASCII character begins with its byte. -/
theorem ascii_of_head?_decodeFrom
    {byte : UInt8}
    {rest : Bytes}
    {character : Char}
    (first : (decodeFrom none (byte :: rest)).head? = some character)
    (ascii : character.toNat < 0x80) :
    byte < 0x80 := by
  unfold decodeFrom step beginStep at first
  simp only at first
  split at first
  next completed begun =>
    exact (begin?_complete begun).1
  next unfinished begun =>
    exact (beyondAscii_of_head?_decodeFrom
      (begin?_sound begun) first ascii).elim
  next =>
    simp only [List.cons_append, List.head?_cons, Option.some.injEq] at first
    subst first
    exact (replacement_beyondAscii ascii).elim

/-- The characters that bytes below `0x80` spell. -/
def asciiCharacters (bytes : Bytes) : List Char :=
  bytes.map fun byte => Char.ofNat byte.toNat

/-- An ASCII text is read from its own bytes and from no others. -/
theorem decodeFrom_eq_asciiCharacters_iff
    {spelling : Bytes}
    (ascii : ∀ byte ∈ spelling, byte < 0x80)
    (bytes : Bytes) :
    decodeFrom none bytes = asciiCharacters spelling ↔ bytes = spelling := by
  induction spelling generalizing bytes with
  | nil =>
      exact decodeFrom_none_eq_nil_iff bytes
  | cons wanted later inductionHypothesis =>
      have wantedAscii : wanted < 0x80 := ascii wanted (by simp)
      have laterAscii : ∀ byte ∈ later, byte < 0x80 := by
        intro byte member
        exact ascii byte (List.mem_cons_of_mem wanted member)
      cases bytes with
      | nil =>
          simp [decodeFrom, asciiCharacters]
      | cons byte rest =>
          by_cases byteAscii : byte < 0x80
          · have sameCharacter :
                Char.ofNat byte.toNat = Char.ofNat wanted.toNat ↔
                  byte = wanted := by
              constructor
              · intro same
                have sameNumber := congrArg Char.toNat same
                rw [toNat_charOfByte byteAscii,
                  toNat_charOfByte wantedAscii] at sameNumber
                exact UInt8.toNat_inj.mp sameNumber
              · intro same
                rw [same]
            have readRest := inductionHypothesis laterAscii rest
            simp only [asciiCharacters] at readRest
            simp [decodeFrom, step, beginStep_ascii byteAscii, asciiCharacters,
              sameCharacter, readRest]
          · constructor
            · intro same
              have first :
                  (decodeFrom none (byte :: rest)).head? =
                    some (Char.ofNat wanted.toNat) := by
                rw [same]
                rfl
              have number := toNat_charOfByte wantedAscii
              exact (byteAscii (ascii_of_head?_decodeFrom first
                (by rw [number]; exact wantedAscii))).elim
            · intro same
              have sameByte : byte = wanted := (List.cons.inj same).1
              exact (byteAscii (sameByte ▸ wantedAscii)).elim

end StatementLexer.Utf8
