import StatementLexer.Proofs.Decoding

namespace StatementLexer.Utf8

/-!
# Reading what was written

The bytes of a text are read as that text.  A character beyond ASCII is written
as a first byte and then six bits of its number a byte.  Reading begins with
bounds for the second byte that leave room for exactly the numbers which are
written in that many bytes, and then collects the bits again.
-/

/--
The byte that spells six bits of a number and has the given number of bytes
after it.
-/
def spelledByte
    (number after : Nat) : UInt8 :=
  UInt8.ofNat (number / 64 ^ after % 64 + 0x80)

/-- The bytes of a number's character after its first byte. -/
def continuation (number : Nat) : Nat → Bytes
  | 0 => [spelledByte number 0]
  | after + 1 => spelledByte number (after + 1) :: continuation number after

/--
The bytes that spell a number fit what an unfinished character needs next.
-/
structure Unfinished.Awaits
    (unfinished : Unfinished)
    (number : Nat) : Prop where
  bits : unfinished.bits = number / 64 ^ (unfinished.after + 1)
  low : unfinished.low ≤ spelledByte number unfinished.after
  high : spelledByte number unfinished.after ≤ unfinished.high

/--
A byte is the first one of a number's character, `after + 1` bytes from its end.
-/
def Begins
    (lead : UInt8)
    (number after : Nat) : Prop :=
  ∃ unfinished,
    begin? lead = some (.more unfinished) ∧
      unfinished.after = after ∧ unfinished.Awaits number

@[simp] theorem toNat_spelledByte
    (number after : Nat) :
    (spelledByte number after).toNat = number / 64 ^ after % 64 + 0x80 := by
  simp only [spelledByte, UInt8.toNat_ofNat', Nat.reducePow]
  omega

theorem bits_succ
    (number after : Nat) :
    number / 64 ^ (after + 1) * 64 + number / 64 ^ after % 64 =
      number / 64 ^ after := by
  rw [Nat.pow_succ, ← Nat.div_div_eq_div_mul]
  exact Nat.div_add_mod' (number / 64 ^ after) 64

/--
An unfinished character is completed by the bytes that it awaits.  Only the
first of them may have bounds of its own; all later ones have `0x80` to `0xBF`,
which every spelled byte meets.
-/
theorem decodeFrom_continuation
    {unfinished : Unfinished}
    {number : Nat}
    (awaits : unfinished.Awaits number)
    (rest : Bytes) :
    decodeFrom (some unfinished)
        (continuation number unfinished.after ++ rest) =
      Char.ofNat number :: decodeFrom none rest := by
  obtain ⟨low, high, after, bits⟩ := unfinished
  obtain ⟨bitsShape, lowFits, highFits⟩ := awaits
  simp only at bitsShape lowFits highFits
  induction after generalizing low high bits with
  | zero =>
      have spelled := bits_succ number 0
      rw [Nat.pow_zero, Nat.div_one, ← bitsShape] at spelled
      have completed :
          Unfinished.extend? ⟨low, high, 0, bits⟩ (spelledByte number 0) =
            some (.complete (Char.ofNat number)) := by
        simp only [Unfinished.extend?, lowFits, highFits, and_self, ↓reduceIte,
          toNat_spelledByte, Nat.add_sub_cancel, Nat.pow_zero, Nat.div_one,
          spelled]
      simp [decodeFrom, continuation, step, completed]
  | succ after inductionHypothesis =>
      have spelled := bits_succ number (after + 1)
      have extended :
          Unfinished.extend? ⟨low, high, after + 1, bits⟩
              (spelledByte number (after + 1)) =
            some (.more ⟨0x80, 0xBF, after, number / 64 ^ (after + 1)⟩) := by
        simp only [Unfinished.extend?, lowFits, highFits, and_self, ↓reduceIte,
          toNat_spelledByte, Nat.add_sub_cancel, bitsShape, spelled]
      have later :=
        inductionHypothesis 0x80 0xBF (number / 64 ^ (after + 1)) rfl
          (by simp [UInt8.le_iff_toNat_le])
          (by simp [UInt8.le_iff_toNat_le]; omega)
      simpa [decodeFrom, continuation, step, extended] using later

theorem begins_ofTwo
    {number : Nat}
    (atLeast : 0x80 ≤ number)
    (atMost : number ≤ 0x7FF) :
    Begins (UInt8.ofNat (number / 64 % 0x20 + 0xC0)) number 0 := by
  have lead :
      (UInt8.ofNat (number / 64 % 0x20 + 0xC0)).toNat = number / 64 + 0xC0 := by
    simp only [UInt8.toNat_ofNat', Nat.reducePow]
    omega
  simp only [Begins, begin?, UInt8.lt_iff_toNat_lt, UInt8.reduceToNat, lead]
  rw [if_neg (by omega), if_neg (by omega), if_pos (by omega)]
  refine ⟨_, rfl, rfl, ?_, ?_, ?_⟩
  · simp
  · simp [UInt8.le_iff_toNat_le]
  · simp only [UInt8.le_iff_toNat_le, toNat_spelledByte, UInt8.reduceToNat]
    omega

theorem begins_ofThree
    {number : Nat}
    (atLeast : 0x800 ≤ number)
    (atMost : number ≤ 0xFFFF)
    (scalar : number < 0xD800 ∨ 0xDFFF < number) :
    Begins (UInt8.ofNat (number / 4096 % 0x10 + 0xE0)) number 1 := by
  have lead :
      (UInt8.ofNat (number / 4096 % 0x10 + 0xE0)).toNat =
        number / 4096 + 0xE0 := by
    simp only [UInt8.toNat_ofNat', Nat.reducePow]
    omega
  simp only [Begins, begin?, UInt8.lt_iff_toNat_lt, ← UInt8.toNat_inj,
    UInt8.reduceToNat, lead]
  rw [if_neg (by omega), if_neg (by omega), if_neg (by omega),
    if_pos (by omega)]
  refine ⟨_, rfl, rfl, ?_, ?_, ?_⟩
  · simp
  · simp only [UInt8.le_iff_toNat_le, toNat_spelledByte]
    split
    · simp only [UInt8.reduceToNat]
      omega
    · simp only [UInt8.reduceToNat]
      omega
  · simp only [UInt8.le_iff_toNat_le, toNat_spelledByte]
    split
    · simp only [UInt8.reduceToNat]
      omega
    · simp only [UInt8.reduceToNat]
      omega

theorem begins_ofFour
    {number : Nat}
    (atLeast : 0x10000 ≤ number)
    (below : number < 0x110000) :
    Begins (UInt8.ofNat (number / 262144 % 0x08 + 0xF0)) number 2 := by
  have lead :
      (UInt8.ofNat (number / 262144 % 0x08 + 0xF0)).toNat =
        number / 262144 + 0xF0 := by
    simp only [UInt8.toNat_ofNat', Nat.reducePow]
    omega
  simp only [Begins, begin?, UInt8.lt_iff_toNat_lt, ← UInt8.toNat_inj,
    UInt8.reduceToNat, lead]
  rw [if_neg (by omega), if_neg (by omega), if_neg (by omega),
    if_neg (by omega), if_pos (by omega)]
  refine ⟨_, rfl, rfl, ?_, ?_, ?_⟩
  · simp
  · simp only [UInt8.le_iff_toNat_le, toNat_spelledByte]
    split
    · simp only [UInt8.reduceToNat]
      omega
    · simp only [UInt8.reduceToNat]
      omega
  · simp only [UInt8.le_iff_toNat_le, toNat_spelledByte]
    split
    · simp only [UInt8.reduceToNat]
      omega
    · simp only [UInt8.reduceToNat]
      omega

/-- A first byte and the bytes that are awaited after it give one character. -/
theorem decodeFrom_of_begins
    {lead : UInt8}
    {number after : Nat}
    (begins : Begins lead number after)
    (rest : Bytes) :
    decodeFrom none (lead :: continuation number after ++ rest) =
      Char.ofNat number :: decodeFrom none rest := by
  obtain ⟨unfinished, begun, rfl, awaits⟩ := begins
  rw [← decodeFrom_continuation awaits rest]
  simp [decodeFrom, step, beginStep, begun]

/-- The bytes of a character are read as that character. -/
theorem decodeFrom_encodeChar
    (character : Char)
    (rest : Bytes) :
    decodeFrom none (String.utf8EncodeChar character ++ rest) =
      character :: decodeFrom none rest := by
  obtain ⟨number, numberShape⟩ :
      ∃ number, character.val.toNat = number :=
    ⟨_, rfl⟩
  have spelled : Char.ofNat number = character := by
    rw [← numberShape]
    exact Char.ofNat_toNat character
  have valid : number < 0xD800 ∨ 0xDFFF < number ∧ number < 0x110000 := by
    rw [← numberShape]
    exact character.valid
  unfold String.utf8EncodeChar
  simp only [numberShape]
  rw [← spelled]
  split
  · have sameNumber : (UInt8.ofNat number).toNat = number := by
      simp only [UInt8.toNat_ofNat', Nat.reducePow]
      omega
    have ascii : UInt8.ofNat number < 0x80 := by
      simp only [UInt8.lt_iff_toNat_lt, sameNumber, UInt8.reduceToNat]
      omega
    simp [decodeFrom, step, beginStep_ascii ascii, sameNumber]
  split
  · have begins := begins_ofTwo (show 0x80 ≤ number by omega) (by omega)
    simpa [continuation, spelledByte] using decodeFrom_of_begins begins rest
  split
  · have begins :=
      begins_ofThree (show 0x800 ≤ number by omega) (by omega) (by omega)
    simpa [continuation, spelledByte] using decodeFrom_of_begins begins rest
  · have begins := begins_ofFour (show 0x10000 ≤ number by omega) (by omega)
    simpa [continuation, spelledByte] using decodeFrom_of_begins begins rest

/-- Reading the bytes of a text gives the text back. -/
theorem decode_encode (text : String) :
    decode (encode text) = text := by
  have read (characters : List Char) :
      decodeFrom none (characters.flatMap String.utf8EncodeChar) =
        characters := by
    induction characters with
    | nil =>
        rfl
    | cons character rest inductionHypothesis =>
        rw [List.flatMap_cons, decodeFrom_encodeChar, inductionHypothesis]
  rw [decode, encode, read, String.ofList_toList]

end StatementLexer.Utf8
