import Mathlib.Tactic.SplitIfs
import StatementLexer.Report.Json

namespace StatementLexer.JsonText

/-!
# Reading JSON text

A reader of JSON text needs to know nothing about the layout of a document: it
cuts the text into marks, quoted texts and numbers and skips the white space
between them.  Texts are read with every escape that JSON has for a single
character, and numbers are whole.  What has been quoted is read as one text,
whatever it looks like, and a number as that number.
-/

/-- What JSON text is made of. -/
inductive Lexeme where
  | openBrace
  | closeBrace
  | openBracket
  | closeBracket
  | colon
  | comma
  | text (value : String)
  | number (value : Nat)
  deriving Repr, DecidableEq

/-- What the characters read so far have begun. -/
inductive ScanState where
  /-- No lexeme is unfinished. -/
  | between
  /-- A number, with its value so far. -/
  | number (value : Nat)
  /-- A quoted text, with its latest character first. -/
  | quoted (seen : List Char)
  /-- An escape in a quoted text. -/
  | escaped (seen : List Char)
  /--
  An escape that spells the number of a character, `missing` digits before its
  last.
  -/
  | spelled (seen : List Char) (missing number : Nat)
  deriving Repr, DecidableEq

/-- The white space that may stand between lexemes. -/
def isBlank (character : Char) : Bool :=
  character = ' ' || character = '\n' || character = '\r' || character = '\t'

/-- The lexeme that a character is by itself. -/
def mark? : Char → Option Lexeme
  | '\x7b' => some .openBrace
  | '\x7d' => some .closeBrace
  | '[' => some .openBracket
  | ']' => some .closeBracket
  | ':' => some .colon
  | ',' => some .comma
  | _ => none

/-- The value of a digit to the base sixteen. -/
def hexValue? (character : Char) : Option Nat :=
  if '0' ≤ character ∧ character ≤ '9' then
    some (character.toNat - '0'.toNat)
  else if 'a' ≤ character ∧ character ≤ 'f' then
    some (character.toNat - 'a'.toNat + 10)
  else if 'A' ≤ character ∧ character ≤ 'F' then
    some (character.toNat - 'A'.toNat + 10)
  else
    none

/-- The value of a decimal digit. -/
def decimalValue? (character : Char) : Option Nat :=
  (hexValue? character).filter (· < 10)

/-- The character that an escape of one letter stands for. -/
def unescape? : Char → Option Char
  | '"' => some '"'
  | '\\' => some '\\'
  | '/' => some '/'
  | 'b' => some '\x08'
  | 'f' => some '\x0c'
  | 'n' => some '\n'
  | 'r' => some '\r'
  | 't' => some '\t'
  | _ => none

/-- Reads a character before which no lexeme is unfinished. -/
def begin? (character : Char) : Option (List Lexeme × ScanState) :=
  if isBlank character then
    some ([], .between)
  else if character = '"' then
    some ([], .quoted [])
  else
    match mark? character, decimalValue? character with
    | some mark, _ => some ([mark], .between)
    | none, some value => some ([], .number value)
    | none, none => none

/--
Reads one character.

A number has no zero before its other digits, and a quoted text holds no control
character as it is.
-/
def step?
    (state : ScanState)
    (character : Char) : Option (List Lexeme × ScanState) :=
  match state with
  | .between => begin? character
  | .number value =>
      match decimalValue? character with
      | some digit =>
          if value = 0 then
            none
          else
            some ([], .number (value * 10 + digit))
      | none =>
          (begin? character).map fun begun =>
            (.number value :: begun.1, begun.2)
  | .quoted seen =>
      if character = '"' then
        some ([.text (String.ofList seen.reverse)], .between)
      else if character = '\\' then
        some ([], .escaped seen)
      else if character.toNat < 0x20 then
        none
      else
        some ([], .quoted (character :: seen))
  | .escaped seen =>
      if character = 'u' then
        some ([], .spelled seen 3 0)
      else
        (unescape? character).map fun plain => ([], .quoted (plain :: seen))
  | .spelled seen missing number =>
      match hexValue? character, missing with
      | none, _ => none
      | some digit, missing + 1 =>
          some ([], .spelled seen missing (number * 16 + digit))
      | some digit, 0 =>
          if (number * 16 + digit).isValidChar then
            some ([], .quoted (Char.ofNat (number * 16 + digit) :: seen))
          else
            none

/--
The lexemes that are certain after some characters, and what is still
unfinished.
-/
def scan (state : ScanState) : List Char → Option (List Lexeme × ScanState)
  | [] => some ([], state)
  | character :: rest =>
      match step? state character with
      | none => none
      | some (lexemes, next) =>
          (scan next rest).map fun later => (lexemes ++ later.1, later.2)

/-- The lexemes of a text, if it is made of lexemes. -/
def lexemes? (text : String) : Option (List Lexeme) :=
  match scan .between text.toList with
  | some (lexemes, .between) => some lexemes
  | _ => none

/-- Scanning goes on where it stopped. -/
theorem scan_append
    {state middle last : ScanState}
    {first second : List Char}
    {early late : List Lexeme}
    (scannedFirst : scan state first = some (early, middle))
    (scannedSecond : scan middle second = some (late, last)) :
    scan state (first ++ second) = some (early ++ late, last) := by
  induction first generalizing state early with
  | nil =>
      simp only [scan, Option.some.injEq, Prod.mk.injEq] at scannedFirst
      obtain ⟨rfl, rfl⟩ := scannedFirst
      exact scannedSecond
  | cons character rest inductionHypothesis =>
      rw [List.cons_append, scan]
      rw [scan] at scannedFirst
      cases stepped : step? state character with
      | none =>
          simp [stepped] at scannedFirst
      | some begun =>
          simp only [stepped, Option.map_eq_some_iff] at scannedFirst
          obtain ⟨later, scannedRest, same⟩ := scannedFirst
          obtain ⟨rfl, rfl⟩ := Prod.mk.inj same
          simp [inductionHypothesis scannedRest]

/--
Characters are read as the given lexemes, with nothing unfinished before or
after them.
-/
def Spells
    (characters : List Char)
    (lexemes : List Lexeme) : Prop :=
  scan .between characters = some (lexemes, .between)

/-- Texts that spell lexemes may be put together. -/
theorem Spells.append
    {first second : List Char}
    {early late : List Lexeme}
    (spellsFirst : Spells first early)
    (spellsSecond : Spells second late) :
    Spells (first ++ second) (early ++ late) :=
  scan_append spellsFirst spellsSecond

theorem hexValue?_digitChar
    {digit : Nat}
    (small : digit < 16) :
    hexValue? (Nat.digitChar digit) = some digit := by
  have checked :
      ∀ digit < 16, hexValue? (Nat.digitChar digit) = some digit := by
    decide
  exact checked digit small

theorem decimalValue?_digitChar
    {digit : Nat}
    (small : digit < 10) :
    decimalValue? (Nat.digitChar digit) = some digit := by
  rw [decimalValue?, hexValue?_digitChar (by omega)]
  simp [small]

/-- A control character is read from the four digits of its number. -/
theorem scan_spelled
    {character : Char}
    (control : character.toNat < 0x20)
    (seen : List Char) :
    scan (.quoted seen)
        ['\\', 'u', '0', '0', hexDigit (character.toNat / 16),
          hexDigit (character.toNat % 16)] =
      some ([], .quoted (character :: seen)) := by
  have high : hexValue? (hexDigit (character.toNat / 16)) =
      some (character.toNat / 16) :=
    hexValue?_digitChar (by omega)
  have low : hexValue? (hexDigit (character.toNat % 16)) =
      some (character.toNat % 16) :=
    hexValue?_digitChar (by omega)
  have zero : hexValue? '0' = some 0 := rfl
  have number :
      character.toNat / 16 * 16 + character.toNat % 16 = character.toNat := by
    omega
  have valid : character.toNat.isValidChar := character.valid
  simp [scan, step?, high, low, zero, number, valid, Char.ofNat_toNat]

/-- An escaped character is read as that character. -/
theorem scan_escape
    (seen : List Char)
    (character : Char) :
    scan (.quoted seen) (escape character) =
      some ([], .quoted (character :: seen)) := by
  unfold escape
  split_ifs with quote backslash backspace formFeed newline carriage tab control
  · rw [quote]
    rfl
  · rw [backslash]
    rfl
  · rw [backspace]
    rfl
  · rw [formFeed]
    rfl
  · rw [newline]
    rfl
  · rw [carriage]
    rfl
  · rw [tab]
    rfl
  · exact scan_spelled control seen
  · simp [scan, step?, quote, backslash, control]

/-- Escaped characters are read back within quotes. -/
theorem scan_escapes
    (seen characters : List Char) :
    scan (.quoted seen) (characters.flatMap escape) =
      some ([], .quoted (characters.reverse ++ seen)) := by
  induction characters generalizing seen with
  | nil =>
      rfl
  | cons character rest inductionHypothesis =>
      have scanned :=
        scan_append (scan_escape seen character)
          (inductionHypothesis (character :: seen))
      simpa using scanned

/-- A text in quotes is read as that text. -/
theorem spells_quote (text : String) :
    Spells (quote text).toList [.text text] := by
  have opened : scan .between ['"'] = some ([], .quoted []) := rfl
  have closed :
      scan (.quoted (text.toList.reverse ++ [])) ['"'] =
        some ([.text text], .between) := by
    simp [scan, step?]
  have scanned :=
    scan_append (scan_append opened (scan_escapes [] text.toList)) closed
  simpa [Spells, quote] using scanned

/--
The digits of a number are read as that number, which the next character ends.
They are those of its tenth and one more.  A tenth that is written is not zero,
so the digit after it is not refused.
-/
theorem scan_digits (number : Nat) :
    scan .between (Nat.toDigits 10 number) = some ([], .number number) := by
  induction number using Nat.strongRecOn with
  | ind number inductionHypothesis =>
      rw [Nat.toDigits_eq_if (by decide)]
      split
      next oneDigit =>
        have checked :
            ∀ digit < 10,
              scan .between [Nat.digitChar digit] =
                some ([], .number digit) := by
          decide
        exact checked number oneDigit
      next more =>
        have smaller : number / 10 < number := by omega
        have value :=
          decimalValue?_digitChar (Nat.mod_lt number (by decide : 0 < 10))
        have lastDigit :
            scan (.number (number / 10)) [Nat.digitChar (number % 10)] =
              some ([], .number number) := by
          have positive : number / 10 ≠ 0 := by omega
          have whole : number / 10 * 10 + number % 10 = number := by omega
          simp [scan, step?, value, positive, whole]
        simpa using scan_append (inductionHypothesis _ smaller) lastDigit

/-- A quoted text is one lexeme. -/
theorem Spells.text
    {rest : List Char}
    {later : List Lexeme}
    (text : String)
    (spellsRest : Spells rest later) :
    Spells ((quote text).toList ++ rest) (.text text :: later) :=
  (spells_quote text).append spellsRest

/-- A number is read as that number if what stands after it ends it. -/
theorem Spells.number
    {ending rest : List Char}
    {ended later : List Lexeme}
    (number : Nat)
    (endsNumber :
      scan (.number number) ending = some (.number number :: ended, .between))
    (spellsRest : Spells rest later) :
    Spells ((Nat.repr number).toList ++ (ending ++ rest))
      (.number number :: (ended ++ later)) := by
  rw [Nat.toList_repr]
  exact scan_append (scan_digits number) (scan_append endsNumber spellsRest)

end StatementLexer.JsonText
