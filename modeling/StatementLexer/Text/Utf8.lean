namespace StatementLexer

/-!
# UTF-8

Texts are stored as bytes.  Writing a text is exact.  Reading is total: bytes
that do not form a character are replaced, one replacement character for each
longest run of bytes that begins a character without completing it, and one for
each byte that begins none.

The reader takes one byte at a time and remembers only the character that it is
in the middle of, so reading can be followed across any cut of the input.
-/

/-- A byte string: the contents of a file, a file name or a program argument. -/
abbrev Bytes := List UInt8

namespace Utf8

/-- The bytes of a text. -/
def encode (text : String) : Bytes :=
  text.toList.flatMap String.utf8EncodeChar

/-- The character that takes the place of bytes that form none. -/
def replacement : Char :=
  '\ufffd'

/--
A character whose first bytes have been read.

The next byte has to lie between `low` and `high`.  These bounds are narrower
than those of a continuation byte exactly where a wider choice would spell a
character in more bytes than it needs, a surrogate, or a number beyond the last
character.
-/
structure Unfinished where
  low : UInt8
  high : UInt8
  /-- How many bytes follow the next one. -/
  after : Nat
  /-- The number that the bytes read so far spell. -/
  bits : Nat
  deriving Repr, DecidableEq

/-- What one more byte makes of a character. -/
inductive Progress where
  | complete (character : Char)
  | more (unfinished : Unfinished)
  deriving Repr, DecidableEq

/-- Begins a character with the given byte, if some character begins with it. -/
def begin? (byte : UInt8) : Option Progress :=
  if byte < 0x80 then
    some (.complete (Char.ofNat byte.toNat))
  else if byte < 0xC2 then
    none
  else if byte < 0xE0 then
    some (.more ⟨0x80, 0xBF, 0, byte.toNat - 0xC0⟩)
  else if byte < 0xF0 then
    let low := if byte = 0xE0 then 0xA0 else 0x80
    let high := if byte = 0xED then 0x9F else 0xBF
    some (.more ⟨low, high, 1, byte.toNat - 0xE0⟩)
  else if byte < 0xF5 then
    let low := if byte = 0xF0 then 0x90 else 0x80
    let high := if byte = 0xF4 then 0x8F else 0xBF
    some (.more ⟨low, high, 2, byte.toNat - 0xF0⟩)
  else
    none

/-- Carries a character on with the given byte, if that byte can come next. -/
def Unfinished.extend?
    (unfinished : Unfinished)
    (byte : UInt8) : Option Progress :=
  if unfinished.low ≤ byte ∧ byte ≤ unfinished.high then
    let bits := unfinished.bits * 64 + (byte.toNat - 0x80)
    match unfinished.after with
    | 0 => some (.complete (Char.ofNat bits))
    | after + 1 => some (.more ⟨0x80, 0xBF, after, bits⟩)
  else
    none

/--
The characters that are certain after one more byte, and the one still
unfinished.
-/
abbrev Step := List Char × Option Unfinished

/-- Reads a byte that no character is unfinished before. -/
def beginStep (byte : UInt8) : Step :=
  match begin? byte with
  | some (.complete character) => ([character], none)
  | some (.more unfinished) => ([], some unfinished)
  | none => ([replacement], none)

/--
Reads one byte.

A byte that cannot carry the unfinished character on ends it: the character is
replaced and the byte is read afresh.
-/
def step
    (state : Option Unfinished)
    (byte : UInt8) : Step :=
  match state with
  | none => beginStep byte
  | some unfinished =>
      match unfinished.extend? byte with
      | some (.complete character) => ([character], none)
      | some (.more next) => ([], some next)
      | none =>
          let (characters, next) := beginStep byte
          (replacement :: characters, next)

/--
Reads all bytes after a state, replacing what stays unfinished at the end.
-/
def decodeFrom (state : Option Unfinished) : Bytes → List Char
  | [] =>
      match state with
      | none => []
      | some _ => [replacement]
  | byte :: rest =>
      let (characters, next) := step state byte
      characters ++ decodeFrom next rest

/-- The text that bytes spell, with replacements where they spell none. -/
def decode (bytes : Bytes) : String :=
  String.ofList (decodeFrom none bytes)

/--
The character that bytes complete after a state, if they complete it at once.
-/
def completeFrom? (unfinished : Unfinished) : Bytes → Option Char
  | [] => none
  | byte :: rest =>
      match unfinished.extend? byte with
      | some (.complete character) => some character
      | some (.more next) => completeFrom? next rest
      | none => none

/-- The character that bytes begin with, if they begin with one. -/
def firstChar? : Bytes → Option Char
  | [] => none
  | byte :: rest =>
      match begin? byte with
      | some (.complete character) => some character
      | some (.more unfinished) => completeFrom? unfinished rest
      | none => none

end Utf8

end StatementLexer
