namespace StatementLexer.Terminal

/-!
# Text for a terminal

A message that repeats what a user typed must not steer the terminal on which it
is shown.  Control characters other than white space are therefore left out, and
so is every escape sequence that one of them begins.

Most of a sequence is spelled in ASCII, and other characters within it are left
out without taking part.  A string is the exception: the byte that ends it may
also stand inside the UTF-8 form of a character, and then the string ends with
that character.
-/

/-- What the characters read so far have begun. -/
inductive State where
  /-- Plain text. -/
  | ground
  /-- An escape sequence whose sort is not known yet. -/
  | escape
  /-- An escape sequence of which only the last character is missing. -/
  | closing
  /-- A control sequence, which a letter or another final character ends. -/
  | control
  /-- A command for the terminal, which a bell ends. -/
  | command
  /-- The head of a device string, with nothing in it so far. -/
  | device
  /-- The head of a device string, among its parameters. -/
  | deviceParameters
  /-- The head of a device string, after its parameters. -/
  | deviceClosing
  /-- A string for the terminal or for a device behind it. -/
  | string
  deriving Repr, DecidableEq

/-- The character that begins an escape sequence, also within another one. -/
def escapeMark : Char :=
  '\x1b'

/-- The character that ends a command. -/
def bell : Char :=
  '\x07'

/-- The byte that ends a string. -/
def stringEnd : UInt8 :=
  0x9C

/-- The white space that is shown although it is a control character. -/
def isShownControl (character : Char) : Bool :=
  character = '\t' || character = '\n' || character = '\x0c' || character = '\r'

/-- A control character that is not shown. -/
def isHidden (character : Char) : Bool :=
  (character.toNat < 0x20 && !isShownControl character) ||
    character.toNat = 0x7F

/-- A character that calls any sequence off. -/
def isCancel (character : Char) : Bool :=
  character = '\x18' || character = '\x1a'

/--
A character that sequences are not spelled with: a control or one beyond ASCII.
-/
def isForeign (character : Char) : Bool :=
  character.toNat < 0x20 || 0x7F ≤ character.toNat

/-- A character with the byte that ends a string in its UTF-8 form. -/
def holdsStringEnd (character : Char) : Bool :=
  (String.utf8EncodeChar character).contains stringEnd

/-- The state after a character that sequences are not spelled with. -/
def afterForeign
    (state : State)
    (character : Char) : State :=
  match state with
  | .command =>
      if character = bell then
        .ground
      else
        .command
  | .string =>
      if holdsStringEnd character then
        .ground
      else
        .string
  | other => other

/-- The state after the character that tells the sort of an escape sequence. -/
def afterEscape (character : Char) : State :=
  if character.toNat < 0x30 then
    .closing
  else if character = '[' then
    .control
  else if character = ']' then
    .command
  else if character = 'P' then
    .device
  else if character = 'X' || character = '^' || character = '_' then
    .string
  else
    .ground

/-- The state after a character that sequences are spelled with. -/
def afterSpelled
    (state : State)
    (character : Char) : State :=
  match state with
  | .ground => .ground
  | .escape => afterEscape character
  | .closing =>
      if character.toNat < 0x30 then
        .closing
      else
        .ground
  | .control =>
      if character.toNat < 0x40 then
        .control
      else
        .ground
  | .command => .command
  | .device =>
      if character.toNat < 0x30 then
        .deviceClosing
      else if character.toNat < 0x40 then
        .deviceParameters
      else
        .string
  | .deviceParameters =>
      if character.toNat < 0x30 then
        .deviceClosing
      else if character.toNat < 0x3C then
        .deviceParameters
      else
        .string
  | .deviceClosing =>
      if character.toNat < 0x30 then
        .deviceClosing
      else
        .string
  | .string => .string

/-- The state after a character that is not shown. -/
def advance
    (state : State)
    (character : Char) : State :=
  if character = escapeMark then
    .escape
  else if isCancel character then
    .ground
  else if isForeign character then
    afterForeign state character
  else
    afterSpelled state character

/--
A character that is shown in a state: white space breaks the shorter sequences
off.
-/
def isShown
    (state : State)
    (character : Char) : Bool :=
  match state with
  | .ground => !isHidden character
  | .escape | .closing | .control => isShownControl character
  | _ => false

/--
The characters that are shown after a state; one that is shown ends any
sequence.
-/
def plainFrom (state : State) : List Char → List Char
  | [] => []
  | character :: rest =>
      if isShown state character then
        character :: plainFrom .ground rest
      else
        plainFrom (advance state character) rest

/-- A text without anything that steers a terminal. -/
def plain (text : String) : String :=
  String.ofList (plainFrom .ground text.toList)

end StatementLexer.Terminal
