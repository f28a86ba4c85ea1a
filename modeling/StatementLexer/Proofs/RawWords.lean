import StatementLexer.Proofs.Effects
import StatementLexer.Proofs.Words

namespace StatementLexer

/-!
# Lexing bytes without reading them as text

The codes that are written for a file can be found on its bytes alone.  Lines
end at a byte, words end at a byte, and the words that are no values have one
spelling in bytes each.  Since reading replaces whatever bytes form no
character, this is not obvious: no byte may get lost in a replacement that ends
a line or a word, and none may turn into one.
-/

namespace RawWords

/-- The bytes of `int` and `float`. -/
def typeSpellings : List Bytes :=
  [[0x69, 0x6E, 0x74], [0x66, 0x6C, 0x6F, 0x61, 0x74]]

/-- The bytes of `+`, `-`, `*` and `/`. -/
def operatorSpellings : List Bytes :=
  [[0x2B], [0x2D], [0x2A], [0x2F]]

/-- The kind of a word that is given by its bytes. -/
def kind (word : Bytes) : Kind :=
  if typeSpellings.contains word then
    .type
  else if operatorSpellings.contains word then
    .operator
  else
    .value

/-- The byte that is written for a kind: the digit `0`, `1` or `2`. -/
def codeByte : Kind → UInt8
  | .type => 0x30
  | .operator => 0x31
  | .value => 0x32

/--
The segments between spaces that are words to be kept; only the last is not
completed.
-/
def kept (options : Options) : List Bytes → List Bytes
  | [] => []
  | [last] =>
      if options.keepsLastWord && !last.isEmpty then
        [last]
      else
        []
  | completed :: next :: rest =>
      if options.dropsEmptyWords && completed.isEmpty then
        kept options (next :: rest)
      else
        completed :: kept options (next :: rest)

/-- The words of a file: its lines cut at every space byte. -/
def ofFile
    (options : Options)
    (content : Bytes) : List Bytes :=
  (linesOfSegments LineMarks.bytes (List.splitOn 0x0A content)).flatMap
    fun line => kept options (List.splitOn 0x20 line)

/-- What is written for a file: the code of each word and a newline. -/
def output
    (options : Options)
    (content : Bytes) : Bytes :=
  (ofFile options content).flatMap fun word => [codeByte (kind word), 0x0A]

/--
Whether a word is among ASCII words can be seen before or after it is read.
-/
theorem contains_decode
    {spellings : List Bytes}
    (ascii : ∀ spelling ∈ spellings, ∀ byte ∈ spelling, byte < 0x80)
    (word : Bytes) :
    (spellings.map fun spelling =>
          String.ofList (Utf8.asciiCharacters spelling)).contains
        (Utf8.decode word) =
      spellings.contains word := by
  induction spellings with
  | nil =>
      rfl
  | cons spelling others inductionHypothesis =>
      have first :
          Utf8.decode word = String.ofList (Utf8.asciiCharacters spelling) ↔
            word = spelling := by
        rw [Utf8.decode, String.ofList_inj]
        exact Utf8.decodeFrom_eq_asciiCharacters_iff
          (ascii spelling (by simp)) word
      have later :=
        inductionHypothesis fun other member =>
          ascii other (List.mem_cons_of_mem spelling member)
      rw [List.map_cons, List.contains_cons, List.contains_cons, later]
      congr 1
      rw [Bool.eq_iff_iff, beq_iff_eq, beq_iff_eq]
      exact first

/-- Reading a word as text does not change its kind. -/
theorem ofWord_decode (word : Bytes) :
    Kind.ofWord (Utf8.decode word) = kind word := by
  have types :
      Kind.typeWords =
        typeSpellings.map fun spelling =>
          String.ofList (Utf8.asciiCharacters spelling) := by
    decide
  have operators :
      Kind.operatorWords =
        operatorSpellings.map fun spelling =>
          String.ofList (Utf8.asciiCharacters spelling) := by
    decide
  have typesAscii :
      ∀ spelling ∈ typeSpellings, ∀ byte ∈ spelling, byte < 0x80 := by
    simp [typeSpellings]
  have operatorsAscii :
      ∀ spelling ∈ operatorSpellings, ∀ byte ∈ spelling, byte < 0x80 := by
    simp [operatorSpellings]
  unfold Kind.ofWord Kind.isTypeWord Kind.isOperatorWord kind
  rw [types, operators, contains_decode typesAscii,
    contains_decode operatorsAscii]

/--
The tokens of segments that have been read are those of the words kept among
their bytes.  Bytes are read as the empty text only if there are none, so the
options treat a segment and its bytes alike.
-/
theorem segmentTokens_decodeFrom
    (options : Options)
    (start : Location)
    (pieces : List Bytes) :
    (segmentTokens options start (pieces.map (Utf8.decodeFrom none))).map
        (fun token => (token.kind, token.text)) =
      (kept options pieces).map fun word => (kind word, Utf8.decode word) := by
  induction pieces generalizing start with
  | nil =>
      rfl
  | cons piece others inductionHypothesis =>
      have emptiness :
          (Utf8.decodeFrom none piece).isEmpty = piece.isEmpty := by
        rw [Bool.eq_iff_iff, List.isEmpty_iff, List.isEmpty_iff]
        exact Utf8.decodeFrom_none_eq_nil_iff piece
      have pieceKind := ofWord_decode piece
      cases others with
      | nil =>
          simp only [List.map_cons, List.map_nil, segmentTokens, lastToken,
            kept, emptiness]
          split
          · simpa [Token.ofWord, Utf8.decode] using pieceKind
          · rfl
      | cons next rest =>
          simp only [List.map_cons, segmentTokens, completedToken, kept,
            emptiness, List.map_append]
          simp only [List.map_cons] at inductionHypothesis
          rw [inductionHypothesis]
          split
          · rfl
          · simpa [Token.ofWord, Utf8.decode] using pieceKind

/-- The words of a line may be cut from its bytes. -/
theorem lineTokens_decode
    (options : Options)
    (lineNumber : Nat)
    (line : Bytes) :
    (lineTokens options lineNumber (Utf8.decode line)).map
        (fun token => (token.kind, token.text)) =
      (kept options (List.splitOn 0x20 line)).map fun word =>
        (kind word, Utf8.decode word) := by
  obtain ⟨first, others, shape⟩ :=
    List.exists_cons_of_ne_nil (List.splitOn_ne_nil (0x20 : UInt8) line)
  have ascii : (0x20 : UInt8) < 0x80 := by decide
  have read :
      List.splitOn ' ' (Utf8.decodeFrom none line) =
        (List.splitOn 0x20 line).map (Utf8.decodeFrom none) := by
    rw [shape]
    exact splitOn_decodeFrom Utf8.soundState_none ascii shape
  rw [lineTokens_eq, Utf8.decode, String.toList_ofList, read]
  exact segmentTokens_decodeFrom options _ (List.splitOn 0x20 line)

/--
The tokens of lines that have been read are those of the words kept in their
bytes.
-/
theorem numberedTokens_decode
    (options : Options)
    (linesRead : Nat)
    (lines : List Bytes) :
    (numberedTokens options linesRead (lines.map Utf8.decode)).map
        (fun token => (token.kind, token.text)) =
      (lines.flatMap fun line => kept options (List.splitOn 0x20 line)).map
        fun word => (kind word, Utf8.decode word) := by
  induction lines generalizing linesRead with
  | nil =>
      rfl
  | cons line rest inductionHypothesis =>
      simp only [List.map_cons, numberedTokens, List.map_append,
        List.flatMap_cons]
      rw [lineTokens_decode, inductionHypothesis]

/-- The codes of tokens are written as one digit and a newline each. -/
theorem encode_codes (report : Report) :
    Utf8.encode report.codes =
      (report.tokens.map Token.kind).flatMap fun kind =>
        [codeByte kind, 0x0A] := by
  have encodeCode (kind : Kind) :
      (Nat.repr kind.code ++ "\n").toList.flatMap String.utf8EncodeChar =
        [codeByte kind, 0x0A] := by
    cases kind <;> decide
  simp only [Utf8.encode, Report.codes, Report.unlines, String.toList_join,
    List.map_map, List.flatMap_map, List.flatMap_assoc]
  congr 1
  funext token
  exact encodeCode token.kind

/--
For a file of any bytes, the codes that a run writes are those of a lexer that
cuts and classifies bytes and never reads them as text.  The tokens of the file
are the words of that lexer, each of them read by itself, so reading makes no
token, loses none and changes the kind of none.
-/
theorem written_eq_output
    (options : Options)
    (file path : String)
    (content : Bytes) :
    let source := Source.ofOpenFile path (.readable content)
    let run := Run.ofSource options .text file source {}
    run.result = .ok () ∧ run.sink.written = output options content ∧
      ∃ report,
        Report.ofFeed options file source.feed = .ok report ∧
          report.tokens.map (fun token => (token.kind, token.text)) =
            (ofFile options content).map fun word =>
              (kind word, Utf8.decode word) := by
  intro source run
  have upcoming : source.feed.upcoming = (fileLines content).map .item := rfl
  have good : Feed.firstFault? source.feed.upcoming = none := by
    rw [upcoming, Feed.firstFault?_map_item]
  have tokens :
      (numberedTokens options 0 (fileLines content)).map
          (fun token => (token.kind, token.text)) =
        (ofFile options content).map fun word =>
          (kind word, Utf8.decode word) := by
    rw [fileLines_eq]
    exact numberedTokens_decode options 0 _
  have kinds :
      (numberedTokens options 0 (fileLines content)).map Token.kind =
        (ofFile options content).map kind := by
    have sameKinds := congrArg (List.map Prod.fst) tokens
    simpa [List.map_map, Function.comp_def] using sameKinds
  have rendered :
      Run.rendering options .text file source.feed.upcoming =
        output options content := by
    simp only [Run.rendering, Report.render, encode_codes, upcoming,
      Feed.goodLines_map_item, kinds, List.flatMap_map, output]
  obtain ⟨succeeds, written⟩ :=
    Run.ofSource_without_faults good rfl options .text file
  refine ⟨succeeds, written.trans rendered, ?_⟩
  exact ⟨_, Report.ofFeed_ofLines options file (fileLines content), tokens⟩

end RawWords

end StatementLexer
