import Mathlib.Algebra.Ring.Nat
import StatementLexer.Line
import StatementLexer.Proofs.Lines

namespace StatementLexer

/-!
# Scanning a line and cutting it at its spaces

A line is scanned with the current word, its beginning and the number of
characters passed as the only memory.  What comes out is what cutting the line
at every space gives: the segments are the words, each but the last is completed
by a space, and a word begins one column after the space that completed the word
before it.
-/

/--
The tokens of the segments between spaces, the first of which begins at `start`.
-/
def segmentTokens
    (options : Options)
    (start : Location) :
    List (List Char) → List Token
  | [] => []
  | [last] => lastToken options last start
  | completed :: next :: rest =>
      completedToken options completed start ++
        segmentTokens options
          { start with column := start.column + completed.length + 1 }
          (next :: rest)

/-- A segment with others behind it is a completed word. -/
theorem segmentTokens_cons
    {others : List (List Char)}
    (nonempty : others ≠ [])
    (options : Options)
    (start : Location)
    (completed : List Char) :
    segmentTokens options start (completed :: others) =
      completedToken options completed start ++
        segmentTokens options
          { start with column := start.column + completed.length + 1 }
          others := by
  obtain ⟨next, rest, rfl⟩ := List.exists_cons_of_ne_nil nonempty
  rfl

/--
Scanning gives the tokens of the segments, the word so far being part of the
first.  All along, the characters that the scan has passed are those before the
current word and those seen of it.
-/
theorem scanFrom_eq
    {characters first : List Char}
    {others : List (List Char)}
    (shape : List.splitOn ' ' characters = first :: others)
    (options : Options)
    {start : Location}
    {index : Nat}
    {seen : List Char}
    (passed : index + 1 = start.column + seen.length) :
    scanFrom options start index seen characters =
      segmentTokens options start ((seen.reverse ++ first) :: others) := by
  induction characters generalizing start index seen first others with
  | nil =>
      rw [List.splitOn_nil, List.cons.injEq] at shape
      obtain ⟨rfl, rfl⟩ := shape
      simp [scanFrom, segmentTokens]
  | cons character rest inductionHypothesis =>
      obtain ⟨next, later, restShape⟩ :=
        List.exists_cons_of_ne_nil (List.splitOn_ne_nil ' ' rest)
      by_cases space : character = ' '
      · rw [space, splitOn_cons_self, restShape, List.cons.injEq] at shape
        obtain ⟨rfl, rfl⟩ := shape
        simp only [scanFrom, space, ↓reduceIte, List.append_nil, segmentTokens,
          List.length_reverse, ← passed]
        rw [inductionHypothesis restShape (by simp)]
        rfl
      · rw [splitOn_cons_of_ne space restShape, List.cons.injEq] at shape
        obtain ⟨rfl, rfl⟩ := shape
        have passedOneMore :
            index + 1 + 1 = start.column + (character :: seen).length := by
          rw [List.length_cons, passed, Nat.add_assoc]
        simp only [scanFrom, space, ↓reduceIte]
        rw [inductionHypothesis restShape passedOneMore]
        simp

/-- The tokens of a line are those of the segments between its spaces. -/
theorem lineTokens_eq
    (options : Options)
    (lineNumber : Nat)
    (line : String) :
    lineTokens options lineNumber line =
      segmentTokens options { line := lineNumber, column := 1 }
        (List.splitOn ' ' line.toList) := by
  obtain ⟨first, others, shape⟩ :=
    List.exists_cons_of_ne_nil (List.splitOn_ne_nil ' ' line.toList)
  rw [lineTokens, scanFrom_eq shape options rfl, shape]
  rfl

/-!
## Words at their columns

The words of a line that a space completes are tokens apart from those that the
options drop, and each word begins after the ones before it.
-/

/--
Where a word begins if the given ones, each with its space, stand between.
-/
def Location.past
    (start : Location)
    (words : List (List Char)) : Location :=
  { start with
    column := start.column + (words.map fun word => word.length + 1).sum }

@[simp] theorem Location.past_nil (start : Location) :
    start.past [] = start := rfl

theorem Location.past_append
    (start : Location)
    (first second : List (List Char)) :
    start.past (first ++ second) = (start.past first).past second := by
  simp [Location.past, Nat.add_assoc]

/-- The tokens of words that stand one after the other, each with its space. -/
def wordTokens
    (start : Location)
    (words : List (List Char)) : List Token :=
  words.mapIdx fun index word =>
    Token.ofWord (String.ofList word) (start.past (words.take index))

/-- The first word stands at the start and the others behind it. -/
theorem wordTokens_cons
    (start : Location)
    (word : List Char)
    (rest : List (List Char)) :
    wordTokens start (word :: rest) =
      Token.ofWord (String.ofList word) start ::
        wordTokens (start.past [word]) rest := by
  simp [wordTokens, List.mapIdx_cons, ← Location.past_append]

theorem wordTokens_append
    (start : Location)
    (first second : List (List Char)) :
    wordTokens start (first ++ second) =
      wordTokens start first ++ wordTokens (start.past first) second := by
  induction first generalizing start with
  | nil =>
      rfl
  | cons word rest inductionHypothesis =>
      rw [List.cons_append, wordTokens_cons, wordTokens_cons,
        inductionHypothesis, ← Location.past_append, List.singleton_append,
        List.cons_append]

/-- Whether the options leave a token in that a space completes. -/
def Options.admits
    (options : Options)
    (token : Token) : Bool :=
  options.dropsEmptyWords → token.text ≠ ""

/-- A completed word is a token that the options may leave out. -/
theorem completedToken_eq
    (options : Options)
    (word : List Char)
    (location : Location) :
    completedToken options word location =
      [Token.ofWord (String.ofList word) location].filter options.admits := by
  unfold completedToken
  cases drops : options.dropsEmptyWords <;> cases word <;>
    simp [Options.admits, drops, Token.ofWord]

/--
The tokens of segments are those of the first ones, which are completed, and of
the rest.
-/
theorem segmentTokens_append
    {others : List (List Char)}
    (nonempty : others ≠ [])
    (options : Options)
    (start : Location)
    (completed : List (List Char)) :
    segmentTokens options start (completed ++ others) =
      (wordTokens start completed).filter options.admits ++
        segmentTokens options (start.past completed) others := by
  induction completed generalizing start with
  | nil =>
      rfl
  | cons word rest inductionHypothesis =>
      have next :
          { start with column := start.column + word.length + 1 } =
            start.past [word] := by
        simp [Location.past, Nat.add_assoc]
      rw [List.cons_append,
        segmentTokens_cons (List.append_ne_nil_of_right_ne_nil rest nonempty),
        next, inductionHypothesis, completedToken_eq, wordTokens_cons,
        ← Location.past_append, ← List.append_assoc, ← List.filter_append,
        List.singleton_append, List.singleton_append]

end StatementLexer
