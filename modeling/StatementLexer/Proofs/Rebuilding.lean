import Mathlib.Data.List.DropRight
import StatementLexer.Proofs.Splitting
import StatementLexer.Proofs.Writing

namespace StatementLexer

/-!
# What the tokens of a line retain of it

A line has more to it than its tokens: a last word that is not kept leaves no
trace, and neither do spaces at the end of a line whose empty words are dropped.
This module says how much of a line its tokens retain, and rebuilds that much
from them.  So two lines have the same tokens exactly if they agree in what is
retained.  Where empty words are dropped, only the columns of the other ones
tell how many spaces stood between them.
-/

/--
A line up to its last space and with it, and nothing of a line without one.
-/
def uptoLastSpace (line : List Char) : List Char :=
  line.rdropWhile (· ≠ ' ')

/-- A line without the spaces at its end. -/
def withoutTrailingSpaces (line : List Char) : List Char :=
  line.rdropWhile (· = ' ')

/-- A line with one space more if it ends in a word. -/
def endedBySpace (line : List Char) : List Char :=
  if EndsInWord line then
    line ++ [' ']
  else
    line

/-- What the tokens of a line retain of it. -/
def retained
    (options : Options)
    (line : List Char) : List Char :=
  match options.keepsLastWord, options.dropsEmptyWords with
  | false, false => uptoLastSpace line
  | false, true => withoutTrailingSpaces (uptoLastSpace line)
  | true, false => endedBySpace line
  | true, true => withoutTrailingSpaces line

/--
Sets words out at their columns, where `column` is the first one that is free.
-/
def setOut
    (column : Nat) :
    List Token → List Char
  | [] => []
  | token :: rest =>
      List.replicate (token.location.column - column) ' ' ++
        token.text.toList ++
        setOut (token.location.column + token.text.toList.length) rest

/-- What can be rebuilt of a line from its tokens. -/
def rebuilt
    (options : Options)
    (tokens : List Token) : List Char :=
  if options.dropsEmptyWords then
    setOut 1 tokens
  else
    spacedWords (tokens.map Token.text)

/-!
## Lines with the same tokens
-/

/--
A space at the end completes the last word, which was a token before or is none
now.
-/
theorem lineTokens_append_space
    {options : Options}
    {line : List Char}
    (keeps : options.keepsLastWord = true)
    (noneAdded : options.dropsEmptyWords = true ∨ EndsInWord line)
    (lineNumber : Nat) :
    lineTokens options lineNumber (String.ofList (line ++ [' '])) =
      lineTokens options lineNumber (String.ofList line) := by
  obtain ⟨completed, last, shape⟩ := exists_splitOn_eq_append_last ' ' line
  have longer :
      List.splitOn ' ' (line ++ [' ']) = (completed ++ [last]) ++ [[]] := by
    have ended : List.splitOn ' ' [' '] = [[], []] := rfl
    simpa using splitOn_append_last shape ended
  rw [endsInWord_iff_of_splitOn shape] at noneAdded
  rw [lineTokens_of_splitOn shape, lineTokens_of_splitOn longer,
    wordTokens_append, List.filter_append, List.append_assoc]
  congr 1
  cases last with
  | nil =>
      simp_all [wordTokens, Options.admits, Token.ofWord, lastToken]
  | cons character rest =>
      simp [wordTokens, Options.admits, Token.ofWord, lastToken, keeps]

/-- Spaces at the end of a line complete no word that is kept anyway. -/
theorem lineTokens_withoutTrailingSpaces
    (lineNumber : Nat)
    (line : List Char) :
    lineTokens { keepsLastWord := true, dropsEmptyWords := true } lineNumber
        (String.ofList (withoutTrailingSpaces line)) =
      lineTokens { keepsLastWord := true, dropsEmptyWords := true } lineNumber
        (String.ofList line) := by
  unfold withoutTrailingSpaces
  induction line using List.reverseRecOn with
  | nil =>
      rfl
  | append_singleton before character inductionHypothesis =>
      rw [List.rdropWhile_concat]
      split
      next space =>
        rw [inductionHypothesis, of_decide_eq_true space,
          lineTokens_append_space rfl (Or.inl rfl)]
      next =>
        rfl

theorem not_endsInWord_uptoLastSpace (line : List Char) :
    ¬ EndsInWord (uptoLastSpace line) := by
  rintro ⟨nonempty, noSpace⟩
  have space := List.rdropWhile_last_not (· ≠ ' ') line nonempty
  simp only [ne_eq, decide_eq_true_eq, not_not] at space
  apply noSpace
  rw [List.getLast?_eq_some_getLast nonempty]
  exact congrArg some space

theorem not_endsInWord_endedBySpace (line : List Char) :
    ¬ EndsInWord (endedBySpace line) := by
  unfold endedBySpace
  split
  next =>
    simp [EndsInWord]
  next noWord =>
    exact noWord

/-- Without its last word, a line has the tokens up to its last space. -/
theorem lineTokens_uptoLastSpace
    (dropsEmptyWords : Bool)
    (lineNumber : Nat)
    (line : List Char) :
    lineTokens { keepsLastWord := true, dropsEmptyWords } lineNumber
        (String.ofList (uptoLastSpace line)) =
      lineTokens { keepsLastWord := false, dropsEmptyWords } lineNumber
        (String.ofList line) := by
  have whole : uptoLastSpace line ++ line.rtakeWhile (· ≠ ' ') = line :=
    List.rdropWhile_append_rtakeWhile
  have spaceless : ' ' ∉ line.rtakeWhile (· ≠ ' ') := by
    intro member
    simpa using List.mem_rtakeWhile_imp member
  have unfinished :
      lineTokens { keepsLastWord := false, dropsEmptyWords } lineNumber
          (String.ofList (uptoLastSpace line ++ line.rtakeWhile (· ≠ ' '))) =
        lineTokens { keepsLastWord := false, dropsEmptyWords } lineNumber
          (String.ofList (uptoLastSpace line)) :=
    lineTokens_append_spaceless rfl lineNumber (uptoLastSpace line) spaceless
  have withoutLast :=
    lineTokens_withoutLastWord dropsEmptyWords lineNumber (uptoLastSpace line)
  rw [if_neg (not_endsInWord_uptoLastSpace line)] at withoutLast
  rw [whole] at unfinished
  rw [unfinished, withoutLast]

/--
A line has the tokens that what is retained of it has if last words are kept.
-/
theorem lineTokens_retained
    (options : Options)
    (lineNumber : Nat)
    (line : List Char) :
    lineTokens { options with keepsLastWord := true } lineNumber
        (String.ofList (retained options line)) =
      lineTokens options lineNumber (String.ofList line) := by
  obtain ⟨keepsLastWord, dropsEmptyWords⟩ := options
  cases keepsLastWord with
  | false =>
      cases dropsEmptyWords with
      | false =>
          exact lineTokens_uptoLastSpace false lineNumber line
      | true =>
          exact (lineTokens_withoutTrailingSpaces lineNumber _).trans
            (lineTokens_uptoLastSpace true lineNumber line)
  | true =>
      cases dropsEmptyWords with
      | false =>
          simp only [retained, endedBySpace]
          split
          next endsInWord =>
            exact lineTokens_append_space rfl (Or.inr endsInWord) lineNumber
          next =>
            rfl
      | true =>
          exact lineTokens_withoutTrailingSpaces lineNumber line

/-!
## Rebuilding a line
-/

/-- A line with a word added to it ends in a word. -/
theorem endsInWord_append_spaceless
    (earlier : List Char)
    {word : List Char}
    (nonempty : word ≠ [])
    (spaceless : ' ' ∉ word) :
    EndsInWord (earlier ++ word) := by
  refine ⟨List.append_ne_nil_of_right_ne_nil earlier nonempty, ?_⟩
  rw [List.getLast?_append_of_ne_nil earlier nonempty]
  exact ((endsInWord_of_spaceless spaceless).mpr nonempty).2

/-- Only what follows the last word of a line can be spaces at its end. -/
theorem withoutTrailingSpaces_append
    {earlier : List Char}
    (endsInWord : EndsInWord earlier)
    (later : List Char) :
    withoutTrailingSpaces (earlier ++ later) =
      earlier ++ withoutTrailingSpaces later := by
  unfold withoutTrailingSpaces
  induction later using List.reverseRecOn with
  | nil =>
      simp only [List.append_nil, List.rdropWhile_nil]
      rw [List.rdropWhile_eq_self_iff]
      intro nonempty
      have noSpace := endsInWord.2
      rw [List.getLast?_eq_some_getLast nonempty] at noSpace
      simpa using noSpace
  | append_singleton before character inductionHypothesis =>
      rw [← List.append_assoc, List.rdropWhile_concat, List.rdropWhile_concat,
        inductionHypothesis]
      split <;> simp

/--
Words are set out as the line was, up to the spaces at its end.  An empty word
is no token and widens the gap before the next one; any other word is set out
after its gap, and the next one is at least a space away.
-/
theorem setOut_segmentTokens
    (column gap : Nat)
    (start : Location)
    (begins : start.column = column + gap)
    (line : List Char) :
    setOut column
        (segmentTokens { keepsLastWord := true, dropsEmptyWords := true } start
          (List.splitOn ' ' line)) =
      withoutTrailingSpaces (List.replicate gap ' ' ++ line) := by
  induction line using segmentInduction ' ' generalizing column gap start with
  | last line absent =>
      rw [List.splitOn_eq_singleton absent, segmentTokens]
      by_cases empty : line = []
      · simp [lastToken, empty, setOut, withoutTrailingSpaces]
      · have gapBefore : start.column - column = gap := by omega
        rw [← List.append_nil (List.replicate gap ' ' ++ line),
          withoutTrailingSpaces_append
            (endsInWord_append_spaceless _ empty absent)]
        simp [lastToken, empty, setOut, Token.ofWord, gapBefore,
          withoutTrailingSpaces]
  | completed first rest absent inductionHypothesis =>
      rw [List.splitOn_append_cons_self_of_not_mem absent,
        segmentTokens_cons (List.splitOn_ne_nil ' ' rest)]
      by_cases empty : first = []
      · subst empty
        have later :=
          inductionHypothesis column (gap + 1)
            { start with column := start.column + 1 }
            (by rw [begins, Nat.add_assoc])
        have wider :
            List.replicate gap ' ' ++ ([] ++ ' ' :: rest) =
              List.replicate (gap + 1) ' ' ++ rest := by
          simp [List.replicate_succ']
        rw [wider, ← later]
        rfl
      · have later :=
          inductionHypothesis (start.column + first.length) 1
            { start with column := start.column + first.length + 1 } rfl
        have gapBefore : start.column - column = gap := by omega
        rw [← List.append_assoc,
          withoutTrailingSpaces_append
            (endsInWord_append_spaceless _ empty absent)]
        simp [completedToken, empty, setOut, Token.ofWord, gapBefore, later]

/-- Whether a space is missing can be seen behind any space. -/
theorem endedBySpace_append_space
    (earlier rest : List Char) :
    endedBySpace (earlier ++ ' ' :: rest) =
      earlier ++ ' ' :: endedBySpace rest := by
  simp only [endedBySpace, endsInWord_append_space]
  split <;> simp

/-- Words with a space after each are the line, ended by a space. -/
theorem spacedWords_segmentTokens
    (start : Location)
    (line : List Char) :
    spacedWords
        ((segmentTokens { keepsLastWord := true, dropsEmptyWords := false }
          start (List.splitOn ' ' line)).map Token.text) =
      endedBySpace line := by
  induction line using segmentInduction ' ' generalizing start with
  | last line absent =>
      simp only [List.splitOn_eq_singleton absent, segmentTokens, endedBySpace,
        endsInWord_of_spaceless absent]
      by_cases empty : line = []
      · simp [lastToken, empty, spacedWords]
      · simp [lastToken, empty, spacedWords, Token.ofWord]
  | completed first rest absent inductionHypothesis =>
      rw [List.splitOn_append_cons_self_of_not_mem absent,
        segmentTokens_cons (List.splitOn_ne_nil ' ' rest), List.map_append,
        endedBySpace_append_space]
      simp [completedToken, Token.ofWord, spacedWords_cons, inductionHypothesis]

theorem withoutTrailingSpaces_retained
    (keepsLastWord : Bool)
    (line : List Char) :
    withoutTrailingSpaces
        (retained { keepsLastWord, dropsEmptyWords := true } line) =
      retained { keepsLastWord, dropsEmptyWords := true } line := by
  cases keepsLastWord <;> exact List.rdropWhile_idempotent _ _

theorem endedBySpace_retained
    (keepsLastWord : Bool)
    (line : List Char) :
    endedBySpace (retained { keepsLastWord, dropsEmptyWords := false } line) =
      retained { keepsLastWord, dropsEmptyWords := false } line := by
  cases keepsLastWord with
  | false =>
      exact if_neg (not_endsInWord_uptoLastSpace line)
  | true =>
      exact if_neg (not_endsInWord_endedBySpace line)

/-- What is retained of a line can be rebuilt from its tokens. -/
theorem rebuilt_lineTokens
    (options : Options)
    (lineNumber : Nat)
    (line : List Char) :
    rebuilt options (lineTokens options lineNumber (String.ofList line)) =
      retained options line := by
  rw [← lineTokens_retained, lineTokens_eq, String.toList_ofList]
  obtain ⟨keepsLastWord, dropsEmptyWords⟩ := options
  cases dropsEmptyWords with
  | false =>
      simp only [rebuilt, Bool.false_eq_true, ↓reduceIte]
      rw [spacedWords_segmentTokens, endedBySpace_retained]
  | true =>
      simp only [rebuilt, ↓reduceIte]
      rw [setOut_segmentTokens 1 0 _ rfl, List.replicate_zero, List.nil_append,
        withoutTrailingSpaces_retained]

/--
Two lines have the same tokens exactly if they agree in what is retained of
them, and that much of a line can be rebuilt from its tokens.
-/
theorem lineTokens_eq_iff_retained_eq
    (options : Options)
    (lineNumber : Nat)
    (first second : String) :
    (lineTokens options lineNumber first =
          lineTokens options lineNumber second ↔
        retained options first.toList = retained options second.toList) ∧
      rebuilt options (lineTokens options lineNumber first) =
        retained options first.toList := by
  have rebuiltFirst := rebuilt_lineTokens options lineNumber first.toList
  have rebuiltSecond := rebuilt_lineTokens options lineNumber second.toList
  have tokensFirst := lineTokens_retained options lineNumber first.toList
  have tokensSecond := lineTokens_retained options lineNumber second.toList
  rw [String.ofList_toList]
    at rebuiltFirst rebuiltSecond tokensFirst tokensSecond
  refine ⟨⟨?_, ?_⟩, rebuiltFirst⟩
  · intro sameTokens
    rw [← rebuiltFirst, ← rebuiltSecond, sameTokens]
  · intro sameRetained
    rw [← tokensFirst, ← tokensSecond, sameRetained]

/--
The column of `b` tells of both spaces before it, and nothing tells of `c`.
-/
example :
    rebuilt { dropsEmptyWords := true }
        (lineTokens { dropsEmptyWords := true } 1 "a  b c") =
      "a  b".toList := by
  decide

end StatementLexer
