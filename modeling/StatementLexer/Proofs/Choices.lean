import Mathlib.Data.List.Nodup
import StatementLexer.Proofs.Splitting

namespace StatementLexer

/-!
# What each option changes

Under different options a lexer asks for its lines at different times, as more
or fewer lines have no token.  In the end it has read the same lines and met the
same fault.  This module compares whole reports: dropping empty words removes
the tokens with an empty text, not keeping last words removes the last token of
each line that ends in a word, and neither option moves or changes any other
token or depends on the other option.
-/

/-- Whether a token is the last one of its line and that line ends in a word. -/
def isLastWord
    (lines : List String)
    (tokens : List Token)
    (token : Token) : Bool :=
  (lines[token.location.line - 1]?.any fun line => EndsInWord line.toList) &&
    (tokens.filter fun other =>
      other.location.line = token.location.line).getLast? = some token

/-!
## Empty words
-/

/--
Dropping empty words removes the tokens with an empty text.  A last word that is
a token is not among them.
-/
theorem lineTokens_droppingEmptyWords
    (keepsLastWord : Bool)
    (lineNumber : Nat)
    (line : List Char) :
    lineTokens { keepsLastWord, dropsEmptyWords := true } lineNumber
        (String.ofList line) =
      (lineTokens { keepsLastWord, dropsEmptyWords := false } lineNumber
        (String.ofList line)).filter fun token => token.text ≠ "" := by
  obtain ⟨completed, last, shape⟩ := exists_splitOn_eq_append_last ' ' line
  rw [lineTokens_of_splitOn shape, lineTokens_of_splitOn shape,
    List.filter_append, List.filter_filter]
  congr 1
  · apply List.filter_congr
    intro token _
    simp [Options.admits]
  · simp only [lastToken]
    split
    next kept =>
      have nonempty : last ≠ [] := by simp_all
      simp [Token.ofWord, nonempty]
    next =>
      rfl

/-- Dropping empty words takes the tokens without a text out of any lines. -/
theorem numberedTokens_droppingEmptyWords
    (keepsLastWord : Bool)
    (linesRead : Nat)
    (lines : List String) :
    numberedTokens { keepsLastWord, dropsEmptyWords := true } linesRead lines =
      (numberedTokens { keepsLastWord, dropsEmptyWords := false } linesRead
        lines).filter fun token => token.text ≠ "" := by
  induction lines generalizing linesRead with
  | nil =>
      rfl
  | cons line rest inductionHypothesis =>
      have first :=
        lineTokens_droppingEmptyWords keepsLastWord (linesRead + 1) line.toList
      rw [String.ofList_toList] at first
      rw [numberedTokens, numberedTokens, List.filter_append, ← first,
        inductionHypothesis]

/-!
## Last words
-/

/-- No token of a line occurs twice, since columns rise. -/
theorem nodup_lineTokens
    (options : Options)
    (lineNumber : Nat)
    (line : String) :
    (lineTokens options lineNumber line).Nodup := by
  rw [lineTokens_eq]
  apply (pairwise_segmentTokens options _ line.toList).imp
  rintro earlier later before rfl
  exact earlier.location.not_before_self before

/--
A list without its last item has the items that differ from it, if each occurs
once.
-/
theorem filter_ne_getLast?
    {α : Type}
    [DecidableEq α]
    {items : List α}
    (nodup : items.Nodup) :
    items.filter (fun item => items.getLast? ≠ some item) = items.dropLast := by
  rcases List.eq_nil_or_concat items with rfl | ⟨earlier, last, rfl⟩
  · rfl
  · rw [List.concat_eq_append] at nodup ⊢
    have absent : last ∉ earlier := by
      intro member
      exact (List.nodup_append.mp nodup).2.2 last member last (by simp) rfl
    simp only [List.getLast?_concat, List.dropLast_concat, List.filter_append]
    have kept :
        earlier.filter (fun item => some last ≠ some item) = earlier := by
      rw [List.filter_eq_self]
      intro item member
      simp only [decide_eq_true_eq]
      rintro ⟨⟩
      exact absent member
    rw [kept]
    simp

/-- A line that ends in a word has a token when last words are kept. -/
theorem lineTokens_ne_nil_of_endsInWord
    {line : List Char}
    (endsInWord : EndsInWord line)
    (dropsEmptyWords : Bool)
    (lineNumber : Nat) :
    lineTokens { keepsLastWord := true, dropsEmptyWords } lineNumber
        (String.ofList line) ≠ [] := by
  obtain ⟨completed, last, shape⟩ := exists_splitOn_eq_append_last ' ' line
  rw [endsInWord_iff_of_splitOn shape] at endsInWord
  rw [lineTokens_of_splitOn shape]
  simp [lastToken, endsInWord]

section LastWords

variable
  {lines : List String}
  {line : String}
  {index : Nat}

/--
Whether a token is the last word of its line can be seen in that line alone.
-/
theorem isLastWord_of_mem
    {options : Options}
    {token : Token}
    (found : lines[index]? = some line)
    (member : token ∈ lineTokens options (index + 1) line) :
    isLastWord lines (numberedTokens options 0 lines) token =
      (decide (EndsInWord line.toList) &&
        decide
          ((lineTokens options (index + 1) line).getLast? = some token)) := by
  have number : token.location.line = index + 1 :=
    (mem_lineTokens_iff.mp member).2.1
  have own := filter_line_numberedTokens found options 0
  rw [Nat.zero_add] at own
  rw [isLastWord, number, own, Nat.add_sub_cancel, found, Option.any_some]

/-- A line loses its last word if the options no longer keep it. -/
theorem lineTokens_eq_filter_not_isLastWord
    (found : lines[index]? = some line)
    (dropsEmptyWords : Bool) :
    let kept : Options := { keepsLastWord := true, dropsEmptyWords }
    lineTokens { keepsLastWord := false, dropsEmptyWords } (index + 1) line =
      (lineTokens kept (index + 1) line).filter fun token =>
        !isLastWord lines (numberedTokens kept 0 lines) token := by
  intro kept
  have withoutLast :=
    lineTokens_withoutLastWord dropsEmptyWords (index + 1) line.toList
  rw [String.ofList_toList] at withoutLast
  rw [withoutLast]
  have seen :
      (lineTokens kept (index + 1) line).filter
          (fun token => !isLastWord lines (numberedTokens kept 0 lines) token) =
        (lineTokens kept (index + 1) line).filter fun token =>
          !(decide (EndsInWord line.toList) &&
            decide
              ((lineTokens kept (index + 1) line).getLast? = some token)) := by
    apply List.filter_congr
    intro token member
    rw [isLastWord_of_mem found member]
  rw [seen]
  split
  next endsInWord =>
    rw [← filter_ne_getLast? (nodup_lineTokens kept (index + 1) line)]
    simp [endsInWord]
  next noWord =>
    simp [noWord, kept]

/-- A line that ends in a word has a last word. -/
theorem exists_isLastWord
    (found : lines[index]? = some line)
    (endsInWord : EndsInWord line.toList)
    (dropsEmptyWords : Bool) :
    let kept : Options := { keepsLastWord := true, dropsEmptyWords }
    ∃ token ∈ numberedTokens kept 0 lines,
      token.location.line = index + 1 ∧
        isLastWord lines (numberedTokens kept 0 lines) token := by
  intro kept
  have nonempty :=
    lineTokens_ne_nil_of_endsInWord endsInWord dropsEmptyWords (index + 1)
  rw [String.ofList_toList] at nonempty
  have last := List.getLast?_eq_some_getLast nonempty
  have member := List.getLast_mem nonempty
  refine ⟨_, mem_numberedTokens_iff.mpr ⟨index, line, found, ?_⟩,
    (mem_lineTokens_iff.mp member).2.1, ?_⟩
  · rw [Nat.zero_add]
    exact member
  · rw [isLastWord_of_mem found member]
    simp [endsInWord, last]

end LastWords

/--
Lines lose their last words if the options no longer keep them.  Which words
these are depends on all tokens, and is seen line by line.
-/
theorem numberedTokens_eq_filter_not_isLastWord
    (lines : List String)
    (dropsEmptyWords : Bool) :
    let kept : Options := { keepsLastWord := true, dropsEmptyWords }
    numberedTokens { keepsLastWord := false, dropsEmptyWords } 0 lines =
      (numberedTokens kept 0 lines).filter fun token =>
        !isLastWord lines (numberedTokens kept 0 lines) token := by
  intro kept
  generalize predicate :
    (fun token => !isLastWord lines (numberedTokens kept 0 lines) token) =
      remains
  rw [numberedTokens_eq_flatten, numberedTokens_eq_flatten, List.filter_flatten]
  congr 1
  apply List.ext_getElem
  · simp
  · intro index within _
    rw [List.length_mapIdx] at within
    simp only [List.getElem_mapIdx, List.getElem_map, Nat.zero_add, ← predicate]
    exact lineTokens_eq_filter_not_isLastWord (List.getElem?_eq_getElem within)
      dropsEmptyWords

/--
Whatever a feed has in store, the same number of lines is read under all
options, and if there is a fault, it is the same one.  If there is none,
dropping empty words removes the tokens with an empty text and no others,
whether or not last words are kept.  Not keeping last words removes the last
token of each line that ends in a word, which has one, and no others, whether or
not empty words are dropped.
-/
theorem ofFeed_options_apart
    {ε : Type}
    (file : String)
    (feed : Feed ε) :
    let lines := Feed.goodLines feed.upcoming
    (∀ options, (Lexer.ofFeed options feed).rest.2.linesRead = lines.length) ∧
      ((∃ error, ∀ options, Report.ofFeed options file feed = .error error) ∨
        ∃ tokens : Bool → Bool → List Token,
          (∀ keepsLastWord dropsEmptyWords,
            Report.ofFeed { keepsLastWord, dropsEmptyWords } file feed =
              .ok {
                file := file
                lines := lines.length
                tokens := tokens keepsLastWord dropsEmptyWords }) ∧
            (∀ keepsLastWord,
              tokens keepsLastWord true =
                (tokens keepsLastWord false).filter fun token =>
                  token.text ≠ "") ∧
            ∀ dropsEmptyWords,
              tokens false dropsEmptyWords =
                  ((tokens true dropsEmptyWords).filter fun token =>
                    !isLastWord lines (tokens true dropsEmptyWords) token) ∧
                ∀ index line,
                  lines[index]? = some line → EndsInWord line.toList →
                    ∃ token ∈ tokens true dropsEmptyWords,
                      token.location.line = index + 1 ∧
                        isLastWord lines (tokens true dropsEmptyWords)
                          token) := by
  intro lines
  constructor
  · intro options
    rw [Lexer.linesRead_rest]
    simp [Lexer.linesInAll, Lexer.ofFeed, lines]
  · cases fault : Feed.firstFault? feed.upcoming with
    | some error =>
        left
        refine ⟨error, ?_⟩
        intro options
        rw [Report.ofFeed_eq, fault]
    | none =>
        right
        refine ⟨fun keepsLastWord dropsEmptyWords =>
          numberedTokens { keepsLastWord, dropsEmptyWords } 0 lines, ?_, ?_, ?_⟩
        · intro keepsLastWord dropsEmptyWords
          rw [Report.ofFeed_eq, fault]
        · intro keepsLastWord
          exact numberedTokens_droppingEmptyWords keepsLastWord 0 lines
        · intro dropsEmptyWords
          refine
            ⟨numberedTokens_eq_filter_not_isLastWord lines dropsEmptyWords, ?_⟩
          intro index line found endsInWord
          exact exists_isLastWord found endsInWord dropsEmptyWords

end StatementLexer
