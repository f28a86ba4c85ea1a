import StatementLexer.Report.Basic

namespace StatementLexer

/-!
# What is left to hand out

The state of a lexer mixes tokens of the latest line, a counter, and a feed that
may go on after it has failed.  Seen from outside all of this comes down to a
plain list of tokens and perhaps one fault behind them.  This module says which
list that is and shows that handing out, one token at a time or all at once, is
taking from it.  A report of a feed is that list together with the number of
lines that it comes from.
-/

namespace Feed

/--
The lines that are given before the first fault or the first time nothing is
given.
-/
def goodLines
    {ε : Type} :
    List (Answer ε String) → List String
  | .item line :: rest => line :: goodLines rest
  | _ => []

/-- The fault that ends the good lines, if it is a fault that ends them. -/
def firstFault?
    {ε : Type} :
    List (Answer ε String) → Option ε
  | .item _ :: rest => firstFault? rest
  | .fault error :: _ => some error
  | _ => none

end Feed

/--
The tokens of lines in their order, where `linesRead` lines come before them.
-/
def numberedTokens
    (options : Options)
    (linesRead : Nat) :
    List String → List Token
  | [] => []
  | line :: rest =>
      lineTokens options (linesRead + 1) line ++
        numberedTokens options (linesRead + 1) rest

/-- The lines of two runs of lines are numbered on through both. -/
theorem numberedTokens_append
    (options : Options)
    (linesRead : Nat)
    (first second : List String) :
    numberedTokens options linesRead (first ++ second) =
      numberedTokens options linesRead first ++
        numberedTokens options (linesRead + first.length) second := by
  induction first generalizing linesRead with
  | nil =>
      simp [numberedTokens]
  | cons line rest inductionHypothesis =>
      simp only [List.cons_append, numberedTokens, inductionHypothesis,
        List.length_cons, List.append_assoc]
      rw [Nat.add_right_comm, Nat.add_assoc linesRead]

/-- The tokens of lines are those of each line with its number. -/
theorem numberedTokens_eq_flatten
    (options : Options)
    (linesRead : Nat)
    (lines : List String) :
    numberedTokens options linesRead lines =
      (lines.mapIdx fun index line =>
        lineTokens options (linesRead + index + 1) line).flatten := by
  induction lines generalizing linesRead with
  | nil =>
      rfl
  | cons line rest inductionHypothesis =>
      rw [numberedTokens, inductionHypothesis, List.mapIdx_cons,
        List.flatten_cons]
      simp only [Nat.add_zero, Nat.add_right_comm linesRead 1, Nat.add_assoc]

/--
Tokens that are still to be handed out and the fault behind them, if there is
one.
-/
structure Remainder (ε : Type) where
  tokens : List Token := []
  fault : Option ε := none
  deriving Repr, DecidableEq

namespace Remainder

/-- Takes the first token, or the fault once the tokens are used up. -/
def next
    {ε : Type} :
    Remainder ε → Answer ε Token × Remainder ε
  | ⟨token :: others, fault⟩ => (.item token, ⟨others, fault⟩)
  | ⟨[], some error⟩ => (.fault error, {})
  | ⟨[], none⟩ => (.nothing, {})

/-- Takes everything; a fault takes the place of the tokens before it. -/
def rest
    {ε : Type} :
    Remainder ε → Except ε (List Token) × Remainder ε
  | ⟨_, some error⟩ => (.error error, {})
  | ⟨tokens, none⟩ => (.ok tokens, {})

/--
Taking everything is taking one entry after the other up to the end or a fault.
-/
theorem rest_eq_next
    {ε : Type}
    (remainder : Remainder ε) :
    remainder.rest =
      match remainder.next with
      | (.nothing, after) => (.ok [], after)
      | (.fault error, after) => (.error error, after)
      | (.item token, after) =>
          (after.rest.1.map (token :: ·), after.rest.2) := by
  obtain ⟨tokens, fault⟩ := remainder
  cases tokens with
  | nil =>
      cases fault <;> rfl
  | cons token others =>
      cases fault <;> rfl

end Remainder

namespace Lexer

/-- What a lexer still has to hand out. -/
def remainder
    {ε : Type}
    (lexer : Lexer ε) : Remainder ε :=
  if lexer.ended then
    { tokens := lexer.pending }
  else
    { tokens :=
        lexer.pending ++
          numberedTokens lexer.options lexer.linesRead
            (Feed.goodLines lexer.feed.upcoming)
      fault := Feed.firstFault? lexer.feed.upcoming }

@[simp] theorem remainder_exhausted
    {ε : Type}
    (options : Options)
    (linesRead : Nat)
    (feed : Feed ε) :
    (exhausted options linesRead feed).remainder = {} := by
  simp [remainder, exhausted]

/--
A new lexer has all tokens of the good lines left, and the fault behind them.
-/
theorem remainder_ofFeed
    {ε : Type}
    (options : Options)
    (feed : Feed ε) :
    (ofFeed options feed).remainder =
      { tokens := numberedTokens options 0 (Feed.goodLines feed.upcoming)
        fault := Feed.firstFault? feed.upcoming } := by
  simp [remainder, ofFeed]

/-- Asking for lines takes the next entry of what those lines have to give. -/
theorem refill_remainder
    {ε : Type}
    (options : Options)
    (linesRead pulled : Nat)
    (answers : List (Answer ε String)) :
    (refill options linesRead pulled answers).map id remainder =
      Remainder.next
        { tokens := numberedTokens options linesRead (Feed.goodLines answers)
          fault := Feed.firstFault? answers } := by
  fun_induction refill options linesRead pulled answers with
  | case1 | case2 | case3 =>
      simp [Feed.goodLines, Feed.firstFault?, numberedTokens, Remainder.next]
  | case4 linesRead pulled line rest empty inductionHypothesis =>
      rw [inductionHypothesis]
      simp [Feed.goodLines, Feed.firstFault?, numberedTokens, empty]
  | case5 linesRead pulled line rest token others found =>
      simp [Feed.goodLines, Feed.firstFault?, numberedTokens, found,
        Remainder.next, remainder]

/-- Handing out the next token takes the first entry of what is left. -/
theorem next_remainder
    {ε : Type}
    (lexer : Lexer ε) :
    lexer.next.map id remainder = lexer.remainder.next := by
  unfold next
  split
  next token others pendingShape =>
    by_cases ended : lexer.ended
    · simp [remainder, ended, pendingShape, Remainder.next]
    · simp [remainder, ended, pendingShape, Remainder.next]
  next pendingShape =>
    by_cases ended : lexer.ended
    · simp [remainder, ended, pendingShape, Remainder.next]
    · simp [refill_remainder, remainder, ended, pendingShape]

/-- Handing out everything takes all that is left. -/
theorem rest_remainder
    {ε : Type}
    (lexer : Lexer ε) :
    lexer.rest.map id remainder = lexer.remainder.rest := by
  fun_induction rest lexer with
  | case1 lexer after found =>
      have taken := next_remainder lexer
      rw [found] at taken
      rw [Remainder.rest_eq_next, ← taken]
      rfl
  | case2 lexer error after found =>
      have taken := next_remainder lexer
      rw [found] at taken
      rw [Remainder.rest_eq_next, ← taken]
      rfl
  | case3 lexer token after found handed inductionHypothesis =>
      have taken := next_remainder lexer
      rw [found] at taken
      rw [Remainder.rest_eq_next, ← taken]
      simp only [Prod.map, id_eq, ← inductionHypothesis]
      rfl

/-- How many lines a lexer will have read when it ends. -/
def linesInAll
    {ε : Type}
    (lexer : Lexer ε) : Nat :=
  if lexer.ended then
    lexer.linesRead
  else
    lexer.linesRead + (Feed.goodLines lexer.feed.upcoming).length

/-- Looking for the next line keeps the number of lines in all. -/
theorem linesInAll_refill
    {ε : Type}
    (options : Options)
    (linesRead pulled : Nat)
    (answers : List (Answer ε String)) :
    (refill options linesRead pulled answers).2.linesInAll =
      linesRead + (Feed.goodLines answers).length := by
  fun_induction refill options linesRead pulled answers with
  | case1 | case2 | case3 =>
      simp [linesInAll, exhausted, Feed.goodLines]
  | case4 linesRead pulled line rest empty inductionHypothesis =>
      rw [inductionHypothesis]
      simp only [Feed.goodLines, List.length_cons]
      omega
  | case5 linesRead pulled line rest token others found =>
      simp only [linesInAll, Bool.false_eq_true, ↓reduceIte, Feed.goodLines,
        List.length_cons]
      omega

/-- Handing out a token keeps the number of lines in all. -/
theorem linesInAll_next
    {ε : Type}
    (lexer : Lexer ε) :
    lexer.next.2.linesInAll = lexer.linesInAll := by
  unfold next
  split
  next =>
    rfl
  next =>
    by_cases ended : lexer.ended
    · simp [ended]
    · simp only [ended, Bool.false_eq_true, ↓reduceIte, linesInAll_refill]
      simp [linesInAll, ended]

/-- A search for a token that finds none ends the lexer. -/
theorem ended_of_refill
    {ε : Type}
    {options : Options}
    {linesRead pulled : Nat}
    {answers : List (Answer ε String)}
    (none :
      ∀ token, (refill options linesRead pulled answers).1 ≠ .item token) :
    (refill options linesRead pulled answers).2.ended = true := by
  fun_induction refill options linesRead pulled answers with
  | case1 | case2 | case3 =>
      rfl
  | case4 linesRead pulled line rest empty inductionHypothesis =>
      exact inductionHypothesis none
  | case5 linesRead pulled line rest token others found =>
      exact (none token rfl).elim

/-- A lexer that hands out no token has ended. -/
theorem ended_of_next
    {ε : Type}
    {lexer : Lexer ε}
    (none : ∀ token, lexer.next.1 ≠ .item token) :
    lexer.next.2.ended = true := by
  unfold next at none ⊢
  split
  next token others pendingShape =>
    simp only [pendingShape] at none
    exact (none token rfl).elim
  next pendingShape =>
    simp only [pendingShape] at none
    split
    next ended =>
      exact ended
    next ended =>
      simp only [ended, Bool.false_eq_true, ↓reduceIte] at none
      exact ended_of_refill none

/-- After everything has been handed out, all lines have been read. -/
theorem linesRead_rest
    {ε : Type}
    (lexer : Lexer ε) :
    lexer.rest.2.linesRead = lexer.linesInAll := by
  fun_induction rest lexer with
  | case1 lexer after found =>
      have ended : lexer.next.2.ended = true := ended_of_next (by simp [found])
      rw [← linesInAll_next, linesInAll, ended, found]
      rfl
  | case2 lexer error after found =>
      have ended : lexer.next.2.ended = true := ended_of_next (by simp [found])
      rw [← linesInAll_next, linesInAll, ended, found]
      rfl
  | case3 lexer token after found handed inductionHypothesis =>
      rw [inductionHypothesis, ← linesInAll_next lexer, found]

end Lexer

/--
The report of a feed: the fault that ends the good lines, or else the number of
good lines and their tokens.
-/
theorem Report.ofFeed_eq
    {ε : Type}
    (options : Options)
    (file : String)
    (feed : Feed ε) :
    Report.ofFeed options file feed =
      match Feed.firstFault? feed.upcoming with
      | some error => .error error
      | none =>
          .ok {
            file := file
            lines := (Feed.goodLines feed.upcoming).length
            tokens :=
              numberedTokens options 0 (Feed.goodLines feed.upcoming) } := by
  rcases shape : (Lexer.ofFeed options feed).rest with ⟨handed, after⟩
  have taken := Lexer.rest_remainder (Lexer.ofFeed options feed)
  have lines := Lexer.linesRead_rest (Lexer.ofFeed options feed)
  rw [Lexer.remainder_ofFeed, shape] at taken
  rw [shape] at lines
  have handedShape := congrArg Prod.fst taken
  unfold Report.ofFeed
  rw [shape]
  cases fault : Feed.firstFault? feed.upcoming with
  | some error =>
      simp only [fault, Remainder.rest, Prod.map, id_eq] at handedShape
      rw [handedShape]
  | none =>
      simp only [fault, Remainder.rest, Prod.map, id_eq] at handedShape
      simp only [Lexer.linesInAll, Lexer.ofFeed, Bool.false_eq_true, ↓reduceIte,
        Nat.zero_add] at lines
      simp only [handedShape, lines]

namespace Feed

/-- Lines that are given first come first among the good lines. -/
@[simp] theorem goodLines_map_item_append
    {ε : Type}
    (lines : List String)
    (answers : List (Answer ε String)) :
    goodLines (lines.map .item ++ answers) = lines ++ goodLines answers := by
  induction lines with
  | nil =>
      rfl
  | cons line rest inductionHypothesis =>
      simp [goodLines, inductionHypothesis]

/-- Lines that are given first put off a fault and do not prevent it. -/
@[simp] theorem firstFault?_map_item_append
    {ε : Type}
    (lines : List String)
    (answers : List (Answer ε String)) :
    firstFault? (lines.map .item ++ answers) = firstFault? answers := by
  induction lines with
  | nil =>
      rfl
  | cons line rest inductionHypothesis =>
      simp [firstFault?, inductionHypothesis]

@[simp] theorem goodLines_map_item
    {ε : Type}
    (lines : List String) :
    goodLines (lines.map (Answer.item : String → Answer ε String)) = lines := by
  simpa [goodLines] using
    goodLines_map_item_append lines ([] : List (Answer ε String))

@[simp] theorem firstFault?_map_item
    {ε : Type}
    (lines : List String) :
    firstFault? (lines.map (Answer.item : String → Answer ε String)) =
      none := by
  simpa [firstFault?] using
    firstFault?_map_item_append lines ([] : List (Answer ε String))

end Feed

/--
The report of a feed that gives the listed lines counts them and has their
tokens.
-/
theorem Report.ofFeed_ofLines
    {ε : Type}
    (options : Options)
    (file : String)
    (lines : List String) :
    Report.ofFeed options file (Feed.ofLines lines : Feed ε) =
      .ok {
        file := file
        lines := lines.length
        tokens := numberedTokens options 0 lines } := by
  simp [Report.ofFeed_eq, Feed.ofLines]

end StatementLexer
