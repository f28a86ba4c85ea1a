import Mathlib.Order.Bounds.Defs
import StatementLexer.Proofs.Trace

namespace StatementLexer

/-!
# Reading on demand

How far a lexer has read cannot be told from its tokens.  This module counts: a
line is asked for only when a call needs a token that no earlier line has, no
line is asked for after the good lines have ended, and the feed always stands
right behind the answers that it has given.
-/

namespace Feed

/-- A feed that has been asked a number of times. -/
def afterAsking
    {ε : Type}
    (feed : Feed ε) :
    Nat → Feed ε
  | 0 => feed
  | times + 1 => feed.next.2.afterAsking times

/--
Each time it is asked, a feed loses one stored answer, if it has one, and
counts.
-/
theorem afterAsking_eq
    {ε : Type}
    (feed : Feed ε)
    (times : Nat) :
    feed.afterAsking times =
      { upcoming := feed.upcoming.drop times
        pulled := feed.pulled + times } := by
  induction times generalizing feed with
  | zero =>
      rfl
  | succ times inductionHypothesis =>
      obtain ⟨upcoming, pulled⟩ := feed
      cases upcoming with
      | nil =>
          simp [afterAsking, next, inductionHypothesis, Nat.add_right_comm,
            Nat.add_assoc]
      | cons answer rest =>
          simp [afterAsking, next, inductionHypothesis, Nat.add_right_comm,
            Nat.add_assoc]

/-- Leaving good lines out leaves the good lines behind them. -/
theorem goodLines_drop
    {ε : Type}
    {answers : List (Answer ε String)}
    {count : Nat}
    (available : count ≤ (goodLines answers).length) :
    goodLines (answers.drop count) = (goodLines answers).drop count := by
  induction count generalizing answers with
  | zero =>
      rfl
  | succ count inductionHypothesis =>
      cases answers with
      | nil =>
          simp [goodLines] at available
      | cons answer rest =>
          cases answer with
          | item line =>
              simp only [goodLines, List.length_cons] at available
              simpa [goodLines] using
                inductionHypothesis (Nat.le_of_succ_le_succ available)
          | fault error =>
              simp [goodLines] at available
          | nothing =>
              simp [goodLines] at available

end Feed

/-- How many tokens the first lines have. -/
def tokensOfFirst
    (options : Options)
    (lines : List String)
    (count : Nat) : Nat :=
  (numberedTokens options 0 (lines.take count)).length

/-- One more line adds the tokens of that line. -/
theorem tokensOfFirst_succ
    (options : Options)
    {lines rest : List String}
    {line : String}
    {count : Nat}
    (shape : lines.drop count = line :: rest) :
    tokensOfFirst options lines (count + 1) =
      tokensOfFirst options lines count +
        (lineTokens options (count + 1) line).length := by
  have lengths := congrArg List.length shape
  simp only [List.length_drop, List.length_cons] at lengths
  have countLe : count ≤ lines.length := by omega
  have taken : lines.take (count + 1) = lines.take count ++ [line] := by
    rw [List.take_add_one, ← List.head?_drop, shape]
    rfl
  simp [tokensOfFirst, taken, numberedTokens_append, numberedTokens,
    List.length_take_of_le countLe]

/-- More lines have no fewer tokens. -/
theorem tokensOfFirst_mono
    (options : Options)
    (lines : List String)
    {fewer more : Nat}
    (fewerLe : fewer ≤ more) :
    tokensOfFirst options lines fewer ≤ tokensOfFirst options lines more := by
  have split :
      lines.take more = lines.take fewer ++ (lines.take more).drop fewer := by
    have whole := List.take_append_drop fewer (lines.take more)
    rw [List.take_take, Nat.min_eq_left fewerLe] at whole
    exact whole.symm
  rw [tokensOfFirst, tokensOfFirst, split, numberedTokens_append,
    List.length_append]
  exact Nat.le_add_right _ _

namespace Lexer

/--
Where a lexer over the given answers stands after a number of calls.

While the tokens of the good lines last, it has read some number of lines, has
handed out all but the pending tokens of them, and could not have done with
fewer lines.  After that the feed has been asked once more.
-/
inductive Standing
    {ε : Type}
    (options : Options)
    (answers : List (Answer ε String))
    (calls : Nat) :
    Lexer ε → Prop where
  | within
      (count : Nat)
      (pending : List Token)
      (available : count ≤ (Feed.goodLines answers).length)
      (handed :
        calls + pending.length =
          tokensOfFirst options (Feed.goodLines answers) count)
      (needed :
        ∀ fewer < count,
          tokensOfFirst options (Feed.goodLines answers) fewer < calls) :
      Standing options answers calls
        { options := options
          feed := { upcoming := answers.drop count, pulled := count }
          pending := pending
          linesRead := count }
  | past
      (count : Nat)
      (all : count = (Feed.goodLines answers).length)
      (exceeded :
        tokensOfFirst options (Feed.goodLines answers) count < calls) :
      Standing options answers calls
        (exhausted options count
          { upcoming := answers.drop (count + 1), pulled := count + 1 })

/-- A new lexer stands before its first line. -/
theorem standing_ofFeed
    {ε : Type}
    (options : Options)
    (answers : List (Answer ε String)) :
    Standing options answers 0 (ofFeed options { upcoming := answers }) :=
  .within 0 [] (Nat.zero_le _) rfl (by simp)

/-- A call that needs more than the good lines have ends the lexer. -/
theorem standing_exhausted
    {ε : Type}
    {options : Options}
    {answers rest : List (Answer ε String)}
    {count calls : Nat}
    (shape : answers.drop count = rest)
    (available : count ≤ (Feed.goodLines answers).length)
    (handed :
      tokensOfFirst options (Feed.goodLines answers) count = calls)
    (none : Feed.goodLines rest = []) :
    Standing options answers (calls + 1)
      (exhausted options count
        { upcoming := rest.tail, pulled := count + 1 }) := by
  have noneLeft := Feed.goodLines_drop available
  rw [shape, none, eq_comm, List.drop_eq_nil_iff] at noneLeft
  have following : rest.tail = answers.drop (count + 1) := by
    rw [← shape, List.tail_drop]
  rw [following]
  exact .past count (Nat.le_antisymm available noneLeft) (by omega)

/--
A call that finds all tokens of the lines read so far handed out asks for lines
up to the first one that has a token, or up to the end of the good lines.  After
a line without tokens it is still true that all have been handed out.
-/
theorem standing_refill
    {ε : Type}
    {options : Options}
    {answers rest : List (Answer ε String)}
    {count calls : Nat}
    (shape : answers.drop count = rest)
    (available : count ≤ (Feed.goodLines answers).length)
    (handed :
      tokensOfFirst options (Feed.goodLines answers) count = calls) :
    Standing options answers (calls + 1)
      (refill options count count rest).2 := by
  induction rest generalizing count with
  | nil =>
      exact standing_exhausted shape available handed rfl
  | cons answer rest inductionHypothesis =>
      cases answer with
      | nothing =>
          exact standing_exhausted shape available handed rfl
      | fault error =>
          exact standing_exhausted shape available handed rfl
      | item line =>
          have goodShape :
              (Feed.goodLines answers).drop count =
                line :: Feed.goodLines rest := by
            rw [← Feed.goodLines_drop available, shape, Feed.goodLines]
          have lengths := congrArg List.length goodShape
          simp only [List.length_drop, List.length_cons] at lengths
          have oneMore : count + 1 ≤ (Feed.goodLines answers).length := by
            omega
          have following : answers.drop (count + 1) = rest := by
            rw [← List.tail_drop, shape, List.tail_cons]
          have added := tokensOfFirst_succ options goodShape
          rw [handed] at added
          unfold refill
          split
          next empty =>
            rw [empty, List.length_nil, Nat.add_zero] at added
            exact inductionHypothesis following oneMore added
          next token others found =>
            rw [found, List.length_cons] at added
            simp only [← following]
            refine .within (count + 1) others oneMore (by omega) ?_
            intro fewer fewerLt
            have atMost :=
              tokensOfFirst_mono options (Feed.goodLines answers)
                (Nat.le_of_lt_succ fewerLt)
            omega

/-- One more call keeps the lexer in step with the lines that are needed. -/
theorem standing_next
    {ε : Type}
    {options : Options}
    {answers : List (Answer ε String)}
    {calls : Nat}
    {lexer : Lexer ε}
    (standing : Standing options answers calls lexer) :
    Standing options answers (calls + 1) lexer.next.2 := by
  cases standing with
  | within count pending available handed needed =>
      cases pending with
      | nil =>
          exact standing_refill rfl available handed.symm
      | cons token others =>
          rw [List.length_cons] at handed
          refine .within count others available (by omega) ?_
          intro fewer fewerLt
          exact Nat.lt_succ_of_lt (needed fewer fewerLt)
  | past count all exceeded =>
      exact .past count all (Nat.lt_succ_of_lt exceeded)

/-- Any number of calls keeps the lexer in step with the lines needed. -/
theorem standing_nextMany
    {ε : Type}
    {options : Options}
    {answers : List (Answer ε String)}
    {calls : Nat}
    {lexer : Lexer ε}
    (standing : Standing options answers calls lexer)
    (more : Nat) :
    Standing options answers (calls + more) (lexer.nextMany more).2 := by
  induction more generalizing calls lexer with
  | zero =>
      exact standing
  | succ more inductionHypothesis =>
      have later := inductionHypothesis (standing_next standing)
      rw [Nat.add_right_comm, Nat.add_assoc] at later
      exact later

/--
The feed of a lexer is the feed that it was given after the requests made so
far.
-/
theorem Standing.feed_eq
    {ε : Type}
    {options : Options}
    {answers : List (Answer ε String)}
    {calls : Nat}
    {lexer : Lexer ε}
    (standing : Standing options answers calls lexer) :
    lexer.feed =
      Feed.afterAsking { upcoming := answers } lexer.feed.pulled := by
  cases standing with
  | within =>
      simp [Feed.afterAsking_eq]
  | past =>
      simp [Feed.afterAsking_eq, exhausted]

/-- What a lexer has read and asked for, by how many calls there were. -/
theorem Standing.counts
    {ε : Type}
    {options : Options}
    {answers : List (Answer ε String)}
    {calls : Nat}
    {lexer : Lexer ε}
    (standing : Standing options answers calls lexer) :
    if calls ≤
        tokensOfFirst options (Feed.goodLines answers)
          (Feed.goodLines answers).length then
      IsLeast
          {count |
            calls ≤ tokensOfFirst options (Feed.goodLines answers) count}
          lexer.linesRead ∧
        lexer.feed.pulled = lexer.linesRead
    else
      lexer.linesRead = (Feed.goodLines answers).length ∧
        lexer.feed.pulled = (Feed.goodLines answers).length + 1 := by
  cases standing with
  | within count pending available handed needed =>
      have enough :
          calls ≤ tokensOfFirst options (Feed.goodLines answers) count :=
        Nat.le.intro handed
      have enoughInAll :=
        Nat.le_trans enough
          (tokensOfFirst_mono options (Feed.goodLines answers) available)
      rw [if_pos enoughInAll]
      refine ⟨⟨enough, ?_⟩, rfl⟩
      intro other otherEnough
      apply Nat.le_of_not_lt
      intro smaller
      exact Nat.not_le_of_lt (needed other smaller) otherEnough
  | past count all exceeded =>
      subst all
      rw [if_neg (Nat.not_le_of_lt exceeded)]
      exact ⟨rfl, rfl⟩

/--
A new lexer reads on demand.  After any number of calls that the tokens of the
good lines can answer, it has asked for as many lines as have that many tokens
and for no more; after more calls than that it has asked once past the good
lines, however many calls there were.  Its feed is always the feed it was given
after exactly these requests.
-/
theorem reads_on_demand
    {ε : Type}
    (options : Options)
    (answers : List (Answer ε String))
    (calls : Nat) :
    let feed : Feed ε := { upcoming := answers }
    let lexer := ((ofFeed options feed).nextMany calls).2
    let lines := Feed.goodLines answers
    (if calls ≤ tokensOfFirst options lines lines.length then
      IsLeast {count | calls ≤ tokensOfFirst options lines count}
          lexer.linesRead ∧
        lexer.feed.pulled = lexer.linesRead
    else
      lexer.linesRead = lines.length ∧
        lexer.feed.pulled = lines.length + 1) ∧
      lexer.feed.upcoming = answers.drop lexer.feed.pulled ∧
      lexer.feed = feed.afterAsking lexer.feed.pulled := by
  intro feed lexer lines
  have standing : Standing options answers calls lexer := by
    have all := standing_nextMany (standing_ofFeed options answers) calls
    rwa [Nat.zero_add] at all
  have stored : lexer.feed.upcoming = answers.drop lexer.feed.pulled := by
    have upcoming := congrArg Feed.upcoming standing.feed_eq
    rwa [Feed.afterAsking_eq] at upcoming
  exact ⟨standing.counts, stored, standing.feed_eq⟩

end Lexer

end StatementLexer
