import StatementLexer.Feed
import StatementLexer.Line

namespace StatementLexer

/-!
# Lexers

A lexer hands out the tokens of a feed's lines one by one.  It asks the feed for
a line only when every token of the earlier lines has been handed out.  The
first fault of the feed, or the first time it has nothing to give, ends the
lexer for good: the fault is handed out once, the feed is not asked again, and
everything after that is nothing.
-/

/-- A giver of tokens over a feed of lines. -/
structure Lexer (ε : Type) where
  options : Options
  feed : Feed ε
  /-- The tokens of the latest line that have not been handed out. -/
  pending : List Token := []
  /-- How many lines the feed has given. -/
  linesRead : Nat := 0
  /-- Whether the feed has failed or run dry. -/
  ended : Bool := false
  deriving Repr, DecidableEq

namespace Lexer

/-- A lexer that has not asked its feed for anything. -/
def ofFeed
    {ε : Type}
    (options : Options)
    (feed : Feed ε) : Lexer ε where
  options := options
  feed := feed

/-- A lexer whose feed has failed or run dry. -/
def exhausted
    {ε : Type}
    (options : Options)
    (linesRead : Nat)
    (feed : Feed ε) : Lexer ε where
  options := options
  feed := feed
  linesRead := linesRead
  ended := true

/--
Asks for lines until one has a token, and hands that token out.

The lines come from the answers that the feed has in store; `linesRead` and
`pulled` count the lines and the requests before this one.
-/
def refill
    {ε : Type}
    (options : Options)
    (linesRead pulled : Nat) :
    List (Answer ε String) → Answer ε Token × Lexer ε
  | [] =>
      (.nothing,
        exhausted options linesRead { upcoming := [], pulled := pulled + 1 })
  | .nothing :: rest =>
      (.nothing,
        exhausted options linesRead { upcoming := rest, pulled := pulled + 1 })
  | .fault error :: rest =>
      (.fault error,
        exhausted options linesRead { upcoming := rest, pulled := pulled + 1 })
  | .item line :: rest =>
      match lineTokens options (linesRead + 1) line with
      | [] =>
          refill options (linesRead + 1) (pulled + 1) rest
      | token :: others =>
          (.item token,
            { options := options
              feed := { upcoming := rest, pulled := pulled + 1 }
              pending := others
              linesRead := linesRead + 1 })

/-- Hands out the next token, the fault of the feed, or nothing. -/
def next
    {ε : Type}
    (lexer : Lexer ε) : Answer ε Token × Lexer ε :=
  match lexer.pending with
  | token :: others =>
      (.item token, { lexer with pending := others })
  | [] =>
      if lexer.ended then
        (.nothing, lexer)
      else
        refill lexer.options lexer.linesRead lexer.feed.pulled
          lexer.feed.upcoming

/--
A token found by asking for lines comes from a line that is no longer in store.
-/
theorem length_upcoming_lt_of_refill
    {ε : Type}
    {options : Options}
    {linesRead pulled : Nat}
    {answers : List (Answer ε String)}
    {token : Token}
    {after : Lexer ε}
    (found : refill options linesRead pulled answers = (.item token, after)) :
    after.feed.upcoming.length < answers.length := by
  fun_induction refill options linesRead pulled answers with
  | case1 | case2 | case3 =>
      simp at found
  | case4 linesRead pulled line rest empty inductionHypothesis =>
      have shorter := inductionHypothesis found
      simp only [List.length_cons]
      omega
  | case5 linesRead pulled line rest first others tokens =>
      simp only [Prod.mk.injEq] at found
      rw [← found.2]
      simp

/-- Handing out a token uses up a stored line or a pending token. -/
theorem remaining_lt_of_next
    {ε : Type}
    {lexer after : Lexer ε}
    {token : Token}
    (found : lexer.next = (.item token, after)) :
    after.feed.upcoming.length < lexer.feed.upcoming.length ∨
      after.feed.upcoming.length = lexer.feed.upcoming.length ∧
        after.pending.length < lexer.pending.length := by
  unfold next at found
  split at found
  next first others pendingShape =>
    simp only [Prod.mk.injEq] at found
    right
    rw [← found.2, pendingShape]
    simp
  next =>
    split at found
    · simp at found
    · exact Or.inl (length_upcoming_lt_of_refill found)

/--
Hands out everything that is left.

A fault takes the place of the tokens before it, and the lexer stays where the
fault left it.
-/
def rest
    {ε : Type}
    (lexer : Lexer ε) : Except ε (List Token) × Lexer ε :=
  match _ : lexer.next with
  | (.nothing, after) =>
      (.ok [], after)
  | (.fault error, after) =>
      (.error error, after)
  | (.item token, after) =>
      let handed := after.rest
      (handed.1.map (token :: ·), handed.2)
termination_by (lexer.feed.upcoming.length, lexer.pending.length)
decreasing_by
  rcases remaining_lt_of_next ‹_› with fewerLines | ⟨sameLines, fewerPending⟩
  · exact Prod.Lex.left _ _ fewerLines
  · rw [sameLines]
    exact Prod.Lex.right _ fewerPending

end Lexer

end StatementLexer
