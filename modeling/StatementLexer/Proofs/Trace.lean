import StatementLexer.Proofs.Remainder

namespace StatementLexer

/-!
# The order in which tokens are handed out

A user of a lexer may call for the next token or for everything that is left, in
any order and as often as it likes.  What such a sequence of requests gets is
fixed by the tokens of the good lines and the fault behind them alone: the calls
walk through the tokens, meet the fault once, and find nothing from then on.
-/

/-- What a user can ask of a lexer. -/
inductive Request where
  /-- The next token. -/
  | next
  /-- Everything that is left. -/
  | rest
  deriving Repr, DecidableEq

/-- What a request is given. -/
inductive Handed (ε : Type) where
  | one (answer : Answer ε Token)
  | all (tokens : Except ε (List Token))

/-- What a request is given when nothing is left. -/
def Request.whenSpent
    {ε : Type} :
    Request → Handed ε
  | .next => .one .nothing
  | .rest => .all (.ok [])

namespace Lexer

/--
The answers to a number of calls for the next token, and the lexer after them.
-/
def nextMany
    {ε : Type}
    (lexer : Lexer ε) :
    Nat → List (Answer ε Token) × Lexer ε
  | 0 => ([], lexer)
  | calls + 1 =>
      let later := lexer.next.2.nextMany calls
      (lexer.next.1 :: later.1, later.2)

def serve
    {ε : Type}
    (lexer : Lexer ε) :
    Request → Handed ε × Lexer ε
  | .next => (.one lexer.next.1, lexer.next.2)
  | .rest => (.all lexer.rest.1, lexer.rest.2)

def serveAll
    {ε : Type}
    (lexer : Lexer ε) :
    List Request → List (Handed ε)
  | [] => []
  | request :: later =>
      (lexer.serve request).1 :: (lexer.serve request).2.serveAll later

end Lexer

namespace Remainder

/--
The answers that are neither the end nor after it: the tokens and then the
fault.
-/
def trace
    {ε : Type}
    (remainder : Remainder ε) : List (Answer ε Token) :=
  remainder.tokens.map .item ++ remainder.fault.toList.map .fault

/-- The answer to the call that follows the given number of calls. -/
def answerAfter
    {ε : Type}
    (remainder : Remainder ε)
    (calls : Nat) : Answer ε Token :=
  remainder.trace[calls]?.getD .nothing

/-- Everything that is left after the given number of calls. -/
def allAfter
    {ε : Type}
    (remainder : Remainder ε)
    (calls : Nat) : Except ε (List Token) :=
  match remainder.fault with
  | some error =>
      if calls ≤ remainder.tokens.length then
        .error error
      else
        .ok []
  | none => .ok (remainder.tokens.drop calls)

/--
What requests are given after a number of calls; nothing follows a request for
all.
-/
def handedAfter
    {ε : Type}
    (remainder : Remainder ε)
    (calls : Nat) :
    List Request → List (Handed ε)
  | [] => []
  | .next :: later =>
      .one (remainder.answerAfter calls) ::
        remainder.handedAfter (calls + 1) later
  | .rest :: later =>
      .all (remainder.allAfter calls) :: later.map Request.whenSpent

/-- What is left after a number of calls. -/
def dropped
    {ε : Type}
    (remainder : Remainder ε)
    (calls : Nat) : Remainder ε where
  tokens := remainder.tokens.drop calls
  fault :=
    if calls ≤ remainder.tokens.length then
      remainder.fault
    else
      none

@[simp] theorem dropped_zero
    {ε : Type}
    (remainder : Remainder ε) :
    remainder.dropped 0 = remainder := by
  simp [dropped]

/-- A call that takes the first token leaves what the others leave. -/
theorem dropped_cons_succ
    {ε : Type}
    (token : Token)
    (others : List Token)
    (fault : Option ε)
    (calls : Nat) :
    dropped ⟨token :: others, fault⟩ (calls + 1) =
      dropped ⟨others, fault⟩ calls := by
  simp [dropped]

/-- Behind the first token, answers are those of the other tokens. -/
theorem answerAfter_cons_succ
    {ε : Type}
    (token : Token)
    (others : List Token)
    (fault : Option ε)
    (calls : Nat) :
    answerAfter ⟨token :: others, fault⟩ (calls + 1) =
      answerAfter ⟨others, fault⟩ calls := by
  simp [answerAfter, trace]

/--
One more call takes the entry of the trace at which the earlier calls stopped.
-/
theorem next_dropped
    {ε : Type}
    (remainder : Remainder ε)
    (calls : Nat) :
    (remainder.dropped calls).next =
      (remainder.answerAfter calls, remainder.dropped (calls + 1)) := by
  obtain ⟨tokens, fault⟩ := remainder
  induction tokens generalizing calls with
  | nil =>
      cases calls with
      | zero =>
          cases fault <;> rfl
      | succ calls =>
          cases fault <;> rfl
  | cons token others inductionHypothesis =>
      cases calls with
      | zero =>
          rw [dropped_cons_succ, dropped_zero, dropped_zero]
          rfl
      | succ calls =>
          rw [dropped_cons_succ, dropped_cons_succ, answerAfter_cons_succ]
          exact inductionHypothesis calls

/-- Taking everything after a number of calls leaves nothing. -/
theorem rest_dropped
    {ε : Type}
    (remainder : Remainder ε)
    (calls : Nat) :
    (remainder.dropped calls).rest = (remainder.allAfter calls, {}) := by
  obtain ⟨tokens, fault⟩ := remainder
  cases fault with
  | none =>
      simp [dropped, rest, allAfter]
  | some error =>
      by_cases within : calls ≤ tokens.length
      · simp [dropped, rest, allAfter, within]
      · have none : tokens.drop calls = [] :=
          List.drop_of_length_le (by omega)
        simp [dropped, rest, allAfter, within, none]

end Remainder

namespace Lexer

/--
A call for the next token gives the entry that the calls before it left first.
-/
theorem next_of_remainder
    {ε : Type}
    {lexer : Lexer ε}
    {left : Remainder ε}
    {calls : Nat}
    (same : lexer.remainder = left.dropped calls) :
    lexer.next.1 = left.answerAfter calls ∧
      lexer.next.2.remainder = left.dropped (calls + 1) := by
  have taken := next_remainder lexer
  rw [same, Remainder.next_dropped, Prod.ext_iff] at taken
  exact taken

/-- A request for everything gives what is left and leaves nothing. -/
theorem rest_of_remainder
    {ε : Type}
    {lexer : Lexer ε}
    {left : Remainder ε}
    {calls : Nat}
    (same : lexer.remainder = left.dropped calls) :
    lexer.rest.1 = left.allAfter calls ∧
      lexer.rest.2.remainder = {} := by
  have taken := rest_remainder lexer
  rw [same, Remainder.rest_dropped, Prod.ext_iff] at taken
  exact taken

/-- Calls for the next token walk along the trace. -/
theorem nextMany_of_remainder
    {ε : Type}
    {lexer : Lexer ε}
    {left : Remainder ε}
    {calls : Nat}
    (same : lexer.remainder = left.dropped calls)
    (more : Nat) :
    (lexer.nextMany more).1 =
      (List.range' calls more).map left.answerAfter := by
  induction more generalizing lexer calls with
  | zero =>
      rfl
  | succ more inductionHypothesis =>
      obtain ⟨answered, leaves⟩ := next_of_remainder same
      simp only [nextMany, List.range'_succ, List.map_cons]
      rw [answered, inductionHypothesis leaves]

/-- A lexer with nothing left gives nothing to any request. -/
theorem serveAll_of_spent
    {ε : Type}
    {lexer : Lexer ε}
    (spent : lexer.remainder = {})
    (requests : List Request) :
    lexer.serveAll requests = requests.map Request.whenSpent := by
  induction requests generalizing lexer with
  | nil =>
      rfl
  | cons request later inductionHypothesis =>
      have same : lexer.remainder = Remainder.dropped {} 0 := by
        simpa using spent
      cases request with
      | next =>
          obtain ⟨answered, leaves⟩ := next_of_remainder same
          simp only [serveAll, serve, List.map_cons]
          rw [answered, inductionHypothesis leaves]
          rfl
      | rest =>
          obtain ⟨given, leaves⟩ := rest_of_remainder same
          simp only [serveAll, serve, List.map_cons]
          rw [given, inductionHypothesis leaves]
          rfl

/--
Requests are served from the trace up to the first request for everything.
-/
theorem serveAll_of_remainder
    {ε : Type}
    {lexer : Lexer ε}
    {left : Remainder ε}
    {calls : Nat}
    (same : lexer.remainder = left.dropped calls)
    (requests : List Request) :
    lexer.serveAll requests = left.handedAfter calls requests := by
  induction requests generalizing lexer calls with
  | nil =>
      rfl
  | cons request later inductionHypothesis =>
      cases request with
      | next =>
          obtain ⟨answered, leaves⟩ := next_of_remainder same
          simp only [serveAll, serve, Remainder.handedAfter]
          rw [answered, inductionHypothesis leaves]
      | rest =>
          obtain ⟨given, leaves⟩ := rest_of_remainder same
          simp only [serveAll, serve, Remainder.handedAfter]
          rw [given, serveAll_of_spent leaves]

/--
A new lexer hands out the tokens of the good lines in their order, then the
fault that ends these lines, if one does, and then nothing for ever.  A request
for everything gives the tokens that are not handed out yet, or the fault alone
while it has not been handed out, and nothing is left for the requests after it.
-/
theorem handedOut_eq_trace
    {ε : Type}
    (options : Options)
    (feed : Feed ε) :
    let left : Remainder ε :=
      { tokens := numberedTokens options 0 (Feed.goodLines feed.upcoming)
        fault := Feed.firstFault? feed.upcoming }
    (∀ calls,
      ((ofFeed options feed).nextMany calls).1 =
        (List.range calls).map left.answerAfter) ∧
      ∀ requests,
        (ofFeed options feed).serveAll requests =
          left.handedAfter 0 requests := by
  intro left
  have same : (ofFeed options feed).remainder = left.dropped 0 := by
    rw [remainder_ofFeed, Remainder.dropped_zero]
  constructor
  · intro calls
    rw [nextMany_of_remainder same, List.range_eq_range']
  · intro requests
    exact serveAll_of_remainder same requests

end Lexer

end StatementLexer
