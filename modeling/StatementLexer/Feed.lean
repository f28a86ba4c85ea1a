namespace StatementLexer

/-!
# Feeds

A feed hands out lines on demand.  It may also report a fault, or say that it
has nothing to give, and in either case it may well go on when it is asked
again.  How often a feed has been asked is part of its state, so that what a
reader takes from it can be stated exactly.
-/

/-- The answer to one request for the next element. -/
inductive Answer (ε α : Type) where
  /-- The next element. -/
  | item (value : α)
  /-- A fault met while the next element was sought. -/
  | fault (error : ε)
  /-- There is nothing to give. -/
  | nothing
  deriving Repr, DecidableEq

/--
A giver of lines: the answers it has in store and how often it has been asked.
-/
structure Feed (ε : Type) where
  upcoming : List (Answer ε String)
  pulled : Nat := 0
  deriving Repr, DecidableEq

namespace Feed

/-- A feed that gives the listed lines and then nothing. -/
def ofLines
    {ε : Type}
    (lines : List String) : Feed ε where
  upcoming := lines.map .item

/-- Asks a feed once; a feed whose store is used up gives nothing for ever. -/
def next
    {ε : Type}
    (feed : Feed ε) : Answer ε String × Feed ε :=
  match feed.upcoming with
  | [] =>
      (.nothing, { feed with pulled := feed.pulled + 1 })
  | answer :: rest =>
      (answer, { upcoming := rest, pulled := feed.pulled + 1 })

/--
The lines and faults stored before the first point where there is nothing to
give.
-/
def untilNothing
    {ε : Type} :
    List (Answer ε String) → List (Except ε String) × List (Answer ε String)
  | [] => ([], [])
  | .nothing :: rest => ([], rest)
  | .item line :: rest =>
      let (given, left) := untilNothing rest
      (.ok line :: given, left)
  | .fault error :: rest =>
      let (given, left) := untilNothing rest
      (.error error :: given, left)

/--
Asks a feed again and again until it has nothing to give, and keeps what it
gave.
-/
def drain
    {ε : Type}
    (feed : Feed ε) : List (Except ε String) × Feed ε :=
  let (given, left) := untilNothing feed.upcoming
  (given, { upcoming := left, pulled := feed.pulled + given.length + 1 })

end Feed

end StatementLexer
