namespace StatementLexer

/-!
# Exit statuses

The number with which a run tells its caller how it ended.
-/

/-- The ways a run can end, as far as its caller can tell them apart. -/
inductive ExitStatus where
  | success
  | general
  | usage
  | fileOpen
  | fileRead
  | fileClose
  deriving Repr, DecidableEq

/-- The number of an exit status. -/
def ExitStatus.number : ExitStatus → Nat
  | .success => 0
  | .general => 1
  | .usage => 2
  | .fileOpen => 3
  | .fileRead => 4
  | .fileClose => 5

end StatementLexer
