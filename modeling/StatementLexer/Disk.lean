import StatementLexer.Fault.Io
import StatementLexer.Text.Utf8

namespace StatementLexer

/-!
# Disks

Opening and reading are told apart: a path may fail to open, and what opens may
still fail to be read, at once as a directory does or after some of its bytes.
-/

/-- What has been opened. -/
inductive OpenFile where
  /-- A file that can be read to its end. -/
  | readable (content : Bytes)
  /-- A file whose reading fails after the given bytes. -/
  | unreadable (before : Bytes) (fault : IoFault)
  deriving Repr, DecidableEq

/--
A disk answers every path with an open file or with the reason why there is
none.
-/
abbrev Disk := Bytes → Except IoFault OpenFile

end StatementLexer
