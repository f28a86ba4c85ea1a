import StatementLexer.Fault.Io
import StatementLexer.Text.Utf8

namespace StatementLexer

/-!
# Sinks

A sink takes the output of a run.  It may have room for a limited number of
bytes only: it then takes what fits and fails at the first byte that does not.
It may also fail when it is told to pass on what it has taken.
-/

/-- A taker of bytes with its faults and what it has taken. -/
structure Sink where
  /-- How many bytes it takes in all; there is no limit if none is given. -/
  limit : Option Nat := none
  /-- What a write meets when no room is left. -/
  writeFault : IoFault := .shortWrite
  /-- What a flush meets, if it fails. -/
  flushFault : Option IoFault := none
  written : Bytes := []
  deriving Repr, DecidableEq

namespace Sink

/-- The part of the given bytes for which a sink has room. -/
def fitting
    (sink : Sink)
    (bytes : Bytes) : Bytes :=
  match sink.limit with
  | none => bytes
  | some limit => bytes.take (limit - sink.written.length)

/-- Writes bytes one after the other, up to the first one that finds no room. -/
def write
    (sink : Sink)
    (bytes : Bytes) : Except IoFault Unit × Sink :=
  let fitting := sink.fitting bytes
  let after := { sink with written := sink.written ++ fitting }
  if fitting.length < bytes.length then
    (.error sink.writeFault, after)
  else
    (.ok (), after)

/-- Passes on what has been taken. -/
def flush (sink : Sink) : Except IoFault Unit :=
  match sink.flushFault with
  | none => .ok ()
  | some fault => .error fault

end Sink

end StatementLexer
