import StatementLexer.Disk
import StatementLexer.Fault.Basic
import StatementLexer.Feed
import StatementLexer.Text.Lines

namespace StatementLexer

/-!
# Sources

A source is a feed of lines that is closed once it is no longer needed, and
closing may fail.  Lines come from a text held in memory or from a file.
-/

/-- A feed of lines together with what closing it gives. -/
structure Source where
  /-- The path as it is shown, if the source is a file. -/
  path : Option String := none
  feed : Feed SourceFault
  closing : Except SourceFault Unit := .ok ()

namespace Source

/-- The lines of a text held in memory. -/
def ofText (text : String) : Source where
  feed := Feed.ofLines (textLines text)

/--
The lines of an open file.

A file whose reading fails gives the lines that a newline has ended by then,
that fault, and then nothing.  The line that the fault breaks off is lost.
-/
def ofOpenFile
    (path : String)
    (file : OpenFile) : Source where
  path := some path
  feed :=
    match file with
    | .readable content => Feed.ofLines (fileLines content)
    | .unreadable before fault =>
        { upcoming :=
            (fileLines (endedPart before)).map .item ++
              [.fault { stage := .reading, path := path, cause := fault }] }

/-- Opens the file at a path of a disk. -/
def openPath
    (disk : Disk)
    (path : Bytes) : Except SourceFault Source :=
  let shown := Utf8.decode path
  match disk path with
  | .error fault =>
      .error { stage := .opening, path := shown, cause := fault }
  | .ok file => .ok (ofOpenFile shown file)

end Source

end StatementLexer
