import Vcs.CommandLine.FileTree
import Vcs.CommandLine.Session

/-!
# Rehearsals

A session without a system around it: events are kept instead of being shown, and files are saved to a tree
that is a value.  What a session does can so be told from its options and its cartridge image alone.
-/

namespace Vcs.CommandLine

/-- What a session has reported, each event on a line of its own, and the files it has left behind. -/
structure Rehearsal where
  reported : Array Event := #[]
  files : FileTree := .unix

namespace Rehearsal

/-- Changes the files, or tells that this cannot be done. -/
def change (operation : FileTree → Option FileTree) : StateM Rehearsal Bool := fun rehearsal ↦
  match operation rehearsal.files with
  | some files => (true, { rehearsal with files := files })
  | none => (false, rehearsal)

/-- Reports an event on standard error.  Behind a picture that was written there it has no line of its own. -/
def report (event : Event) : StateM Rehearsal Unit := modify fun rehearsal ↦
  match rehearsal.files.get? Path.errors with
  | some (.stream (some (.picture _))) =>
    { rehearsal with files := rehearsal.files.put Path.errors (.stream (some (.lines [event.message]))) }
  | _ => { rehearsal with reported := rehearsal.reported.push event }

/-- Keeps events and saves files to the tree.  An incomplete picture leaves a file that cannot be read. -/
def desk : Desk (StateM Rehearsal) where
  report := report
  makeDirectory text := change (·.makeDirectory? text)
  savePicture text picture := do
    let saved ← change (·.save? text (.picture picture))
    return saved && picture.complete
  saveLines text lines := change (·.save? text (.lines lines))

/-- What a session does, and what is left behind by it. -/
def run (rehearsal : Rehearsal) (options : Options) (threshold : Option Level) (image : ByteArray) :
    Except SessionError Unit × Rehearsal :=
  (Session.run desk options threshold image).run rehearsal

end Rehearsal

end Vcs.CommandLine
