import DirTree.Tree.Remove

/-!
# Surveying a directory

A survey is a walk whose visitor records each entry: its name, the kind its handle remembers and
its path. The survey may stop with a visitor error at a given name, and may remove each entry it
records; a removal that fails ends the survey with that error.

    survey h ⟨none, _, none⟩ w = the entries of h's directory, in listing order
    an entry named `stopAt`    → VisitorAborted (entry path) reason
-/

namespace DirTree

/-- What a survey records of an entry: its name, its path and the kind its handle remembered
when it was visited, and, when entries are removed, whether the removal succeeded and what the
handle remembered after it. -/
structure Visit where
  name : Bytes
  kind : Option Kind
  path : Path
  removal : Option (Bool × Option Kind)
deriving Repr

/-- How a survey treats the entries it meets: the name at which it stops with a visitor error,
the reason it gives then, and the flags each entry is removed with, if entries are removed. -/
structure Survey where
  stopAt : Option Bytes
  reason : String
  removeFlags : Option Flags

namespace Survey

/-! ## Algorithm -/

/-- The survey's visitor: it appends the entry's record to the ones before it. -/
def visitor (sv : Survey) : Visitor (List Visit) := fun child name seen w =>
  if sv.stopAt == some name then ⟨⟨.error (.visitorAborted child.path sv.reason), seen, w⟩, child⟩
  else
    match sv.removeFlags with
    | none => ⟨⟨.ok (), seen ++ [⟨name, child.cached, child.path, none⟩], w⟩, child⟩
    | some flags =>
      let d := child.remove flags w
      match d.result with
      | .error e => ⟨⟨.error e, seen, d.world⟩, d.handle⟩
      | .ok () =>
        ⟨⟨.ok (), seen ++ [⟨name, child.cached, child.path, some (true, d.handle.cached)⟩], d.world⟩,
          d.handle⟩

/-- Surveys the directory at a handle's path: the records of its entries, or the error that
ended the survey, and the world after it. -/
def run (sv : Survey) (dir : Handle) (w : World) : Except TreeError (List Visit) × World :=
  let t := walk dir sv.visitor [] w
  (t.result.map fun _ => t.state, t.world)

end Survey

end DirTree
