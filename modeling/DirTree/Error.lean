import DirTree.Os.IoError
import DirTree.Path.Basic

/-!
# Errors of the tree operations

A tree operation fails in one of four ways: a system call failed, the target already exists, the
target is missing, or a directory walk was stopped by its visitor. Each carries the path it
concerns; its message, kind and error number follow from the way it failed:

    (system op p e).message = op ++ " failed for " ++ p.lossy ++ ": " ++ e.display
    (alreadyExists op p).message = op ++ ": already exists: " ++ p.lossy
    (notFound op p).message = op ++ ": not found: " ++ p.lossy
    (visitorAborted p r).message = "visitor aborted at " ++ p.lossy ++ ": " ++ r
    e.toIo.kind = e.kind        e.toIo.rawCode = e.rawCode
-/

namespace DirTree

/-- The ways a tree operation fails: a system call failed on a path, an operation found an
entry where it meant to make one or nothing where it meant to act, or a walk's visitor stopped at
a path for a reason. -/
inductive TreeError where
  | system (operation : String) (path : Path) (source : IoError)
  | alreadyExists (operation : String) (path : Path)
  | notFound (operation : String) (path : Path)
  | visitorAborted (path : Path) (reason : String)
deriving DecidableEq, Repr, Inhabited

namespace TreeError

def variant : TreeError → String
  | .system .. => "System"
  | .alreadyExists .. => "AlreadyExists"
  | .notFound .. => "NotFound"
  | .visitorAborted .. => "VisitorAborted"

def path : TreeError → Path
  | .system _ p _ | .alreadyExists _ p | .notFound _ p | .visitorAborted p _ => p

/-- The operation that failed; a walk stopped by its visitor names none. -/
def operation? : TreeError → Option String
  | .system op _ _ | .alreadyExists op _ | .notFound op _ => some op
  | .visitorAborted .. => none

def message : TreeError → String
  | .system op p e => op ++ " failed for " ++ p.lossy ++ ": " ++ e.display
  | .alreadyExists op p => op ++ ": already exists: " ++ p.lossy
  | .notFound op p => op ++ ": not found: " ++ p.lossy
  | .visitorAborted p r => "visitor aborted at " ++ p.lossy ++ ": " ++ r

/-- The kind of I/O error the failure amounts to. -/
def kind : TreeError → ErrorKind
  | .system _ _ e => e.kind
  | .alreadyExists .. => .alreadyExists
  | .notFound .. => .notFound
  | .visitorAborted .. => .other

/-- The OS error number, for a failed system call that has one. -/
def rawCode : TreeError → Option Int
  | .system _ _ e => e.rawCode
  | _ => none

/-- The text of what caused the error: the system call's error, or the visitor's reason. -/
def source? : TreeError → Option String
  | .system _ _ e => some e.display
  | .visitorAborted _ r => some r
  | _ => none

/-- The error as an I/O error: a failed call's own error, otherwise the kind with the message. -/
def toIo : TreeError → IoError
  | .system _ _ e => e
  | e => .custom e.kind e.message

def debug : TreeError → String
  | .system op p e =>
    "System \x7b operation: " ++ Quote.quote op ++ ", path: " ++ Quote.quoteBytes p.bytes ++
      ", source: " ++ e.debug ++ " \x7d"
  | .alreadyExists op p =>
    "AlreadyExists \x7b operation: " ++ Quote.quote op ++ ", path: " ++ Quote.quoteBytes p.bytes ++
      " \x7d"
  | .notFound op p =>
    "NotFound \x7b operation: " ++ Quote.quote op ++ ", path: " ++ Quote.quoteBytes p.bytes ++ " \x7d"
  | .visitorAborted p r =>
    "VisitorAborted \x7b path: " ++ Quote.quoteBytes p.bytes ++ ", source: " ++ Quote.quote r ++
      " \x7d"

/-! ## Lemmas -/

theorem toIo_kind (e : TreeError) : e.toIo.kind = e.kind := by
  cases e <;> rfl

theorem toIo_rawCode (e : TreeError) : e.toIo.rawCode = e.rawCode := by
  cases e <;> rfl

end TreeError

end DirTree
