import DirTree.Os.ErrorKind
import DirTree.Text.Quote

/-!
# I/O errors

An I/O error is an error number from the OS, a bare kind, or a kind with a message of its own.
Its text, kind and number follow from which of the three it is:

    (os c).display = describe c ++ " (os error " ++ c ++ ")"     (os c).kind = ErrorKind.ofCode c
    (bare k).display = k.description                             (bare k).rawCode = none
    (custom k t).display = t
-/

namespace DirTree

/-- An I/O error: an error number the OS reported, a kind alone, or a kind with a message. -/
inductive IoError where
  | os (code : Int)
  | bare (kind : ErrorKind)
  | custom (kind : ErrorKind) (text : String)
deriving DecidableEq, Repr, Inhabited

namespace IoError

/-- The error a failed call reports with this number. -/
def ofErrno (e : Errno) : IoError := .os e.code

def kind : IoError → ErrorKind
  | .os c => ErrorKind.ofCode c
  | .bare k => k
  | .custom k _ => k

/-- The OS error number, if the OS reported it. -/
def rawCode : IoError → Option Int
  | .os c => some c
  | _ => none

def display : IoError → String
  | .os c => describe c ++ " (os error " ++ toString c ++ ")"
  | .bare k => k.description
  | .custom _ t => t

def debug : IoError → String
  | .os c =>
    "Os \x7b code: " ++ toString c ++ ", kind: " ++ (ErrorKind.ofCode c).name ++ ", message: " ++
      Quote.quote (describe c) ++ " \x7d"
  | .bare k => "Kind(" ++ k.name ++ ")"
  | .custom k t => "Custom \x7b kind: " ++ k.name ++ ", error: " ++ Quote.quote t ++ " \x7d"

/-! ## Lemmas -/

example : (os 39).display = "Directory not empty (os error 39)" := by decide
example : (bare .notFound).display = "entity not found" := by decide

end IoError

end DirTree
