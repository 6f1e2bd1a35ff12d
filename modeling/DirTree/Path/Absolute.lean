import DirTree.Disk.Calls
import DirTree.Error

/-!
# Absolute paths

A path is made absolute by putting the working directory and one `/` in front of it, byte for
byte. A path whose last byte is `/` is taken as absolute already and the working directory is not
asked for; otherwise a working directory that was removed makes the operation fail:

    p.absolute w = .ok p                                  (p ends in '/')
                 = .ok (p.absoluteIn cwd)                 (w.getcwd = .ok cwd)
                 = .error (.system "getcwd" p (os e))     (w.getcwd = .error e)
-/

namespace DirTree

namespace Path

/-! ## Algorithm -/

/-- The path made absolute against the working directory of `w`. -/
def absolute (p : Path) (w : World) : Except TreeError Path :=
  if !p.needsCwd then .ok p
  else match w.getcwd with
    | .ok cwd => .ok (p.absoluteIn cwd)
    | .error e => .error (.system "getcwd" p (.ofErrno e))

/-! ## Lemmas -/

theorem absolute_of_slash (p : Path) (w : World) (h : p.needsCwd = false) :
    p.absolute w = .ok p := by
  simp [absolute, h]

end Path

end DirTree
