import DirTree.Demo
import DirTree.Session

/-!
# The demo as a program

Runs the demo on a fresh filesystem whose temporary directory is `/tmp`, prints the lines it
prints and what it writes to the error stream, and exits with its status.
-/

/-- Runs the demo and reports what it printed. -/
def main : IO UInt32 := do
  let r := DirTree.Demo.run (DirTree.Bytes.ofString "/tmp") DirTree.Session.atRoot
  for l in r.stdout do
    IO.println l
  IO.eprint r.stderr
  return r.status.toUInt32
