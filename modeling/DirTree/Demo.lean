import DirTree.Tree.Mkdir
import DirTree.Tree.Remove

/-!
# The demo program

The demo builds a small tree under `fstree-demo` in the temporary directory, prints it level by
level, removes it and reports that it is gone:

    mkdir -p docs/guides src/bin      (mode 0o755, flags ALL)
    write docs/README src/lib.rs src/bin/main.rs (empty)
    print the root, then each entry as "<2·depth spaces><name> (<kind>)", entries of a directory
      right after its own line, in listing order
    remove the root (RECURSIVE), print "removed: <root no longer exists>"

The first error stops the program: it prints `Error: ` and the error's debugging dump, and exits
with status 1. Lines printed before stay printed.
-/

namespace DirTree

namespace Demo

/-- What a run of the demo leaves: the lines it printed, what it wrote to the error stream, its
exit status and the world after it. -/
structure Run where
  stdout : List String
  stderr : String
  status : Nat
  world : World

/-- The name the demo works under in the temporary directory. -/
def topName : Bytes := Bytes.ofString "fstree-demo"

def dirs : List String := ["docs/guides", "src/bin"]

def files : List String := ["docs/README", "src/lib.rs", "src/bin/main.rs"]

/-- The word printed for a kind of entry. -/
def label : Kind → String
  | .directory => "dir"
  | .regular => "file"
  | .symlink => "link"
  | .unknown => "other"
  | .missing => "gone"

/-! ## Algorithm -/

def line (depth : Nat) (name : Bytes) (k : Kind) : String :=
  String.ofList (List.replicate (2 * depth) ' ') ++ Utf8.lossy name ++ " (" ++ label k ++ ")"

/-- Prints the entries below a directory, at most `fuel` levels deep, after the lines `out`. -/
def printTree : Nat → Handle → Nat → List String → World → Trail (List String)
  | 0, _, _, out, w => ⟨.ok (), out, w⟩
  | fuel + 1, dir, depth, out, w =>
    walk dir (fun child name out w =>
      match child.classify w with
      | (.error e, child) => ⟨⟨.error e, out, w⟩, child⟩
      | (.ok k, child) =>
        let out := out ++ [line depth name k]
        -- the entries below are printed from a copy, and the child is left as classified
        if k == .directory then ⟨printTree fuel child (depth + 1) out w, child⟩
        else ⟨⟨.ok (), out, w⟩, child⟩) out w

def makeDirs (root : Path) : List String → World → Except TreeError Unit × World
  | [], w => (.ok (), w)
  | d :: ds, w =>
    match Handle.mkdirTree (root.append (Bytes.ofString d)) Mode.default Flags.all w with
    | (.error e, w') => (.error e, w')
    | (.ok (), w') => makeDirs root ds w'

def writeFiles (root : Path) : List String → World → Except TreeError Unit × World
  | [], w => (.ok (), w)
  | f :: fs, w =>
    let p := root.append (Bytes.ofString f)
    match w.create p.bytes [] with
    | .error e => (.error (.system "write" p (.ofErrno e)), w)
    | .ok w' => writeFiles root fs w'

/-- Runs the demo with `tmp` as the temporary directory. -/
def run (tmp : Bytes) (w : World) : Run :=
  let root := (Path.ofBytes tmp).append topName
  let fail (out : List String) (e : TreeError) (w : World) : Run :=
    ⟨out, "Error: " ++ e.debug ++ "\n", 1, w⟩
  match makeDirs root dirs w with
  | (.error e, w) => fail [] e w
  | (.ok (), w) =>
  match writeFiles root files w with
  | (.error e, w) => fail [] e w
  | (.ok (), w) =>
  let out := [root.lossy]
  let t := printTree w.root.size (Handle.new root) 1 out w
  let out := t.state
  let w := t.world
  match t.result with
  | .error e => fail out e w
  | .ok () =>
  let d := (Handle.new root).remove Flags.deep w
  match d.result with
  | .error e => fail out e d.world
  | .ok () =>
  match d.handle.exists? d.world with
  | (.error e, _) => fail out e d.world
  | (.ok b, _) => ⟨out ++ ["removed: " ++ toString !b], "", 0, d.world⟩

end Demo

end DirTree
