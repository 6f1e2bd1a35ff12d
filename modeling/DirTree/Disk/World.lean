import DirTree.Disk.Node
import DirTree.Os.Errno

/-!
# The filesystem and its working directory

A world is the tree of nodes hanging from `/` together with the working directory. The working
directory is a directory of the tree, or one that was removed while it was the working directory,
or while a removed working directory was below it: such a directory keeps its permission bits and
the directory that held it, lists nothing, and has nothing looked up in it. A walk may also end
at a file the process holds open outside the tree, reached through one of the kernel's links.

    w.nodeAt (.live loc) = w.root.get? loc
    w.nodeAt (.gone m o parent) = some (.dir m o [])
    w.nodeAt (.held .pipe) = some .fifo
    w.slot dir name = .error .noEntry        (dir was removed, or the kernel's and lacks name)
                    = .error .notDir         (dir is a file held outside the tree)
                    = .error .nameTooLong    (name longer than 255 bytes, in an ordinary directory)
                    = .ok (dir ++ [name], the entry `name` of dir, if any)

Access to a directory of the user who runs the programs, or of the kernel's registry, is decided
by the owner bits of its mode; the user is privileged over every other directory.
-/

namespace DirTree

/-- A directory a walk stands in: a directory of the tree at a location, a removed directory
with its permission bits, its owner and the spot that held it when it was removed (which may have
been removed since), or a file the process holds open outside the tree. -/
inductive Spot where
  | live (loc : Loc)
  | gone (mode : Nat) (owner : Owner) (parent : Spot)
  | held (h : Held)
deriving DecidableEq, Repr, Inhabited

/-- The filesystem: the tree from `/` and the working directory. -/
structure World where
  root : Node
  cwd : Spot
deriving Repr, Inhabited

def searchBit : Nat := 1

def writeBit : Nat := 2

def readBit : Nat := 4

/-- Whether a mode grants the wanted bits to the user who runs the programs: the owner bits of the
user's own directories and of the kernel's registry; any other directory grants everything. -/
def permits (mode : Nat) (owner : Owner) (want : Nat) : Bool :=
  match owner with
  | .user | .registry => mode / 64 % 8 &&& want == want
  | _ => true

/-- The longest name a directory entry can have. -/
def nameMax : Nat := 255

/-- The length at which a path is too long to hand to the OS. -/
def pathMax : Nat := 4096

namespace Spot

/-- The directory above a spot; `/` is its own parent, and so is a file held outside the
tree, which no walk goes up from. -/
def parent : Spot → Spot
  | .live loc => .live loc.dropLast
  | .gone _ _ p => p
  | .held _ => .live []

/-- The spot after the empty directory at `loc`, with bits `m` and owner `o`, is removed: where
it stood, the spot now holds the removed directory. -/
def bury (loc : Loc) (m : Nat) (o : Owner) : Spot → Spot
  | .live l => if l == loc then .gone m o (.live loc.dropLast) else .live l
  | .gone m' o' p => .gone m' o' (bury loc m o p)
  | .held h => .held h

end Spot

namespace World

/-! ## Algorithm -/

/-- The node a spot stands for. The program's file reads as a regular file. -/
def nodeAt (w : World) : Spot → Option Node
  | .live loc => w.root.get? loc
  | .gone m o _ => some (.dir m o [])
  | .held .pipe => some .fifo
  | .held .program => some (.file [])

/-- Whether the directory at a spot grants the wanted bits. A location that holds no directory
grants them, and lets the lookup that follows fail. -/
def allows (w : World) (s : Spot) (want : Nat) : Bool :=
  match w.nodeAt s with
  | some (.dir m o _) => permits m o want
  | _ => true

def ownerAt (w : World) (s : Spot) : Option Owner :=
  match w.nodeAt s with
  | some (.dir _ o _) => some o
  | _ => none

def byKernel (w : World) (s : Spot) : Bool := w.ownerAt s == some .kernel

/-- Whether the directory at a spot is one of the kernel's registry. -/
def inRegistry (w : World) (s : Spot) : Bool := w.ownerAt s == some .registry

/-- Where the entry `name` of a directory is, and what is there, if anything. A directory the
kernel makes up has no place for a name it lacks; the kernel's registry looks up a name of any
length, and lacks the long ones. -/
def slot (w : World) (dir : Spot) (name : Bytes) : Except Errno (Loc × Option Node) :=
  match dir with
  | .gone .. => .error .noEntry
  | .held _ => .error .notDir
  | .live loc =>
    match w.root.get? loc with
    | some d =>
      match d.child? name, d with
      | none, .dir _ .kernel _ => .error .noEntry
      | none, .dir _ .registry _ => .ok (loc ++ [name], none)
      | c, _ => if nameMax < name.length then .error .nameTooLong else .ok (loc ++ [name], c)
    | none => .error .noEntry

/-- The entry `name` of a directory, which must be there. -/
def lookup (w : World) (dir : Spot) (name : Bytes) : Except Errno (Loc × Node) := do
  let (loc, here) ← w.slot dir name
  match here with
  | some n => pure (loc, n)
  | none => throw .noEntry

/-- The world with the node at a location changed by `f`. -/
def modify (w : World) (loc : Loc) (f : Node → Node) : World :=
  { w with root := w.root.modifyAt loc f }

def add (w : World) (dir : Loc) (name : Bytes) (n : Node) : World := w.modify dir (Node.insert name n)

def drop (w : World) (dir : Loc) (name : Bytes) : World := w.modify dir (Node.erase name)

def put (w : World) (dir : Loc) (name : Bytes) (n : Node) : World :=
  w.modify dir (Node.replace name n)

end World

/-! ## Lemmas -/

example : permits 0o700 .user searchBit = true := by decide
example : permits 0o300 .user readBit = false := by decide
example : permits 0o555 .system (writeBit ||| searchBit) = true := by decide

end DirTree
