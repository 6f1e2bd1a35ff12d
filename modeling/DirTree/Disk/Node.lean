import DirTree.Disk.HashOrder

/-!
# The filesystem tree

The filesystem is one tree of nodes hanging from `/`. A directory holds named entries, kept in
the order the OS lists them back (`HashOrder`); a location is the list of names that leads from
`/` to a node. Changes are made at a location and leave every other location alone:

    n.get? [] = some n
    n.get? (name :: loc) = (n.child? name).bind (·.get? loc)
    (n.modifyAt loc f).get? loc = (n.get? loc).map f
-/

namespace DirTree

/-- Who a directory belongs to, which decides what its permission bits mean to the user who runs
the programs. The user's own directory grants what its owner bits say; over a directory of the
system the user is privileged, and it grants everything. A directory the kernel makes up
(`kernel`, as under `/proc`) grants everything but holds only the entries the kernel makes and
looks up no other name; one in which the kernel shows its objects (`registry`, as under `/sys`)
counts its owner bits as the user's own and finds any other name simply missing. Neither takes
new entries or gives any up, and both are mounted where they hang from an ordinary directory. -/
inductive Owner where
  | user
  | system
  | kernel
  | registry
deriving DecidableEq, Repr, Inhabited

/-- A file a process holds open that hangs nowhere in the tree: an unnamed pipe, such as the one
the process reads its input from, or the file of the program it runs, which cannot be written
while it runs. -/
inductive Held where
  | pipe
  | program
deriving DecidableEq, Repr, Inhabited

/-- Where one of the links that the kernel keeps for a process leads: to the working directory
of the process that follows it, even one that has been removed, or to a file the process holds
open. -/
inductive Magic where
  | cwd
  | held (h : Held)
deriving DecidableEq, Repr, Inhabited

/-- What a character device does with the data written to it: a sink keeps none of it, a full
device opens but no byte written to it fits, and the terminal that controls the process cannot
be opened by a process without one. -/
inductive Device where
  | sink
  | full
  | terminal
deriving DecidableEq, Repr, Inhabited

/-- A node of the filesystem tree. A directory has its permission bits, its owner and its
entries in listing order. A `magic` link is one the kernel keeps for a process: following it
reaches what it stands for itself, whatever the path of that is, and counts as one link. -/
inductive Node where
  | dir (mode : Nat) (owner : Owner) (entries : List (Bytes × Node))
  | file (data : Bytes)
  | link (target : Bytes)
  | magic (dest : Magic)
  | fifo
  | socket
  | device (kind : Device)
deriving Repr, Inhabited

/-- The names that lead from `/` to a node. -/
abbrev Loc := List Bytes

namespace Node

def emptyDir (mode : Nat) (owner : Owner) : Node := .dir mode owner []

/-- The entries of a directory; none for other nodes. -/
def entries : Node → List (Bytes × Node)
  | .dir _ _ es => es
  | _ => []

def isDir : Node → Bool
  | .dir .. => true
  | _ => false

def names (n : Node) : List Bytes := n.entries.map (·.1)

/-! ## Algorithm -/

def child? (n : Node) (name : Bytes) : Option Node := n.entries.lookup name

/-- The node at a location below this one. -/
def get? (n : Node) : Loc → Option Node
  | [] => some n
  | name :: loc =>
    match n.child? name with
    | some c => c.get? loc
    | none => none

/-- Applies `f` to the node at a location below this one; nothing changes where there is none. -/
def modifyAt : Node → Loc → (Node → Node) → Node
  | n, [], f => f n
  | .dir m o es, name :: loc, f =>
    .dir m o (es.map fun e => if e.1 == name then (e.1, e.2.modifyAt loc f) else e)
  | n, _ :: _, _ => n

def erase (name : Bytes) : Node → Node
  | .dir m o es => .dir m o (es.filter (·.1 != name))
  | n => n

/-- A directory with the new entry `name`, placed in listing order. -/
def insert (name : Bytes) (c : Node) : Node → Node
  | .dir m o es => .dir m o (HashOrder.insert name c es)
  | n => n

/-- A directory whose entry `name` is replaced by `c`, in place. -/
def replace (name : Bytes) (c : Node) : Node → Node
  | .dir m o es => .dir m o (es.map fun e => if e.1 == name then (name, c) else e)
  | n => n

mutual
/-- The number of nodes in a tree, this one included. -/
def size : Node → Nat
  | .dir _ _ es => 1 + sizeOfEntries es
  | _ => 1

def sizeOfEntries : List (Bytes × Node) → Nat
  | [] => 0
  | (_, n) :: es => size n + sizeOfEntries es
end

mutual
/-- Every node below a directory, with its path relative to the directory, entries before what
lies below them. -/
def descendants : Node → List (Bytes × Node)
  | .dir _ _ es => descendantsOf es
  | _ => []

def descendantsOf : List (Bytes × Node) → List (Bytes × Node)
  | [] => []
  | (name, n) :: es =>
    (name, n) :: (descendants n).map (fun d => (name ++ Bytes.slash :: d.1, d.2)) ++ descendantsOf es
end

/-! ## Lemmas -/

@[simp] theorem get?_nil (n : Node) : n.get? [] = some n := rfl

theorem get?_cons (n : Node) (name : Bytes) (loc : Loc) :
    n.get? (name :: loc) = (n.child? name).bind (·.get? loc) := by
  simp only [get?]
  cases n.child? name <;> rfl

end Node

end DirTree
