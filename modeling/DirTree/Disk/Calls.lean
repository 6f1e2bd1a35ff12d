import DirTree.Disk.Resolve

/-!
# System calls

The calls the tree operations and the test setup make, each a function of the world. A call that
changes the world gives the world after it, or the error number it fails with and changes nothing.

    lstat / stat   : the node a path names, without or through a last link
    mkdir          : a new directory, mode & 0o1777, in a directory that grants write and search
    rmdir / unlink : an empty directory, or a non-directory, taken out of its directory; the
                     kernel's directories give up nothing, and are busy where mounted
    opendir        : the names of a directory that grants read, in listing order
    create         : a regular file written whole (open with create and truncate), through links
    symlink, mkfifo, bindSocket : a new link, named pipe or socket
    chdir / getcwd : the working directory moved to a directory, or spelled out from `/`
                     (a name of 4096 bytes or more by climbing, which needs read permission
                     on each directory above)
-/

namespace DirTree

namespace World

/-! ## Algorithm -/

def changeBits : Nat := writeBit ||| searchBit

def nodeOf (w : World) (s : Spot) : Except Errno Node :=
  match w.nodeAt s with
  | some n => .ok n
  | none => .error .noEntry

/-- The node a path names; a last link is not followed. -/
def lstat (w : World) (path : Bytes) : Except Errno Node := do
  w.nodeOf (← w.resolve path false false)

/-- The node a path names, through a last link. -/
def stat (w : World) (path : Bytes) : Except Errno Node := do
  w.nodeOf (← w.resolve path true false)

def locOf : Spot → Except Errno Loc
  | .live loc => .ok loc
  | .gone .. => .error .noEntry
  | .held _ => .error .notDir

/-- Checks that a new entry may be made in the directory at `dir`: it must grant write and
search permission, and not be of the kernel's registry. -/
def mayCreate (w : World) (dir : Spot) : Except Errno Unit := do
  if !w.allows dir changeBits then throw .accessDenied
  if w.inRegistry dir then throw .notPermitted

/-- Checks that an entry may be taken out of the directory at `dir`: the kernel's directories
give up nothing, and any other must grant write and search permission. -/
def mayRemove (w : World) (dir : Spot) : Except Errno Unit := do
  if w.byKernel dir then throw .notPermitted
  if !w.allows dir changeBits then throw .accessDenied
  if w.inRegistry dir then throw .notPermitted

/-- Makes a directory with the permission bits `mode & 0o1777`. -/
def mkdir (w : World) (path : Bytes) (mode : Nat) : Except Errno World := do
  let (dir, last) ← w.resolveParent path
  match last with
  | .name n _ =>
    let (_, here) ← w.slot dir n
    if here.isSome then throw .alreadyExists
    w.mayCreate dir
    let loc ← locOf dir
    pure (w.add loc n (.dir (mode % 1024) .user []))
  | _ => throw .alreadyExists

/-- Removes an empty directory. A working directory that is, or was below, the removed one keeps
it as a removed spot. -/
def rmdir (w : World) (path : Bytes) : Except Errno World := do
  let (dir, last) ← w.resolveParent path
  match last with
  | .root => throw .busy
  | .dot => throw .invalid
  | .dotdot => throw .notEmpty
  | .name n _ =>
    let (loc, here) ← w.slot dir n
    let some node := here | throw .noEntry
    w.mayRemove dir
    match node with
    | .dir m o es =>
      if o == .kernel || o == .registry then throw .busy
      if !es.isEmpty then throw .notEmpty
      let parent ← locOf dir
      let w' := w.drop parent n
      pure { w' with cwd := w.cwd.bury loc m o }
    | _ => throw .notDir

/-- Removes an entry that is not a directory. -/
def unlink (w : World) (path : Bytes) : Except Errno World := do
  let (dir, last) ← w.resolveParent path
  match last with
  | .name n slash =>
    let (_, here) ← w.slot dir n
    let some node := here | throw .noEntry
    if slash then throw (if node.isDir then .isDir else .notDir)
    w.mayRemove dir
    if node.isDir then throw .isDir
    let parent ← locOf dir
    pure (w.drop parent n)
  | _ => throw .isDir

/-- The names of a directory, in listing order; a removed directory lists nothing. -/
def opendir (w : World) (path : Bytes) : Except Errno (List Bytes) := do
  let s ← w.resolve path true true
  if !w.allows s readBit then throw .accessDenied
  match s with
  | .live _ => pure (← w.nodeOf s).names
  | .gone .. => pure []
  | .held _ => throw .notDir

/-- Writes a regular file whole at the last component `last` of the directory `dir`: a missing
one is made, an existing file is replaced, a link is followed (at most `fuel` more times), a
named pipe or device takes the data (a full device only when there is none), and a directory or
socket refuses it, as do the link to the working directory, which is a directory, the terminal
of a process that has none, and the file of the running program. -/
def createAt (w : World) (data : Bytes) : Nat → Nat → Spot → Last → Except Errno World
  | fuel, links, dir, .name n slash => do
    if slash then throw .isDir
    let (_, here) ← w.slot dir n
    match here with
    | none =>
      w.mayCreate dir
      pure (w.add (← locOf dir) n (.file data))
    | some (.dir ..) => throw .isDir
    | some (.file _) => pure (w.put (← locOf dir) n (.file data))
    | some (.link body) =>
      match fuel with
      | 0 => throw .loop
      | fuel + 1 =>
        if maxLinks ≤ links then throw .loop
        let start := if Bytes.startsWithSlash body then Spot.live [] else dir
        let (dir', last', links') ← w.parentFrom (links + 1) start body
        w.createAt data fuel links' dir' last'
    | some .socket => throw .noDeviceOrAddress
    | some (.magic .cwd) => throw .isDir
    | some (.magic (.held .program)) => throw .textBusy
    | some (.device .full) => if data.isEmpty then pure w else throw .noSpace
    | some (.device .terminal) => throw .noDeviceOrAddress
    | some _ => pure w
  | _, _, _, _ => throw .isDir

/-- Opens a path for writing, creating and truncating it, and writes `data`. -/
def create (w : World) (path : Bytes) (data : Bytes) : Except Errno World := do
  let (dir, last) ← w.resolveParent path
  w.createAt data (maxLinks + 1) 0 dir last

/-- Makes a new entry `node` at a path that must not exist yet. -/
def makeNode (w : World) (path : Bytes) (node : Node) : Except Errno World := do
  let (dir, last) ← w.resolveParent path
  match last with
  | .name n slash =>
    let (_, here) ← w.slot dir n
    if here.isSome then throw .alreadyExists
    if slash then throw .noEntry
    w.mayCreate dir
    pure (w.add (← locOf dir) n node)
  | _ => throw .alreadyExists

def symlink (w : World) (target path : Bytes) : Except Errno World :=
  if target.isEmpty then .error .noEntry
  else if pathMax ≤ target.length then .error .nameTooLong
  else w.makeNode path (.link target)

def mkfifo (w : World) (path : Bytes) : Except Errno World := w.makeNode path .fifo

def bindSocket (w : World) (path : Bytes) : Except Errno World :=
  match w.makeNode path .socket with
  | .error .alreadyExists => .error .addressInUse
  | r => r

/-- Moves the working directory to a directory that grants search permission. -/
def chdir (w : World) (path : Bytes) : Except Errno World := do
  let s ← w.resolve path true true
  if !w.allows s searchBit then throw .accessDenied
  pure { w with cwd := s }

def spell (loc : Loc) : Bytes :=
  match loc with
  | [] => [Bytes.slash]
  | _ => loc.flatMap (Bytes.slash :: ·)

/-- Climbs from a directory to `/`, given the names of its location last first, as the search
for a working directory's name does: each directory left must grant search, and each parent
must grant read to be listed and search to have its entries examined. -/
def climb (w : World) : List Bytes → Except Errno Unit
  | [] => .ok ()
  | n :: rest => do
    if !w.allows (.live (n :: rest).reverse) searchBit then throw .accessDenied
    if !w.allows (.live rest.reverse) readBit then throw .accessDenied
    if !w.allows (.live rest.reverse) searchBit then throw .noEntry
    w.climb rest

/-- The working directory, spelled from `/`; a removed one has no name. A name that does not
fit in `pathMax` bytes with its terminating NUL is found by climbing to `/` instead. -/
def getcwd (w : World) : Except Errno Bytes :=
  match w.cwd with
  | .live loc =>
    let path := spell loc
    if path.length < pathMax then .ok path
    else do
      w.climb loc.reverse
      pure path
  | _ => .error .noEntry

end World

end DirTree
