import DirTree.Disk.Calls
import DirTree.Os.IoError

/-!
# Sessions

A session is a world in which a fresh, empty directory is the working directory. The host around
it has the usual top directories of the system, devices under `/dev`, a few files under `/etc`,
the kernel's `/proc` with the process's own directory (reached by the link `/proc/self`, holding
its links to the working directory, to its program, to `/` and to its standard pipes) and the
kernel's registry `/sys`, a world-writable `/tmp` with the sticky bit, and the fresh private
directories that lead from `/tmp` down to the session directory. The setup calls that prepare a session are the plain system calls, with the checks the
standard library makes before it calls them:

    setup call on bytes with a NUL   →  InvalidInput "file name contained an unexpected NUL byte"
    bindSocket on 108 bytes or more  →  InvalidInput "path must be shorter than SUN_LEN"
    bindSocket on no bytes           →  an unnamed socket, nothing in the tree

A session is shown as the list of everything below its directory that the user can list, sorted
by relative path, compared component by component.
-/

namespace DirTree

namespace Session

/-- Where a session's directory lies: the names of the fresh private directories that lead from
`/tmp` down to it, the last one being the session directory itself. -/
abbrev Place := List Bytes

def rootLoc (place : Place) : Loc := Bytes.ofString "tmp" :: place

def rootBytes (place : Place) : Bytes := World.spell (rootLoc place)

def named (es : List (String × Node)) : List (Bytes × Node) :=
  es.map fun e => (Bytes.ofString e.1, e.2)

def systemDir (es : List (String × Node)) : Node := .dir 0o755 .system (named es)

def linkTo (target : String) : Node := .link (Bytes.ofString target)

/-- The number of the process that runs the calls, as its directory under `/proc` is named. -/
def processId : String := "2"

/-- The number of the first process of the system, which started the others. -/
def initId : String := "1"

/-- Links to the unnamed pipes a process reads its input from and writes its output and errors
to, named by their descriptors. -/
def standardPipes : List (String × Node) :=
  [("0", .magic (.held .pipe)), ("1", .magic (.held .pipe)), ("2", .magic (.held .pipe))]

/-- The files a process shows under `/proc`: its command line, the link `cwd` to its working
directory, the links to the program it runs and to its root, its open files `fds`, its mounts
and its status. -/
def processFiles (cwd : Node) (fds : List (String × Node)) : List (String × Node) :=
  [("cmdline", .file []), ("cwd", cwd), ("exe", .magic (.held .program)),
    ("fd", .dir 0o500 .kernel (named fds)), ("mounts", .file []), ("root", linkTo "/"),
    ("stat", .file []), ("status", .file [])]

/-- The directory of the running process under `/proc`: its files, and the same files again for
its one thread under `task`. -/
def processDir : Node :=
  let files := processFiles (.magic .cwd) standardPipes
  .dir 0o555 .kernel (named (files ++
    [("task", .dir 0o555 .kernel (named [(processId, .dir 0o555 .kernel (named files))]))]))

/-- The directory of the first process, which runs elsewhere; its working directory is not one
a session can know, and is taken to be `/`. -/
def initDir : Node := .dir 0o555 .kernel (named (processFiles (linkTo "/") []))

/-- The kernel's process information: a directory for each of the two processes, the links to
the running process and its thread, and the kernel's own files and settings. -/
def procDir : Node :=
  .dir 0o555 .kernel (named [(initId, initDir), (processId, processDir),
    ("cmdline", .file []), ("cpuinfo", .file []), ("filesystems", .file []),
    ("loadavg", .file []), ("meminfo", .file []), ("mounts", linkTo "self/mounts"),
    ("self", linkTo processId), ("stat", .file []),
    ("sys", .dir 0o555 .kernel (named [("kernel", .dir 0o555 .kernel [])])),
    ("thread-self", linkTo (processId ++ "/task/" ++ processId)), ("uptime", .file []),
    ("version", .file [])])

/-- The kernel's registry of its objects, one directory for each kind. -/
def sysDir : Node :=
  .dir 0o555 .registry (named (["block", "bus", "class", "dev", "devices", "firmware", "fs",
    "kernel", "module", "power"].map fun n => (n, .dir 0o755 .registry [])))

/-- The devices: the terminal, the data sinks and sources, the full device, and the links to the
process's open files and its standard pipes. -/
def devDir : Node :=
  systemDir [("fd", linkTo "/proc/self/fd"), ("full", .device .full), ("null", .device .sink),
    ("pts", systemDir []), ("random", .device .sink), ("shm", .dir 0o1777 .system []),
    ("stderr", linkTo "/proc/self/fd/2"), ("stdin", linkTo "/proc/self/fd/0"),
    ("stdout", linkTo "/proc/self/fd/1"), ("tty", .device .terminal),
    ("urandom", .device .sink), ("zero", .device .sink)]

/-- Private directories nested along `names`, each holding the next, the last one empty. -/
def nested : List Bytes → List (Bytes × Node)
  | [] => []
  | n :: ns => [(n, .dir 0o700 .user (nested ns))]

/-- The tree of the host with an empty session directory at `place`: the usual top directories,
with `/bin`, `/lib`, `/lib64` and `/sbin` linked into `/usr`, the shell linked to `dash`, and
the kernel's `/proc` and `/sys`. -/
def hostTree (place : Place) : Node :=
  systemDir [
    ("app", systemDir []),
    ("bin", linkTo "usr/bin"),
    ("boot", systemDir []),
    ("dev", devDir),
    ("etc", systemDir [("group", .file []), ("hostname", .file []), ("hosts", .file []),
      ("passwd", .file [])]),
    ("go", systemDir []),
    ("home", systemDir []),
    ("lib", linkTo "usr/lib"),
    ("lib64", linkTo "usr/lib64"),
    ("lost+found", .dir 0o700 .system []),
    ("media", systemDir []),
    ("mnt", systemDir []),
    ("old_root", systemDir []),
    ("opt", systemDir []),
    ("proc", procDir),
    ("root", .dir 0o700 .system []),
    ("run", systemDir []),
    ("sbin", linkTo "usr/sbin"),
    ("srv", systemDir []),
    ("sys", sysDir),
    ("tmp", .dir 0o1777 .system (nested place)),
    ("usr", systemDir [
      ("bin", systemDir [("dash", .file []), ("env", .file []), ("sh", linkTo "dash")]),
      ("lib", systemDir []), ("lib64", systemDir []),
      ("local", systemDir [("bin", systemDir [])]), ("sbin", systemDir []),
      ("share", systemDir [])]),
    ("var", systemDir [])]

/-- A fresh session at `place`: the host tree, with the session directory as working
directory. -/
def fresh (place : Place) : World := ⟨hostTree place, .live (rootLoc place)⟩

/-- The host tree, with nothing under `/tmp` and `/` as working directory, for work on paths
alone. -/
def atRoot : World := ⟨hostTree [], .live []⟩

/-! ## Algorithm -/

/-- The error the standard library gives for a path with a NUL byte in it. -/
def nulInPath : IoError := .custom .invalidInput "file name contained an unexpected NUL byte"

/-- A system call on bytes that must hold no NUL, with its error number as an I/O error. -/
def call (bytes : List Bytes) (f : Unit → Except Errno World) : Except IoError World :=
  if bytes.any (fun b => b.contains 0) then .error nulInPath
  else match f () with
    | .ok w => .ok w
    | .error e => .error (.ofErrno e)

def write (w : World) (path data : Bytes) : Except IoError World :=
  call [path] fun _ => w.create path data

/-- Makes one directory with a mode, as given. -/
def mkdirRaw (w : World) (path : Bytes) (mode : Nat) : Except IoError World :=
  call [path] fun _ => w.mkdir path mode

def symlink (w : World) (target path : Bytes) : Except IoError World :=
  call [target, path] fun _ => w.symlink target path

def fifo (w : World) (path : Bytes) : Except IoError World :=
  call [path] fun _ => w.mkfifo path

/-- The room for a socket's path, its terminating NUL included. -/
def socketPathRoom : Nat := 108

/-- Binds a socket, which leaves a socket entry. An empty path asks the system for an unnamed
address, which succeeds and leaves nothing in the tree. -/
def socket (w : World) (path : Bytes) : Except IoError World :=
  if path.contains 0 then .error (.custom .invalidInput "paths must not contain interior null bytes")
  else if socketPathRoom ≤ path.length then
    .error (.custom .invalidInput "path must be shorter than SUN_LEN")
  else if path.isEmpty then .ok w
  else call [] fun _ => w.bindSocket path

def chdir (w : World) (path : Bytes) : Except IoError World :=
  call [path] fun _ => w.chdir path

mutual
/-- Everything below a directory that the user can list: the entries of each directory that
grants read and search permission, with paths relative to the directory. -/
def reachable : Node → List (Bytes × Node)
  | .dir m o es => if permits m o (readBit ||| searchBit) then reachableOf es else []
  | _ => []

def reachableOf : List (Bytes × Node) → List (Bytes × Node)
  | [] => []
  | (name, n) :: es =>
    (name, n) :: (reachable n).map (fun d => (name ++ Bytes.slash :: d.1, d.2)) ++ reachableOf es
end

/-- Everything the user can list below the session directory at `place`, with paths relative to
it, sorted by path, component by component. Directories that cannot be read are shown without
what they hold. -/
def listing (place : Place) (w : World) : List (Bytes × Node) :=
  match w.root.get? (rootLoc place) with
  | some d => (reachable d).mergeSort (fun a b => !Bytes.pathBefore b.1 a.1)
  | none => []

end Session

end DirTree
