import DirTree.Text.Utf8

/-!
# Paths

A path is the byte string that is handed to the OS. It is built from bytes cut at their first
NUL, since the OS could not see past it. Appending follows one separator rule, and the last `/`
splits a path into its directory and its base name:

    (ofBytes b).bytes = cutNul b
    p.append m = p                      (cutNul m = [])
               = ofBytes m              (cutNul m starts with '/')
               = p ++ m                 (p empty or ending in '/')
               = p ++ "/" ++ m          (otherwise)
    p.dirname ++ "/" ++ p.basename = p  (p holds a '/')

The in-place edits `setBasename` and `setDirname` find the last `/` by its position and drain or
cut the bytes around it; `basename` and `dirname` are the copies.
-/

namespace DirTree

open Bytes

/-- A path: the bytes handed to the OS. -/
structure Path where
  bytes : Bytes
deriving DecidableEq, Repr, Inhabited

namespace Path

def empty : Path := ⟨[]⟩

/-- The path of some bytes: those before the first NUL. -/
def ofBytes (b : Bytes) : Path := ⟨cutNul b⟩

def ofString (s : String) : Path := ofBytes (Bytes.ofString s)

def len (p : Path) : Nat := p.bytes.length

def isEmpty (p : Path) : Bool := p.bytes.isEmpty

/-! ## Algorithm -/

/-- Appends more bytes, cut at their first NUL. Nothing is left is a no-op; a leading `/`
replaces the path; otherwise one `/` separates the two, unless the path is empty or already
ends in `/`. -/
def append (p : Path) (more : Bytes) : Path :=
  match cutNul more with
  | [] => p
  | m@(c :: _) =>
    if c == slash then ⟨m⟩
    else if p.bytes.isEmpty || endsWithSlash p.bytes then ⟨p.bytes ++ m⟩
    else ⟨p.bytes ++ slash :: m⟩

def appendPath (p q : Path) : Path := p.append q.bytes

/-- The path cut back to its first `n` bytes, which undoes an `append` to a path of `n` bytes. -/
def truncate (p : Path) (n : Nat) : Path := ⟨p.bytes.take n⟩

/-- What follows the last `/`; a path without `/` is its own base name. -/
def basename (p : Path) : Path := ⟨(p.bytes.reverse.takeWhile (· != slash)).reverse⟩

/-- What precedes the last `/`; a path without `/` has an empty directory part. -/
def dirname (p : Path) : Path := ⟨((p.bytes.reverse.dropWhile (· != slash)).drop 1).reverse⟩

/-- The position of the last `/`, counted from the front, if there is one. -/
def lastSeparator (p : Path) : Option Nat :=
  (p.bytes.reverse.findIdx? (· == slash)).map (p.len - 1 - ·)

/-- The path edited in place to its base name: the bytes up to the last `/` and that `/` are
drained; a path without `/` is left as it is. -/
def setBasename (p : Path) : Path :=
  match p.lastSeparator with
  | some i => ⟨p.bytes.drop (i + 1)⟩
  | none => p

/-- The path edited in place to its directory part: it is cut back to before its last `/`; a
path without `/` is cleared. -/
def setDirname (p : Path) : Path :=
  match p.lastSeparator with
  | some i => ⟨p.bytes.take i⟩
  | none => empty

/-- The path made absolute against the working directory `cwd`: `cwd ++ "/" ++ p`, byte for byte.
A path whose last byte is `/` is taken to be absolute already and kept. -/
def absoluteIn (p : Path) (cwd : Bytes) : Path :=
  if endsWithSlash p.bytes then p else ⟨cwd ++ slash :: p.bytes⟩

/-- Whether the path needs the working directory to be made absolute. -/
def needsCwd (p : Path) : Bool := !endsWithSlash p.bytes

def toStr? (p : Path) : Option String := Utf8.decode? p.bytes

/-- The text of the path with each broken piece read as U+FFFD. -/
def lossy (p : Path) : String := Utf8.lossy p.bytes

def eqText (p : Path) (s : String) : Bool := p.bytes == Bytes.ofString s

/-- Whether the path equals a byte string, byte for byte (nothing is cut from `b`). -/
def eqBytes (p : Path) (b : Bytes) : Bool := p.bytes == b

/-! ## Lemmas -/

@[simp] theorem ofBytes_bytes (b : Bytes) : (ofBytes b).bytes = cutNul b := rfl

/-- A directory part that is not empty is shorter than its path: the recursion of `mkdir` on
directory parts ends. -/
theorem dirname_len_lt (p : Path) (h : p.dirname.isEmpty = false) : p.dirname.len < p.len := by
  have hle := (List.dropWhile_sublist (l := p.bytes.reverse) (· != slash)).length_le
  unfold dirname len isEmpty at *
  generalize p.bytes.reverse.dropWhile (· != slash) = l at *
  simp only [List.length_reverse] at *
  cases l with
  | nil => simp at h
  | cons x xs => simp at *; omega

example : (ofBytes [47, 118, 97, 114]).append [108, 111, 103] = ⟨[47, 118, 97, 114, 47, 108, 111, 103]⟩ := by
  decide
example : (ofBytes [97, 47, 98]).dirname = ⟨[97]⟩ := by decide
example : (ofBytes [97, 47, 98]).basename = ⟨[98]⟩ := by decide
example : (ofBytes [47]).dirname = empty := by decide
example : (ofBytes [97, 47, 47, 98]).setDirname = ⟨[97, 47]⟩ := by decide
example : (ofBytes [120]).absoluteIn [47] = ⟨[47, 47, 120]⟩ := by decide

end Path

end DirTree
