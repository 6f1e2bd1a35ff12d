/-!
# Kinds of entries, modes and policy flags

The small values that the tree operations take and return: what a path names (`Kind`), the
permission bits a new directory gets (`Mode`), and how tolerant and how deep an operation is
(`Flags`).

    (Mode.ofNat m).bits = m % 4096          Mode.default.bits = 0o755
    Flags.all = Flags.deep.withPermissive true
-/

namespace DirTree

/-- What a path names. Nothing at the path, or at one of its ancestors, is an ordinary answer,
not an error; a link is named as itself, never as its target, and a device, socket or named pipe
is `unknown`. -/
inductive Kind where
  | missing
  | regular
  | directory
  | symlink
  | unknown
deriving DecidableEq, Repr, Inhabited

namespace Kind

def isMissing (k : Kind) : Bool := k == .missing

def isFile (k : Kind) : Bool := k == .regular

def isDir (k : Kind) : Bool := k == .directory

def isSymlink (k : Kind) : Bool := k == .symlink

/-- The name a kind is printed under. -/
def name : Kind → String
  | .missing => "Missing"
  | .regular => "Regular"
  | .directory => "Directory"
  | .symlink => "Symlink"
  | .unknown => "Unknown"

def ofName? (s : String) : Option Kind :=
  [Kind.missing, .regular, .directory, .symlink, .unknown].find? (·.name == s)

theorem ofName_name (k : Kind) : ofName? k.name = some k := by
  cases k <;> decide

end Kind

/-- The permission bits a new directory is created with: at most twelve bits. -/
structure Mode where
  bits : Nat
deriving DecidableEq, Repr

namespace Mode

/-- The mode of a number: its twelve low bits. -/
def ofNat (m : Nat) : Mode := ⟨m % 4096⟩

/-- `rwxr-xr-x`, the mode a directory gets when none is given. -/
def default : Mode := ⟨0o755⟩

instance : Inhabited Mode := ⟨default⟩

def isDefault (m : Mode) : Bool := m.bits == 0o755

end Mode

/-- How an operation treats an existing or missing target and the levels around it. Being
`permissive` accepts an existing directory when creating and a missing entry when removing; being
`recursive` creates missing ancestors first, or empties a directory before removing it. -/
structure Flags where
  permissive : Bool
  recursive : Bool
deriving DecidableEq, Repr

namespace Flags

/-- Strict, one level. -/
def strict : Flags := ⟨false, false⟩

/-- Tolerant, one level. -/
def tolerant : Flags := ⟨true, false⟩

/-- Strict, the whole tree. -/
def deep : Flags := ⟨false, true⟩

/-- Tolerant, the whole tree. -/
def all : Flags := ⟨true, true⟩

instance : Inhabited Flags := ⟨strict⟩

def withPermissive (f : Flags) (v : Bool) : Flags := { f with permissive := v }

def withRecursive (f : Flags) (v : Bool) : Flags := { f with recursive := v }

/-- The name of the constant equal to the flags. -/
def name (f : Flags) : String :=
  match f.permissive, f.recursive with
  | false, false => "NONE"
  | true, false => "PERMISSIVE"
  | false, true => "RECURSIVE"
  | true, true => "ALL"

/-- The flags a constant's name stands for. -/
def ofName? : String → Option Flags
  | "NONE" => some strict
  | "PERMISSIVE" => some tolerant
  | "RECURSIVE" => some deep
  | "ALL" => some all
  | _ => none

/-! ## Lemmas -/

theorem deep_withPermissive : deep.withPermissive true = all := rfl

theorem ofName_name (f : Flags) : ofName? f.name = some f := by
  cases f with
  | mk p r => cases p <;> cases r <;> rfl

end Flags

end DirTree
