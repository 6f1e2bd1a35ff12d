/-!
# Byte strings

Paths, entry names and file contents are byte strings. The OS reads a path only up to its first
NUL byte, and splits it into components at `/` bytes, where empty components (from `//` or a
leading or trailing `/`) count for nothing:

    cutNul (b ++ 0 :: c) = b                    (when 0 ∉ b)
    components "a//b/" = ["a", "b"]
-/

namespace DirTree

/-- A byte string. -/
abbrev Bytes := List UInt8

namespace Bytes

def slash : UInt8 := 47

def dot : Bytes := [46]

def dotdot : Bytes := [46, 46]

def ofString (s : String) : Bytes := s.toUTF8.toList

/-! ## Algorithm -/

/-- The bytes before the first NUL. -/
def cutNul (b : Bytes) : Bytes := b.takeWhile (· != 0)

def endsWithSlash (b : Bytes) : Bool := b.getLast? == some slash

def startsWithSlash (b : Bytes) : Bool := b.head? == some slash

/-- The pieces between `/` bytes, empty pieces included: `pieces "a//b" = ["a", "", "b"]`. -/
def pieces : Bytes → List Bytes
  | [] => [[]]
  | b :: rest =>
    if b == slash then [] :: pieces rest
    else match pieces rest with
      | [] => [[b]]
      | p :: ps => (b :: p) :: ps

/-- The components of a path: its non-empty pieces. -/
def components (b : Bytes) : List Bytes := (pieces b).filter (· != [])

/-- Byte-wise order, a proper prefix first. -/
def before : Bytes → Bytes → Bool
  | [], [] => false
  | [], _ :: _ => true
  | _ :: _, [] => false
  | a :: as, b :: bs => a < b || (a == b && before as bs)

/-- Order on paths, component by component: a path comes before the paths below it, and before
a sibling whose name it is a proper prefix of. -/
def pathBefore (a b : Bytes) : Bool :=
  let rec go : List Bytes → List Bytes → Bool
    | [], [] => false
    | [], _ :: _ => true
    | _ :: _, [] => false
    | x :: xs, y :: ys => before x y || (x == y && go xs ys)
  go (components a) (components b)

def hex (b : Bytes) : String :=
  let digit (n : Nat) : Char := if n < 10 then Char.ofNat (48 + n) else Char.ofNat (87 + n)
  String.ofList (b.flatMap fun x => [digit (x.toNat / 16), digit (x.toNat % 16)])

/-! ## Lemmas -/

theorem cutNul_no_nul (b : Bytes) : 0 ∉ cutNul b := by
  induction b with
  | nil => simp [cutNul]
  | cons x rest ih =>
    by_cases hx : x = 0
    · simp [cutNul, hx]
    · simpa [cutNul, List.takeWhile_cons, hx, Ne.symm hx] using ih

example : components [97, 47, 47, 98, 47] = [[97], [98]] := by decide
example : cutNul [97, 0, 98] = [97] := by decide
example : hex [255, 47, 97] = "ff2f61" := by decide

end Bytes

end DirTree
