import DirTree.Bytes

/-!
# UTF-8 decoding of byte strings

A byte string decodes into pieces: a scalar value for each well-formed sequence, and one broken
piece for each maximal prefix of a sequence that cannot be completed (a stray continuation byte, a
lead byte that no sequence starts with, an overlong or surrogate form, a value past U+10FFFF, a
sequence cut short). This is the "maximal subpart" rule of the Unicode standard:

    decode? b = some s   ↔  no piece of b is broken
    lossy b              =  the pieces, each broken one read as U+FFFD
-/

namespace DirTree

namespace Utf8

/-- A decoded piece of a byte string: a well-formed sequence, as the scalar value it encodes, or
a maximal stretch of bytes that starts no well-formed sequence. -/
inductive Piece where
  | scalar (c : Char)
  | broken (bytes : Bytes)
deriving DecidableEq, Repr

/-! ## Algorithm -/

/-- A continuation byte, `10xxxxxx`. -/
def isCont (b : UInt8) : Bool := b &&& 0xC0 == 0x80

/-- How many bytes a sequence with this lead byte has; 0 for a byte that leads none. -/
def width (lead : UInt8) : Nat :=
  if lead < 0x80 then 1
  else if 0xC2 ≤ lead && lead ≤ 0xDF then 2
  else if 0xE0 ≤ lead && lead ≤ 0xEF then 3
  else if 0xF0 ≤ lead && lead ≤ 0xF4 then 4
  else 0

/-- Whether `b` may follow the lead byte of a three- or four-byte sequence: the ranges that exclude
overlong forms, surrogates and values past U+10FFFF. -/
def secondOk (lead b : UInt8) : Bool :=
  if lead == 0xE0 then 0xA0 ≤ b && b ≤ 0xBF
  else if lead == 0xED then 0x80 ≤ b && b ≤ 0x9F
  else if lead == 0xF0 then 0x90 ≤ b && b ≤ 0xBF
  else if lead == 0xF4 then 0x80 ≤ b && b ≤ 0x8F
  else isCont b

def low (b : UInt8) (k : Nat) : Nat := b.toNat % Nat.pow 2 k

def scalar2 (a b : UInt8) : Char := Char.ofNat (low a 5 * 64 + low b 6)

def scalar3 (a b c : UInt8) : Char := Char.ofNat (low a 4 * 4096 + low b 6 * 64 + low c 6)

def scalar4 (a b c d : UInt8) : Char :=
  Char.ofNat (low a 3 * 262144 + low b 6 * 4096 + low c 6 * 64 + low d 6)

def pieces : Bytes → List Piece
  | [] => []
  | [a] => if a < 0x80 then [.scalar (Char.ofNat a.toNat)] else [.broken [a]]
  | a :: b :: r =>
    if a < 0x80 then .scalar (Char.ofNat a.toNat) :: pieces (b :: r)
    else if width a == 2 then
      if isCont b then .scalar (scalar2 a b) :: pieces r else .broken [a] :: pieces (b :: r)
    else if width a == 3 && secondOk a b then
      match r with
      | [] => [.broken [a, b]]
      | c :: r' =>
        if isCont c then .scalar (scalar3 a b c) :: pieces r' else .broken [a, b] :: pieces (c :: r')
    else if width a == 4 && secondOk a b then
      match r with
      | [] => [.broken [a, b]]
      | c :: r' =>
        if isCont c then
          match r' with
          | [] => [.broken [a, b, c]]
          | d :: r'' =>
            if isCont d then .scalar (scalar4 a b c d) :: pieces r''
            else .broken [a, b, c] :: pieces (d :: r'')
        else .broken [a, b] :: pieces (c :: r')
    else .broken [a] :: pieces (b :: r)

/-- The scalar values of the pieces, if none is broken. -/
def scalars? : List Piece → Option (List Char)
  | [] => some []
  | .scalar c :: ps => (scalars? ps).map (c :: ·)
  | .broken _ :: _ => none

/-- The text a byte string encodes, if it is well-formed UTF-8. -/
def decode? (b : Bytes) : Option String := (scalars? (pieces b)).map String.ofList

def lossy (b : Bytes) : String :=
  String.ofList ((pieces b).map fun | .scalar c => c | .broken _ => '�')

def valid (b : Bytes) : Bool := (decode? b).isSome

/-! ## Lemmas -/

example : lossy [99, 97, 102, 0xE9] = "caf�" := by decide
example : lossy [0xF0, 0x9F, 0x99] = "�" := by decide
example : lossy [0xE0, 0x80] = "��" := by decide
example : pieces [0xC3, 0xA9] = [.scalar 'é'] := by decide
example : valid [0xED, 0xA0, 0x80] = false := by decide

end Utf8

end DirTree
