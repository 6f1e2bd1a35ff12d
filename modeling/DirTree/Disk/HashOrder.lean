import DirTree.Bytes

/-!
# The order in which a directory lists its entries

A directory of the filesystem keeps its entries ordered by a hash of their names, and lists them
back in that order. The hash is the half-MD4 directory hash with the default seed: the name is
read 32 bytes at a time (each byte as a signed char, padded with its remaining length), each block
goes through three rounds of the halved MD4 transform, and the second and third words of the
state give the major and minor hash. Entries are ordered by `(major, minor)`:

    key name = (major, minor)
    insertion keeps `entries.map (key ·.1)` ascending
-/

namespace DirTree

namespace HashOrder

/-! ## Algorithm -/

/-- The state a hash starts from. -/
def seed : List UInt32 := [0x67452301, 0xefcdab89, 0x98badcfe, 0x10325476]

def rotl (x : UInt32) (s : UInt32) : UInt32 := (x <<< s) ||| (x >>> (32 - s))

/-- The first round's mixing function. -/
def mixF (x y z : UInt32) : UInt32 := z ^^^ (x &&& (y ^^^ z))

def mixG (x y z : UInt32) : UInt32 := (x &&& y) + ((x ^^^ y) &&& z)

def mixH (x y z : UInt32) : UInt32 := x ^^^ y ^^^ z

def k2 : UInt32 := 0x5A827999

def k3 : UInt32 := 0x6ED9EBA1

def word (w : List UInt32) (i : Nat) : UInt32 := w.getD i 0

/-- One step of a round: `a + f(b, c, d) + x`, rotated. -/
def step (f : UInt32 → UInt32 → UInt32 → UInt32) (a b c d x s : UInt32) : UInt32 :=
  rotl (a + f b c d + x) s

/-- The halved MD4 transform of the state `buf` by the block `w`. -/
def transform (buf w : List UInt32) : List UInt32 :=
  let x := word w
  let a := word buf 0
  let b := word buf 1
  let c := word buf 2
  let d := word buf 3
  -- round 1
  let a := step mixF a b c d (x 0) 3
  let d := step mixF d a b c (x 1) 7
  let c := step mixF c d a b (x 2) 11
  let b := step mixF b c d a (x 3) 19
  let a := step mixF a b c d (x 4) 3
  let d := step mixF d a b c (x 5) 7
  let c := step mixF c d a b (x 6) 11
  let b := step mixF b c d a (x 7) 19
  -- round 2
  let a := step mixG a b c d (x 1 + k2) 3
  let d := step mixG d a b c (x 3 + k2) 5
  let c := step mixG c d a b (x 5 + k2) 9
  let b := step mixG b c d a (x 7 + k2) 13
  let a := step mixG a b c d (x 0 + k2) 3
  let d := step mixG d a b c (x 2 + k2) 5
  let c := step mixG c d a b (x 4 + k2) 9
  let b := step mixG b c d a (x 6 + k2) 13
  -- round 3
  let a := step mixH a b c d (x 3 + k3) 3
  let d := step mixH d a b c (x 7 + k3) 9
  let c := step mixH c d a b (x 2 + k3) 11
  let b := step mixH b c d a (x 6 + k3) 15
  let a := step mixH a b c d (x 1 + k3) 3
  let d := step mixH d a b c (x 5 + k3) 9
  let c := step mixH c d a b (x 0 + k3) 11
  let b := step mixH b c d a (x 4 + k3) 15
  [word buf 0 + a, word buf 1 + b, word buf 2 + c, word buf 3 + d]

/-- A byte read as a signed char and widened to a word. -/
def signed (b : UInt8) : UInt32 := if b < 128 then b.toUInt32 else b.toUInt32 + 0xFFFFFF00

/-- The eight words of one block: the first 32 bytes of `msg`, four to a word, most significant
first, each word started from the padding word; words past the bytes are the padding word. The
padding word repeats the byte `len` (the length left to hash, counted from this block). -/
def block (msg : Bytes) (len : Nat) : List UInt32 :=
  let pad0 : UInt32 := len.toUInt32 ||| (len.toUInt32 <<< 8)
  let pad : UInt32 := pad0 ||| (pad0 <<< 16)
  let bytes := msg.take 32
  let full := bytes.length / 4
  let word (i : Nat) : UInt32 :=
    ((bytes.drop (4 * i)).take 4).foldl (fun v b => signed b + (v <<< 8)) pad
  let words := (List.range full).map word
  let rest := if bytes.length % 4 == 0 then [] else [word full]
  let filled := words ++ rest
  filled ++ List.replicate (8 - filled.length) pad

/-- Hashes the blocks of `msg`; `len` is the number of bytes left, `fuel` bounds the blocks. -/
def blocks : Nat → Bytes → Nat → List UInt32 → List UInt32
  | 0, _, _, buf => buf
  | fuel + 1, msg, len, buf =>
    if len == 0 then buf
    else blocks fuel (msg.drop 32) (len - 32) (transform buf (block msg len))

/-- The `(major, minor)` hash of a name. The major hash has its low bit cleared, and the one value
that marks the end of a directory is moved below it. -/
def key (name : Bytes) : UInt32 × UInt32 :=
  let buf := blocks (name.length / 32 + 1) name name.length seed
  let major := word buf 1 &&& 0xFFFFFFFE
  let major := if major == 0xFFFFFFFE then 0xFFFFFFFC else major
  (major, word buf 2)

/-- Whether `a` comes before `b` in listing order. -/
def precedes (a b : Bytes) : Bool :=
  let (ma, na) := key a
  let (mb, nb) := key b
  ma < mb || (ma == mb && na < nb)

/-- Inserts an entry among entries kept in listing order: before the first entry it precedes. -/
def insert {α : Type} (name : Bytes) (x : α) : List (Bytes × α) → List (Bytes × α)
  | [] => [(name, x)]
  | e :: es => if precedes name e.1 then (name, x) :: e :: es else e :: insert name x es

end HashOrder

end DirTree
