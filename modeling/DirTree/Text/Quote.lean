import DirTree.Text.Printable
import DirTree.Text.Utf8

/-!
# Quoted text

Error reports print texts and byte strings between double quotes, with the characters that would
be unreadable there escaped: the usual backslash escapes, `\u{…}` for the other characters that
are not written as themselves (`Printable`), and `\xNN` for each byte of a piece that is not
UTF-8.

    quote "a\"b" = "\"a\\\"b\""
    quoteBytes [0x61, 0xFF] = "\"a\\xFF\""
-/

namespace DirTree

namespace Quote

/-! ## Algorithm -/

/-- Lowercase hexadecimal digits of a number, without leading zeros. -/
def hexDigits (n : Nat) : String := String.ofList (Nat.toDigits 16 n)

/-- Uppercase hexadecimal digits of a byte, two of them. -/
def byteDigits (b : UInt8) : String :=
  let digit (n : Nat) : Char := if n < 10 then Char.ofNat (48 + n) else Char.ofNat (55 + n)
  String.ofList [digit (b.toNat / 16), digit (b.toNat % 16)]

/-- A character as written between double quotes. -/
def escape (c : Char) : String :=
  if c == '\t' then "\\t"
  else if c == '\r' then "\\r"
  else if c == '\n' then "\\n"
  else if c == '\\' then "\\\\"
  else if c == '"' then "\\\""
  else if c.toNat == 0 then "\\0"
  else if Printable.shown c then c.toString
  else "\\u\x7b" ++ hexDigits c.toNat ++ "\x7d"

def quote (s : String) : String :=
  "\"" ++ String.join (s.toList.map escape) ++ "\""

/-- A byte string between double quotes: its UTF-8 pieces as characters, each byte of a broken
piece as `\xNN`. -/
def quoteBytes (b : Bytes) : String :=
  let piece : Utf8.Piece → String
    | .scalar c => escape c
    | .broken bs => String.join (bs.map fun x => "\\x" ++ byteDigits x)
  "\"" ++ String.join ((Utf8.pieces b).map piece) ++ "\""

/-! ## Lemmas -/

example : quote "a\"b" = "\"a\\\"b\"" := by decide
example : quoteBytes [0x61, 0xFF] = "\"a\\xFF\"" := by decide

end Quote

end DirTree
