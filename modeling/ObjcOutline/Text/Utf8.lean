import ObjcOutline.Text.Basic

/-!
# Reading bytes as UTF-8

`decode` reads any list of bytes as text and never fails. A byte at which no character starts is
invalid; each longest run of invalid bytes becomes one replacement character U+FFFD. A character
starts at a byte when the one to four bytes from there on are a shortest form of a Unicode scalar
value, so overlong forms, surrogates, values above U+10FFFF and truncated sequences are all invalid,
byte by byte. One byte-order mark at the very start of the result is dropped.

`decodeEach` keeps a replacement character for every invalid byte instead.
-/
namespace ObjcOutline

abbrev Bytes := List UInt8

namespace Utf8

/-- A byte of the form `10xxxxxx`. -/
def isTail (b : UInt8) : Bool := 0x80 ≤ b && b ≤ 0xBF

def tailBits (b : UInt8) : Nat := b.toNat % 64

/-- The number of bytes of the form that a byte leads, as far as its highest bits tell. -/
def formLength? (b : UInt8) : Option Nat :=
  if b < 0x80 then some 1
  else if 0xC0 ≤ b && b ≤ 0xDF then some 2
  else if 0xE0 ≤ b && b ≤ 0xEF then some 3
  else if 0xF0 ≤ b && b ≤ 0xF7 then some 4
  else none

def isSecondOfThree (a b : UInt8) : Bool :=
  if a = 0xE0 then 0xA0 ≤ b && b ≤ 0xBF
  else if a = 0xED then 0x80 ≤ b && b ≤ 0x9F
  else isTail b

def isSecondOfFour (a b : UInt8) : Bool :=
  if a = 0xF0 then 0x90 ≤ b && b ≤ 0xBF
  else if a = 0xF4 then 0x80 ≤ b && b ≤ 0x8F
  else isTail b

/-- The character that starts at the first byte, with the number of bytes it takes. -/
def head? : Bytes → Option (Char × Nat)
  | [] => none
  | a :: r =>
    if a < 0x80 then some (Char.ofNat a.toNat, 1)
    else if 0xC2 ≤ a && a ≤ 0xDF then
      match r with
      | b :: _ =>
        if isTail b then some (Char.ofNat (a.toNat % 32 * 64 + tailBits b), 2) else none
      | [] => none
    else if 0xE0 ≤ a && a ≤ 0xEF then
      match r with
      | b :: c :: _ =>
        if isSecondOfThree a b && isTail c then
          some (Char.ofNat ((a.toNat % 16 * 64 + tailBits b) * 64 + tailBits c), 3)
        else none
      | _ => none
    else if 0xF0 ≤ a && a ≤ 0xF4 then
      match r with
      | b :: c :: d :: _ =>
        if isSecondOfFour a b && isTail c && isTail d then
          some (Char.ofNat
            (((a.toNat % 8 * 64 + tailBits b) * 64 + tailBits c) * 64 + tailBits d), 4)
        else none
      | _ => none
    else none

/-- The characters of the bytes in order, with `none` for every invalid byte. The first `skip` bytes
belong to a character that has been read already. -/
def unitsFrom : (skip : Nat) → Bytes → List (Option Char)
  | _, [] => []
  | skip + 1, _ :: r => unitsFrom skip r
  | 0, b :: r =>
    match head? (b :: r) with
    | some (c, width) => some c :: unitsFrom (width - 1) r
    | none => none :: unitsFrom 0 r

def units (data : Bytes) : List (Option Char) := unitsFrom 0 data

def replacement : Char := '\uFFFD'

def mark : Char := '\uFEFF'

/-- Writes one replacement character for each longest run of `none`. The flag says whether the unit
before was part of such a run. -/
def mergeRuns : (inRun : Bool) → List (Option Char) → Text
  | _, [] => []
  | _, some c :: r => c :: mergeRuns false r
  | true, none :: r => mergeRuns true r
  | false, none :: r => replacement :: mergeRuns true r

def dropMark : Text → Text
  | [] => []
  | c :: r => if c = mark then r else c :: r

def decode (data : Bytes) : Text := dropMark (mergeRuns false (units data))

/-- The text of the bytes, with a replacement character for every invalid byte. -/
def decodeEach (data : Bytes) : Text := (units data).map (·.getD replacement)

def encode (t : Text) : Bytes := t.flatMap String.utf8EncodeChar

theorem length_encode (t : Text) : (encode t).length = t.byteLength := by
  induction t with
  | nil => rfl
  | cons c r ih =>
    simp only [encode, Text.byteLength, List.flatMap_cons, List.length_append, List.foldr_cons,
      String.length_utf8EncodeChar] at ih ⊢
    rw [ih]

end Utf8

end ObjcOutline
