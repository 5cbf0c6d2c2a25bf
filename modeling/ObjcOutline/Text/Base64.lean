import ObjcOutline.Text.Utf8

/-!
# Base 64

Bytes written as text, six bits a character, in groups of four. The last group is filled up with
equals signs. Line ends between the characters do not count.
-/
namespace ObjcOutline.Base64

def value? (c : Char) : Option Nat :=
  if 'A' ≤ c && c ≤ 'Z' then some (c.toNat - 65)
  else if 'a' ≤ c && c ≤ 'z' then some (c.toNat - 71)
  else if '0' ≤ c && c ≤ '9' then some (c.toNat + 4)
  else if c = '+' then some 62
  else if c = '/' then some 63
  else none

/-- The bytes of whole groups and of the filled-up group at the end. -/
def groups? : Text → Option Bytes
  | [] => some []
  | [a, b, '=', '='] => do
    let n := (← value? a) * 64 + (← value? b)
    return [(n / 16).toUInt8]
  | [a, b, c, '='] => do
    let n := ((← value? a) * 64 + (← value? b)) * 64 + (← value? c)
    return [(n / 1024).toUInt8, (n / 4).toUInt8]
  | a :: b :: c :: d :: r => do
    let n := (((← value? a) * 64 + (← value? b)) * 64 + (← value? c)) * 64 + (← value? d)
    return (n / 65536).toUInt8 :: (n / 256).toUInt8 :: n.toUInt8 :: (← groups? r)
  | _ => none

def decode? (t : Text) : Option Bytes := groups? (t.filter fun c => c != '\n' && c != '\r')

end ObjcOutline.Base64
