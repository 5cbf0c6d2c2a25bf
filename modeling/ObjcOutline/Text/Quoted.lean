import ObjcOutline.Text.Basic
import ObjcOutline.Text.Printable

/-!
# Quoted texts in messages

A text in double quotes, as messages show names: the quote and the backslash are escaped by a
backslash, seven control characters have a letter, and every other character that is not printable
is written by its number in two, four or eight hexadecimal digits.
-/
namespace ObjcOutline.Text

/-- A number in lower-case hexadecimal digits, `width` of them at least. -/
def hex (width n : Nat) : Text :=
  let digits := Nat.toDigits 16 n
  List.replicate (width - digits.length) '0' ++ digits

def controlLetter? (c : Char) : Option Char :=
  match c.toNat with
  | 0x07 => some 'a'
  | 0x08 => some 'b'
  | 0x09 => some 't'
  | 0x0A => some 'n'
  | 0x0B => some 'v'
  | 0x0C => some 'f'
  | 0x0D => some 'r'
  | _ => none

def quotedChar (c : Char) : Text :=
  if c = '"' || c = '\\' then ['\\', c]
  else if isPrintable c then [c]
  else match controlLetter? c with
    | some letter => ['\\', letter]
    | none =>
      if c.toNat < 0x20 || c.toNat = 0x7F then '\\' :: 'x' :: hex 2 c.toNat
      else if c.toNat < 0x10000 then '\\' :: 'u' :: hex 4 c.toNat
      else '\\' :: 'U' :: hex 8 c.toNat

def quoted (t : Text) : Text := '"' :: t.flatMap quotedChar ++ ['"']

end ObjcOutline.Text
