import ObjcOutline.Text.Utf8

/-!
# The characters of a YAML file

A YAML file is UTF-8, or UTF-16 when it starts with the byte-order mark of one of its two byte
orders. A byte-order mark at the start is not part of the text. Invalid byte sequences and control
characters other than tab and the line ends damage a file.

A file is decoded in pages. A page is made of the next 512 bytes, less a character that they cut in
two, which goes to the page after. Damage counts once the page that holds it is asked for, and a
file may be read without its last pages. So the text of an input ends before the first page that is
damaged.
-/
namespace ObjcOutline.Yaml

def isAllowed (c : Char) : Bool :=
  let n := c.toNat
  n == 0x09 || n == 0x0A || n == 0x0D || (0x20 ≤ n && n ≤ 0x7E) || n == 0x85 ||
    (0xA0 ≤ n && n ≤ 0xD7FF) || (0xE000 ≤ n && n ≤ 0xFFFD) || 0x10000 ≤ n

/-- What stands at the start of some bytes: a character of so many bytes, a part of one, or
damage. -/
inductive LeadingForm
  | char (c : Char) (width : Nat)
  | cut
  | damaged
deriving DecidableEq, Repr

namespace LeadingForm

def ofChar (c : Char) (width : Nat) : LeadingForm :=
  if isAllowed c then char c width else damaged

/-- The start of bytes in UTF-8. The first byte tells how many bytes have to be there. -/
def utf8 (data : Bytes) : LeadingForm :=
  match data.head?.bind Utf8.formLength? with
  | none => damaged
  | some n =>
    if (data.drop (n - 1)).isEmpty then cut
    else match Utf8.head? data with
      | some (c, width) => ofChar c width
      | none => damaged

def isHighHalf (n : Nat) : Bool := 0xD800 ≤ n && n ≤ 0xDBFF

def isLowHalf (n : Nat) : Bool := 0xDC00 ≤ n && n ≤ 0xDFFF

def utf16 (lowFirst : Bool) : Bytes → LeadingForm
  | a :: b :: r =>
    let n := unit a b
    if isLowHalf n then damaged
    else if isHighHalf n then
      match r with
      | x :: y :: _ =>
        let m := unit x y
        if isLowHalf m then
          ofChar (Char.ofNat (0x10000 + (n - 0xD800) * 0x400 + (m - 0xDC00))) 4
        else damaged
      | _ => cut
    else ofChar (Char.ofNat n) 2
  | _ => cut
where
  unit (a b : UInt8) : Nat :=
    if lowFirst then b.toNat * 256 + a.toNat else a.toNat * 256 + b.toNat

end LeadingForm

/-- The characters of a page and the bytes of one that is cut in two, unless there is damage. Every
character takes a byte, so the number of bytes bounds them. -/
def decodePage (leading : Bytes → LeadingForm) : (fuel : Nat) → Bytes → Option (Text × Bytes)
  | _, [] => some ([], [])
  | 0, data => some ([], data)
  | fuel + 1, data =>
    match leading data with
    | .char c width =>
      (decodePage leading fuel (data.drop width)).map fun page => (c :: page.1, page.2)
    | .cut => some ([], data)
    | .damaged => none

/-- A file as it is decoded: its text up to the first damaged page, the ends of the pages of that
text, counted in characters, and whether damage follows. -/
structure Input where
  text : Text := []
  pageEnds : List Nat := []
  isDamaged : Bool := false
deriving DecidableEq, Repr

namespace Input

def pageSize : Nat := 512

def addPage (page : Text) (rest : Input) : Input where
  text := page ++ rest.text
  pageEnds := page.length :: rest.pageEnds.map (page.length + ·)
  isDamaged := rest.isDamaged

/-- Decodes bytes in pages, the first of the given size. A page passes at least a byte, so the
number of bytes bounds the pages. -/
def decode (leading : Bytes → LeadingForm) : (fuel : Nat) → (size : Nat) → Bytes → Input
  | _, _, [] => {}
  | 0, _, _ => {}
  | fuel + 1, size, data =>
    match decodePage leading size (data.take size) with
    | none => { isDamaged := true }
    | some (page, cut) =>
      match data.drop size with
      | [] => addPage page { isDamaged := !cut.isEmpty }
      | later => addPage page (decode leading fuel pageSize (cut ++ later))

/-- The input of a file. The first page is shorter by the byte-order mark. -/
def ofBytes (data : Bytes) : Input :=
  match data with
  | 0xFF :: 0xFE :: r => decode (LeadingForm.utf16 true) r.length (pageSize - 2) r
  | 0xFE :: 0xFF :: r => decode (LeadingForm.utf16 false) r.length (pageSize - 2) r
  | 0xEF :: 0xBB :: 0xBF :: r => decode LeadingForm.utf8 r.length (pageSize - 3) r
  | _ => decode LeadingForm.utf8 data.length pageSize data

end Input

end ObjcOutline.Yaml
