/-!
# Text

Source files, documents and messages are lists of characters, so that every scan below is a
recursion on the text itself. This module holds the type, the two character classes that the line
patterns use, and the ways a text is cut: at a character, at a word, at a literal start.

A *blank* is one of the five ASCII characters tab, line feed, form feed, carriage return and space.
A *word character* is an ASCII letter, an ASCII digit or an underscore. Unicode white space, which
is what trimming removes, is a larger class and has its own module.
-/
namespace ObjcOutline

/-- A text is the list of its characters. -/
abbrev Text := List Char

instance : Coe String Text := ⟨String.toList⟩

namespace Text

def isBlank (c : Char) : Bool :=
  c == ' ' || c == '\t' || c == '\n' || c == '\r' || c == '\x0c'

def isWordChar (c : Char) : Bool :=
  ('a' ≤ c && c ≤ 'z') || ('A' ≤ c && c ≤ 'Z') || ('0' ≤ c && c ≤ '9') || c == '_'

def skipBlanks (t : Text) : Text := t.dropWhile isBlank

/-- Drops a run of leading blanks that has at least one member. -/
def skipBlanks? : Text → Option Text
  | [] => none
  | c :: r => if isBlank c then some (skipBlanks r) else none

def after? : (start t : Text) → Option Text
  | [], t => some t
  | _ :: _, [] => none
  | a :: start, c :: t => if a = c then after? start t else none

/-- The text before the first character of the class `p`, and the text after that character. -/
def cut? (p : Char → Bool) : Text → Option (Text × Text)
  | [] => none
  | c :: r => if p c then some ([], r) else (cut? p r).map fun x => (c :: x.1, x.2)

def word? (t : Text) : Option (Text × Text) :=
  match t.takeWhile isWordChar with
  | [] => none
  | c :: w => some (c :: w, t.dropWhile isWordChar)

/-- The pieces between the occurrences of `sep`; there is always one more piece than occurrences. -/
def split (sep : Char) : Text → List Text
  | [] => [[]]
  | c :: r =>
    if c = sep then [] :: split sep r
    else match split sep r with
      | [] => [[c]]
      | piece :: pieces => (c :: piece) :: pieces

def lines (t : Text) : List Text := split '\n' t

/-- A line without its last character when that is a carriage return. -/
def dropReturn (line : Text) : Text :=
  if line.getLast? = some '\r' then line.dropLast else line

def occursIn (p : Text) : Text → Bool
  | [] => p.isEmpty
  | c :: r => p.isPrefixOf (c :: r) || occursIn p r

def join (sep : Text) (parts : List Text) : Text := sep.intercalate parts

/-- The number of bytes of the text in UTF-8. -/
def byteLength (t : Text) : Nat := t.foldr (fun c n => c.utf8Size + n) 0

def ofNat (n : Nat) : Text := Nat.toDigits 10 n

/-- The decimal digits of a number, after a minus sign when it is negative. -/
def ofInt : Int → Text
  | .ofNat n => ofNat n
  | .negSucc n => '-' :: ofNat (n + 1)

/-- Puts spaces before a text until it is `width` characters long. -/
def padLeft (width : Nat) (t : Text) : Text :=
  List.replicate (width - t.length) ' ' ++ t

def hexValue? (c : Char) : Option Nat :=
  if '0' ≤ c && c ≤ '9' then some (c.toNat - 48)
  else if 'a' ≤ c && c ≤ 'f' then some (c.toNat - 87)
  else if 'A' ≤ c && c ≤ 'F' then some (c.toNat - 55)
  else none

def hexNumber? (digits : Text) : Option Nat :=
  digits.foldl (fun n c => n.bind fun n => (hexValue? c).map (n * 16 + ·)) (some 0)

theorem split_ne_nil (sep : Char) (t : Text) : split sep t ≠ [] := by
  cases t with
  | nil => simp [split]
  | cons c r =>
    rw [split]
    split
    · simp
    · split <;> simp

end Text

end ObjcOutline
