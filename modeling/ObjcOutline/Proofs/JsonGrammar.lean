import ObjcOutline.SymbolMap.Document
import ObjcOutline.Proofs.Scanning

/-!
# The grammar of JSON

The productions of JSON as relations between a text and what it stands for: numbers stand for
rationals, strings for texts, and objects for the list of their members in the order written. The
text of a production is written with the production; nothing here reads a text from left to right.

Strings stand for texts of Unicode characters. Two escaped surrogates that form a pair stand for one
character; a surrogate without its partner stands for none, so a string with one has no value.
-/
namespace ObjcOutline.Json

/-- What a JSON text stands for. -/
inductive Value
  | null
  | bool (b : Bool)
  | number (q : Rat)
  | string (t : Text)
  | array (elements : List Value)
  | object (members : List (Text × Value))

/-- The parts of a text that the grammar tells apart, each with what it stands for: a value, the
elements between the brackets of an array, a member of an object and the members between its
brackets. -/
inductive Phrase
  | value (v : Value)
  | elements (vs : List Value)
  | member (m : Text × Value)
  | members (ms : List (Text × Value))

def isSpacing (c : Char) : Bool := c == ' ' || c == '\t' || c == '\n' || c == '\r'

/-- A run of spacing characters, possibly empty. -/
def IsSpacing (w : Text) : Prop := ∀ c ∈ w, isSpacing c = true

def escaped? : Char → Option Char
  | '"' => some '"'
  | '\\' => some '\\'
  | '/' => some '/'
  | 'b' => some '\x08'
  | 'f' => some '\x0c'
  | 'n' => some '\n'
  | 'r' => some '\r'
  | 't' => some '\t'
  | _ => none

def codeUnit? (digits : Text) : Option Nat :=
  if digits.length = 4 then Text.hexNumber? digits else none

def surrogates? (high low : Nat) : Option Char :=
  if 0xD800 ≤ high ∧ high ≤ 0xDBFF ∧ 0xDC00 ≤ low ∧ low ≤ 0xDFFF then
    some (Char.ofNat (0x10000 + (high - 0xD800) * 0x400 + (low - 0xDC00)))
  else none

def isPlain (c : Char) : Bool := 0x20 ≤ c.toNat && c != '"' && c != '\\'

/-- The ways to write a character in a string. -/
inductive StringChar : Text → Char → Prop
  | plain {c : Char} : isPlain c = true → StringChar [c] c
  | escaped {letter c : Char} : escaped? letter = some c → StringChar ['\\', letter] c
  | unit {digits : Text} {n : Nat} : codeUnit? digits = some n → n.isValidChar →
      StringChar ('\\' :: 'u' :: digits) (Char.ofNat n)
  | pair {first second : Text} {high low : Nat} {c : Char} : codeUnit? first = some high →
      codeUnit? second = some low → surrogates? high low = some c →
      StringChar ('\\' :: 'u' :: (first ++ '\\' :: 'u' :: second)) c

inductive StringBody : Text → Text → Prop
  | nil : StringBody [] []
  | cons {form body t : Text} {c : Char} : StringChar form c → StringBody body t →
      StringBody (form ++ body) (c :: t)

def IsDigits (d : Text) : Prop := d ≠ [] ∧ ∀ c ∈ d, c.isDigit = true

def digitsValue (d : Text) : Nat := Nat.ofDigitChars 10 d 0

/-- The digits before the point. Only zero itself starts with a zero. -/
inductive Whole : Text → Nat → Prop
  | zero : Whole ['0'] 0
  | digits {d : Text} : IsDigits d → d.head? ≠ some '0' → Whole d (digitsValue d)

/-- The point and the digits after it, where there are any. -/
inductive Fraction : Text → Rat → Prop
  | none : Fraction [] 0
  | digits {d : Text} : IsDigits d → Fraction ('.' :: d) (digitsValue d / 10 ^ d.length)

def isExponentMark (c : Char) : Bool := c == 'e' || c == 'E'

/-- The power of ten, where there is one. -/
inductive Exponent : Text → Int → Prop
  | none : Exponent [] 0
  | digits {e : Char} {d : Text} : isExponentMark e = true → IsDigits d →
      Exponent (e :: d) (digitsValue d)
  | plus {e : Char} {d : Text} : isExponentMark e = true → IsDigits d →
      Exponent (e :: '+' :: d) (digitsValue d)
  | minus {e : Char} {d : Text} : isExponentMark e = true → IsDigits d →
      Exponent (e :: '-' :: d) (-digitsValue d)

inductive Magnitude : Text → Rat → Prop
  | mk {whole fraction exponent : Text} {n : Nat} {f : Rat} {e : Int} : Whole whole n →
      Fraction fraction f → Exponent exponent e →
      Magnitude (whole ++ (fraction ++ exponent)) ((n + f) * 10 ^ e)

inductive Number : Text → Rat → Prop
  | positive {t : Text} {q : Rat} : Magnitude t q → Number t q
  | negative {t : Text} {q : Rat} : Magnitude t q → Number ('-' :: t) (-q)

/-- The productions of the grammar. Spacing may stand around every value and every key. -/
inductive Derives : Text → Phrase → Prop
  | null : Derives ['n', 'u', 'l', 'l'] (.value .null)
  | boolTrue : Derives ['t', 'r', 'u', 'e'] (.value (.bool true))
  | boolFalse : Derives ['f', 'a', 'l', 's', 'e'] (.value (.bool false))
  | number {t : Text} {q : Rat} : Number t q → Derives t (.value (.number q))
  | string {body t : Text} : StringBody body t →
      Derives ('"' :: (body ++ ['"'])) (.value (.string t))
  | emptyArray {w : Text} : IsSpacing w → Derives ('[' :: (w ++ [']'])) (.value (.array []))
  | array {t : Text} {vs : List Value} : Derives t (.elements vs) →
      Derives ('[' :: (t ++ [']'])) (.value (.array vs))
  | emptyObject {w : Text} : IsSpacing w → Derives ('\x7b' :: (w ++ ['\x7d'])) (.value (.object []))
  | object {t : Text} {ms : List (Text × Value)} : Derives t (.members ms) →
      Derives ('\x7b' :: (t ++ ['\x7d'])) (.value (.object ms))
  | spaced {before t after : Text} {v : Value} : IsSpacing before → Derives t (.value v) →
      IsSpacing after → Derives (before ++ (t ++ after)) (.value v)
  | lastElement {t : Text} {v : Value} : Derives t (.value v) → Derives t (.elements [v])
  | element {t r : Text} {v : Value} {vs : List Value} : Derives t (.value v) →
      Derives r (.elements vs) → Derives (t ++ ',' :: r) (.elements (v :: vs))
  | member {before body after t key : Text} {v : Value} : IsSpacing before → StringBody body key →
      IsSpacing after → Derives t (.value v) →
      Derives (before ++ '"' :: (body ++ '"' :: (after ++ ':' :: t))) (.member (key, v))
  | lastMember {t : Text} {m : Text × Value} : Derives t (.member m) → Derives t (.members [m])
  | members {t r : Text} {m : Text × Value} {ms : List (Text × Value)} : Derives t (.member m) →
      Derives r (.members ms) → Derives (t ++ ',' :: r) (.members (m :: ms))

end ObjcOutline.Json
