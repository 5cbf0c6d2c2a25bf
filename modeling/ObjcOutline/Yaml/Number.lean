import ObjcOutline.Text.Basic

/-!
# Numbers in YAML

Which plain scalars are whole numbers and which are decimal fractions. A whole number may be signed,
may be written in base two, eight, ten or sixteen, and has to fit into 64 bits, signed or, without
a sign, unsigned. A fraction has to be finite as a double-precision number.
-/
namespace ObjcOutline.Yaml.Number

def digit? (c : Char) : Option Nat :=
  if '0' ≤ c && c ≤ '9' then some (c.toNat - 48)
  else if 'a' ≤ c && c ≤ 'f' then some (c.toNat - 87)
  else if 'A' ≤ c && c ≤ 'F' then some (c.toNat - 55)
  else none

def digits? (base : Nat) (t : Text) : Option Nat :=
  t.foldl (fun n c => n.bind fun n => (digit? c).bind fun d =>
    if d < base then some (n * base + d) else none) (some 0)

def magnitude? (base : Nat) (t : Text) : Option Nat :=
  if t.isEmpty then none else digits? base t

/-- A number whose base is shown by how it starts: `0b`, `0o`, `0x`, or `0` for base eight. -/
def basedMagnitude? (t : Text) : Option Nat :=
  match t with
  | '0' :: x :: c :: r =>
    if x == 'b' || x == 'B' then digits? 2 (c :: r)
    else if x == 'o' || x == 'O' then digits? 8 (c :: r)
    else if x == 'x' || x == 'X' then digits? 16 (c :: r)
    else digits? 8 (x :: c :: r)
  | '0' :: r => digits? 8 r
  | _ => magnitude? 10 t

/-- Whether a magnitude with an optional sign fits into a signed 64-bit number. -/
def fitsSigned (magnitude? : Text → Option Nat) (t : Text) : Bool :=
  match t with
  | '-' :: r => (magnitude? r).any (· ≤ Nat.pow 2 63)
  | '+' :: r => (magnitude? r).any (· < Nat.pow 2 63)
  | _ => (magnitude? t).any (· < Nat.pow 2 63)

def fitsUnsigned (magnitude? : Text → Option Nat) (t : Text) : Bool :=
  (magnitude? t).any (· < Nat.pow 2 64)

def isPrefixed (t : Text) : Bool :=
  match t with
  | '0' :: 'b' :: r => fitsSigned (magnitude? 2) r || fitsUnsigned (magnitude? 2) r
  | '0' :: 'o' :: r => fitsSigned (magnitude? 8) r || fitsUnsigned (magnitude? 8) r
  | _ => false

/-- Whether a text is a whole number whose base is shown by how it starts. Underscores have been
removed. -/
def isWhole (t : Text) : Bool :=
  fitsSigned basedMagnitude? t || fitsUnsigned basedMagnitude? t

/-- A decimal fraction: the number that its digits write and the power of ten to scale it by. -/
structure Decimal where
  digits : Text
  scale : Int

def isDigit (c : Char) : Bool := '0' ≤ c && c ≤ '9'

def exponent? : Text → Option Int
  | [] => some 0
  | e :: r =>
    if e == 'e' || e == 'E' then
      match r with
      | '-' :: d => if d.all isDigit then (magnitude? 10 d).map fun n => -(n : Int) else none
      | '+' :: d => if d.all isDigit then (magnitude? 10 d).map fun n => (n : Int) else none
      | d => if d.all isDigit then (magnitude? 10 d).map fun n => (n : Int) else none
    else none

/-- Reads an unsigned fraction: digits, with an optional point that may come first but not alone,
and an optional exponent. -/
def unsignedDecimal? (t : Text) : Option Decimal :=
  let whole := t.takeWhile isDigit
  match t.dropWhile isDigit with
  | '.' :: r =>
    let part := r.takeWhile isDigit
    if whole.isEmpty && part.isEmpty then none
    else (exponent? (r.dropWhile isDigit)).map fun e => ⟨whole ++ part, e - part.length⟩
  | r => if whole.isEmpty then none else (exponent? r).map fun e => ⟨whole, e⟩

def decimal? : Text → Option Decimal
  | '-' :: r => unsignedDecimal? r
  | '+' :: r => unsignedDecimal? r
  | t => unsignedDecimal? t

/-- The least number that rounds to no finite double-precision number: half a unit in the last place
above the greatest one. -/
def overflow : Nat := Nat.pow 2 1024 - Nat.pow 2 970

/-- Whether a fraction is finite as a double-precision number. Scales far from the limit are decided
by the number of digits alone. -/
def Decimal.isFinite (d : Decimal) : Bool :=
  let significant := d.digits.dropWhile (· == '0')
  let size : Int := significant.length + d.scale
  if significant.isEmpty || size < 300 then true
  else if 320 < size then false
  else
    match digits? 10 significant with
    | none => false
    | some n =>
      if 0 ≤ d.scale then n * Nat.pow 10 d.scale.toNat < overflow
      else n < overflow * Nat.pow 10 (-d.scale).toNat

def isFraction (t : Text) : Bool := (decimal? t).any Decimal.isFinite

/-- A text without its underscores, when each of them stands between two digits. -/
def joinDigits? : (afterDigit : Bool) → Text → Option Text
  | _, [] => some []
  | afterDigit, '_' :: r =>
    if afterDigit && r.head?.any isDigit then joinDigits? false r else none
  | _, c :: r => (joinDigits? (isDigit c) r).map (c :: ·)

end ObjcOutline.Yaml.Number
