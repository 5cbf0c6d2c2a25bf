import ObjcOutline.Yaml.Number

/-!
# Timestamps in YAML

Which plain scalars are timestamps: a date with a year of four digits, alone or followed by a time of
day. After a `T` the time has a zone, after a space it has none. Month, day and the parts of the time
have one or two digits and must exist.
-/
namespace ObjcOutline.Yaml.Timestamp

/-- A number of one or two digits, at most `limit`, and what follows it. -/
def shortNumber? (limit : Nat) (t : Text) : Option (Nat × Text) :=
  let digits := (t.take 2).takeWhile Number.isDigit
  match Number.magnitude? 10 digits with
  | some n => if n ≤ limit then some (n, t.drop digits.length) else none
  | none => none

def daysIn (year month : Nat) : Nat :=
  if month = 2 then
    if year % 4 = 0 && (year % 100 ≠ 0 || year % 400 = 0) then 29 else 28
  else if month = 4 || month = 6 || month = 9 || month = 11 then 30
  else 31

def afterDate? (t : Text) : Option Text := do
  guard ((t.takeWhile Number.isDigit).length = 4)
  let year ← Number.magnitude? 10 (t.take 4)
  let (month, r) ← shortNumber? 12 (← Text.after? ['-'] (t.drop 4))
  guard (1 ≤ month)
  let (day, r) ← shortNumber? (daysIn year month) (← Text.after? ['-'] r)
  guard (1 ≤ day)
  return r

/-- A text without the fraction of a second that it starts with. -/
def dropFraction (t : Text) : Text :=
  match t with
  | mark :: d :: r =>
    if (mark == '.' || mark == ',') && Number.isDigit d then r.dropWhile Number.isDigit else t
  | _ => t

def afterTime? (t : Text) : Option Text := do
  let (_, r) ← shortNumber? 23 t
  let (_, r) ← shortNumber? 59 (← Text.after? [':'] r)
  let (_, r) ← shortNumber? 59 (← Text.after? [':'] r)
  return dropFraction r

/-- Whether a text is a zone: `Z`, or a sign, hours and minutes of two digits each. -/
def isZone : Text → Bool
  | ['Z'] => true
  | [sign, a, b, ':', c, d] =>
    (sign == '+' || sign == '-') && [a, b, c, d].all Number.isDigit &&
      (Number.magnitude? 10 [a, b]).any (· ≤ 24) && (Number.magnitude? 10 [c, d]).any (· ≤ 60)
  | _ => false

def isTimestamp (t : Text) : Bool :=
  match afterDate? t with
  | none => false
  | some [] => true
  | some (mark :: r) =>
    if mark == 'T' || mark == 't' then (afterTime? r).any isZone
    else if mark == ' ' then (afterTime? (r.dropWhile (· == ' '))).any (·.isEmpty)
    else false

end ObjcOutline.Yaml.Timestamp
