import ObjcOutline.Yaml.Timestamp
import ObjcOutline.Yaml.Fault

/-!
# The type of a scalar

A plain scalar without a tag has the type that its text shows: null, a truth value, a number, a
timestamp or, when it shows none of these, text. A tag asks for a type, and the text then has to show
that very type; a whole number may stand for a fraction. Tags that are not about these types leave
the text as it is.
-/
namespace ObjcOutline.Yaml

/-- The types that the text of a scalar can show. -/
inductive ScalarType
  | null
  | bool
  | int
  | float
  | timestamp
  | str
deriving DecidableEq, Repr

namespace ScalarType

def tag : ScalarType → Text
  | null => "!!null"
  | bool => "!!bool"
  | int => "!!int"
  | float => "!!float"
  | timestamp => "!!timestamp"
  | str => "!!str"

def ofTag? (t : Text) : Option ScalarType :=
  [null, bool, int, float, timestamp, str].find? (·.tag = t)

def nullWords : List Text := ["", "~", "null", "Null", "NULL"]

def trueWords : List Text := ["true", "True", "TRUE"]

def falseWords : List Text := ["false", "False", "FALSE"]

/-- The texts for what is not a finite fraction. -/
def limitWords : List Text := [".nan", ".NaN", ".NAN", ".inf", ".Inf", ".INF", "+.inf", "+.Inf",
  "+.INF", "-.inf", "-.Inf", "-.INF"]

def ofNumeric (mayBeTimestamp : Bool) (t : Text) : ScalarType :=
  let plain := t.filter (· != '_')
  if mayBeTimestamp && Timestamp.isTimestamp t then timestamp
  else if Number.isWhole plain then int
  else if Number.isFraction plain then float
  else if Number.isPrefixed plain then int
  else str

def ofText (mayBeTimestamp : Bool) (t : Text) : ScalarType :=
  if nullWords.contains t then null
  else if trueWords.contains t || falseWords.contains t then bool
  else if limitWords.contains t then float
  else
    match t with
    | '.' :: _ =>
      if (Number.joinDigits? false t).any Number.isFraction then float else str
    | c :: _ =>
      if c == '+' || c == '-' || Number.isDigit c then ofNumeric mayBeTimestamp t else str
    | [] => str

end ScalarType

inductive ScalarValue
  | null
  | bool (value : Bool)
  | text (value : Text)
  | other
deriving DecidableEq, Repr

namespace ScalarValue

def ofType (type : ScalarType) (t : Text) : ScalarValue :=
  match type with
  | .null => .null
  | .bool => .bool (ScalarType.trueWords.contains t)
  | .str => .text t
  | _ => .other

/-- Whether a text that shows `shown` may have a tag that asks for `asked`. A whole number stands for
a fraction when it fits into a signed 64-bit number. -/
def isAccepted (asked shown : ScalarType) (t : Text) : Bool :=
  asked = shown ||
    (asked = .float && shown = .int &&
      (let plain := t.filter (· != '_')
       Number.fitsSigned Number.basedMagnitude? plain || !Number.isWhole plain))

/-- The value of a scalar with the given tag. -/
def ofTagged (tag text : Text) : Except Fault ScalarValue :=
  match ScalarType.ofTag? tag with
  | none => .ok (.text text)
  | some .str => .ok (.text text)
  | some asked =>
    let shown := ScalarType.ofText (asked = .timestamp) text
    if asked = shown then .ok (ofType shown text)
    else if isAccepted asked shown text then .ok .other
    else .error { problem := "cannot decode " ++ shown.tag ++ " `" ++ text ++ "` as a " ++ asked.tag }

end ScalarValue

end ObjcOutline.Yaml
