import ObjcOutline.Text.Space
import ObjcOutline.Skeleton.Basic

/-!
# Method and property lines

A method line is, after blanks, a sign, a return type in parentheses up to the first closing one,
and a signature up to the first opening brace or semicolon. A property line is, after blanks, the
word `@property`, optionally attributes in parentheses, and a declaration up to the first
semicolon. Both are decided from left to right without looking back, with one exception: attributes
that leave no declaration before a semicolon are read as the start of the declaration instead.
-/
namespace ObjcOutline

/-- A text in parentheses after optional blanks, up to the first closing parenthesis, and what
follows it. -/
def parenthesised? (t : Text) : Option (Text × Text) :=
  match Text.skipBlanks t with
  | '(' :: r => Text.cut? (· == ')') r
  | _ => none

/-- The text before the first character of the class `p`, when there is such a character and the
text before it is not empty. -/
def nonemptyBefore? (p : Char → Bool) (t : Text) : Option Text :=
  match Text.cut? p t with
  | some (c :: before, _) => some (c :: before)
  | _ => none

/-- Where a signature ends: at the body or at the end of the declaration. -/
def endsSignature (c : Char) : Bool := c == '{' || c == ';'

def Method.ofLine? (number : Int) (line : Text) : Option Method :=
  match Text.skipBlanks line with
  | sign :: r =>
    if sign == '+' || sign == '-' then
      match parenthesised? r with
      | some (c :: type, rest) =>
        (nonemptyBefore? endsSignature rest).map fun signature =>
          ⟨[sign], Text.trim (c :: type), Text.trim signature, number⟩
      | _ => none
    else none
  | [] => none

def Property.withAttributes? (number : Int) (rest : Text) : Option Property :=
  match parenthesised? rest with
  | some (attributes, rest) =>
    (nonemptyBefore? (· == ';') rest).map fun declaration =>
      ⟨'(' :: attributes ++ [')'], Text.trim declaration, number⟩
  | none => none

def Property.withoutAttributes? (number : Int) (rest : Text) : Option Property :=
  (nonemptyBefore? (· == ';') rest).map fun declaration =>
    ⟨[], Text.trim declaration, number⟩

def Property.keyword : Text := ['@', 'p', 'r', 'o', 'p', 'e', 'r', 't', 'y']

def Property.ofLine? (number : Int) (line : Text) : Option Property :=
  match Text.after? Property.keyword (Text.skipBlanks line) with
  | some rest =>
    (Property.withAttributes? number rest).or (Property.withoutAttributes? number rest)
  | none => none

end ObjcOutline
