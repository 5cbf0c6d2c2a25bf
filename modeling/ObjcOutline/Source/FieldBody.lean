import ObjcOutline.Source.Line
import ObjcOutline.Skeleton.Basic

/-!
# Instance variables

The instance variables of a block stand in braces right after its header. Between the header and
the opening brace only spaces, tabs, line ends and comments may stand, and the braces end at the
first closing one. Each line in between that is a type word, an optional star, a name and a
semicolon declares a variable; a visibility word may come first.
-/
namespace ObjcOutline

/-- What the text before an opening brace is inside of. -/
inductive Lead
  | outside
  | lineComment
  | blockComment
deriving DecidableEq, Repr

def isLeadBlank (c : Char) : Bool := c == ' ' || c == '\t' || c == '\r' || c == '\n'

/-- The text between the braces, read from inside the given surroundings. -/
def fieldBodyFrom? : Lead → Text → Option Text
  | _, [] => none
  | .lineComment, c :: r => fieldBodyFrom? (if c = '\n' then .outside else .lineComment) r
  | .blockComment, '*' :: '/' :: r => fieldBodyFrom? .outside r
  | .blockComment, _ :: r => fieldBodyFrom? .blockComment r
  | .outside, '/' :: '/' :: r => fieldBodyFrom? .lineComment r
  | .outside, '/' :: '*' :: r => fieldBodyFrom? .blockComment r
  | .outside, '{' :: r => (Text.cut? (· == '}') r).map (·.1)
  | .outside, c :: r => if isLeadBlank c then fieldBodyFrom? .outside r else none

def fieldBody? (rest : Text) : Option Text := fieldBodyFrom? .outside rest

namespace Field

def visibilities : List Text := ["private", "protected", "public", "package"]

/-- A trimmed line without the visibility word it starts with. -/
def dropVisibility (t : Text) : Text :=
  match t with
  | '@' :: r =>
    match Text.word? r with
    | some (word, rest) => if visibilities.contains word then rest else t
    | none => t
  | _ => t

/-- What may stand between a type and a name: a star with optional blanks, or blanks. The flag says
which. -/
def separator? (t : Text) : Option (Bool × Text) :=
  match Text.skipBlanks t with
  | '*' :: r => some (true, Text.skipBlanks r)
  | _ => (Text.skipBlanks? t).map fun r => (false, r)

def ofDeclaration? (t : Text) : Option Field :=
  match Text.word? t with
  | some (type, r) =>
    match separator? r with
    | some (isPointer, r) =>
      match Text.word? r with
      | some (name, r) =>
        match Text.skipBlanks r with
        | ';' :: _ => some ⟨if isPointer then type ++ " *" else type, name⟩
        | _ => none
      | none => none
    | none => none
  | none => none

def ofLine? (line : Text) : Option Field :=
  let trimmed := Text.trim line
  if isPassedOver trimmed then none
  else ofDeclaration? (Text.trim (dropVisibility trimmed))

def ofBody (body : Text) : List Field := (Text.lines body).filterMap ofLine?

end Field

end ObjcOutline
