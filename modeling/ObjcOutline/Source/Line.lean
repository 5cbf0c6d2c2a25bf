import ObjcOutline.Text.Space

/-!
# Lines of a source file

A source file is read one line at a time. Each line carries its number, counted from one, and the
offset of its first character, so that what follows a declaration header can be found again in the
whole text. A carriage return at the end of a line is not part of it.
-/
namespace ObjcOutline

structure SourceLine where
  number : Nat
  start : Nat
  text : Text
deriving DecidableEq, Repr

namespace SourceLine

/-- Numbers the lines from `number` on; the first of them starts at the offset `start`. -/
def place : (number start : Nat) → List Text → List SourceLine
  | _, _, [] => []
  | number, start, raw :: r =>
    ⟨number, start, Text.dropReturn raw⟩ :: place (number + 1) (start + raw.length + 1) r

def ofText (src : Text) : List SourceLine := place 1 0 (Text.lines src)

def trimmed (l : SourceLine) : Text := Text.trim l.text

/-- The offset of the first character of the line that is not white space. -/
def contentStart (l : SourceLine) : Nat := l.start + (l.text.takeWhile Text.isSpace).length

end SourceLine

/-- Whether a trimmed line holds no declaration: it is empty, a comment, the continuation of a
comment, or a preprocessor directive. -/
def isPassedOver : (trimmed : Text) → Bool
  | [] => true
  | '#' :: _ => true
  | '*' :: _ => true
  | '/' :: '/' :: _ => true
  | '/' :: '*' :: _ => true
  | _ => false

end ObjcOutline
