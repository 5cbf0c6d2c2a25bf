import ObjcOutline.Source.Line
import ObjcOutline.Source.Header

/-!
# What a line declares

Each line of a source file is marked with at most one thing: it closes a block, it is a method, it
is a property, or it opens a block, and these are tried in this order. The test is of the line
alone; a line that looks like a method is one, wherever it stands.
-/
namespace ObjcOutline

/-- A header on its line. `headerEnd` is the offset of the character after the header. -/
structure Opener where
  header : Header
  line : Int
  headerEnd : Nat
deriving DecidableEq, Repr

inductive Mark
  | closer (line : Int)
  | method (m : Method)
  | property (p : Property)
  | opener (o : Opener)
deriving DecidableEq, Repr

namespace Opener

def ofLine? (l : SourceLine) : Option Opener :=
  (Header.ofTrimmed? l.trimmed).map fun header =>
    ⟨header, l.number, l.contentStart + header.length⟩

end Opener

namespace Mark

def ofLine? (l : SourceLine) : Option Mark :=
  if isPassedOver l.trimmed then none
  else if l.trimmed = ['@', 'e', 'n', 'd'] then some (.closer l.number)
  else
    ((Method.ofLine? l.number l.text).map .method).or <|
      ((Property.ofLine? l.number l.text).map .property).or <|
        (Opener.ofLine? l).map .opener

/-- The marks of a source file in the order of its lines. -/
def ofText (src : Text) : List Mark := (SourceLine.ofText src).filterMap ofLine?

def closer? : Mark → Option Int
  | closer line => some line
  | _ => none

def method? : Mark → Option Method
  | method m => some m
  | _ => none

def property? : Mark → Option Property
  | property p => some p
  | _ => none

def opener? : Mark → Option Opener
  | opener o => some o
  | _ => none

def line : Mark → Int
  | closer line => line
  | method m => m.line
  | property p => p.line
  | opener o => o.line

end Mark

end ObjcOutline
