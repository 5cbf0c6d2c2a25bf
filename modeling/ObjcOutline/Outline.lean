import ObjcOutline.Skeleton.Basic

/-!
# Outlines

The outline of a skeleton shows its blocks in order with every method body left out. A comment with
the line number stands before each declaration, and a block without a closing line is written with
one all the same, so the outline itself always reads as closed blocks.
-/
namespace ObjcOutline

/-- Two spaces where no indent is given. -/
def effectiveIndent (indent : Text) : Text := if indent.isEmpty then "  " else indent

namespace Outline

def headerLine (b : Block) : Text :=
  match b.kind with
  | .interface =>
    let line : Text := "@interface " ++ b.name ++ " : " ++ b.supertype
    if b.protocols.isEmpty then line else line ++ " <" ++ Text.join ", " b.protocols ++ ">"
  | .category =>
    let category : Text := if b.category.isEmpty then "anonymous" else b.category
    "@" ++ b.keyword.toText ++ " " ++ b.name ++ " (Category: " ++ category ++ ")"
  | kind => "@" ++ kind.toText ++ " " ++ b.name

def propertyLine (p : Property) : Text :=
  if p.attributes.isEmpty then "@property " ++ p.declaration ++ ";"
  else "@property " ++ p.attributes ++ " " ++ p.declaration ++ ";"

def methodLine (m : Method) : Text :=
  m.sigil ++ " (" ++ m.returnType ++ ")" ++ m.signature ++ ";"

def fieldLine (f : Field) : Text :=
  if f.type.getLast? = some '*' then f.type ++ f.name ++ ";" else f.type ++ " " ++ f.name ++ ";"

def lineNote (line : Int) : Text := "// Line: " ++ Text.ofInt line ++ "\n"

/-- The instance variables in braces, nothing when there are none. -/
def fieldLines (indent : Text) (fields : List Field) : Text :=
  if fields.isEmpty then []
  else
    let body : Text := fields.flatMap fun f => indent ++ fieldLine f ++ ['\n']
    " \x7b\n" ++ body ++ "\x7d"

/-- A member with its line note, both indented. -/
def memberLines (indent : Text) (line : Int) (text : Text) : Text :=
  indent ++ lineNote line ++ indent ++ text ++ "\n"

def blockText (indent : Text) (b : Block) : Text :=
  lineNote b.startLine ++ headerLine b ++ fieldLines indent b.fields ++ "\n" ++
    b.properties.flatMap (fun p => memberLines indent p.line (propertyLine p)) ++
    b.methods.flatMap (fun m => memberLines indent m.line (methodLine m)) ++
    "@end\n\n"

def banner (path : Text) : Text :=
  "// Objective-C Structure Summary\n" ++ "// File: " ++ path ++ "\n" ++
    "// " ++ List.replicate 41 '─' ++ "\n\n"

def render (withBanner : Bool) (indent : Text) (s : Skeleton) : Text :=
  (if withBanner then banner s.path else []) ++
    s.blocks.flatMap (blockText (effectiveIndent indent))

end Outline

end ObjcOutline
