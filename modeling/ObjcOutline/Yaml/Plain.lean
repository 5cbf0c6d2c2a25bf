import ObjcOutline.Yaml.Folding

/-!
# Plain scalars

A plain scalar is written without quotes. It ends before a colon that ends a word, before a comment
that a gap precedes, before a mark between documents, before a line that is not indented enough,
and inside brackets before an indicator of the bracketed collection.
-/
namespace ObjcOutline.Yaml.Plain

def isFlowIndicator (c : Char) : Bool :=
  c == ',' || c == '?' || c == '[' || c == ']' || c == '{' || c == '}'

def runLength (inFlow : Bool) : Text → Nat
  | [] => 0
  | c :: r =>
    if isGap c || isBreak c || (c == ':' && endsWord r) || (inFlow && isFlowIndicator c) then 0
    else runLength inFlow r + 1

/-- Reads on after the gap `g`. The answer tells the gap after the scalar, which is not part of it. -/
def readFrom (start : Cursor) (inFlow : Bool) (minColumn : Int) :
    (fuel : Nat) → Gap → Cursor → Except Fault (Text × Gap × Cursor)
  | 0, g, c => .ok ([], g, c)
  | fuel + 1, g, c => do
    let c := c.look 4
    if c.isAtDocumentMark || c.seesChar '#' then return ([], g, c)
    let n := runLength inFlow c.rest
    let (run, g) := if n = 0 then ([], g) else (g.folded ++ c.rest.take n, {})
    let c := c.pass 2 n
    if !c.sees fun x => isGap x || isBreak x then return (run, g, c)
    let (g, c) ← g.read start (some minColumn) c
    if !inFlow && (c.column : Int) < minColumn then return (run, g, c)
    let (later, g, c) ← readFrom start inFlow minColumn fuel g c
    return (run ++ later, g, c)

/-- Reads a plain scalar in a block that is indented to `indent`. The flag of the answer says whether
the scalar was followed by a line end. -/
def read (inFlow : Bool) (indent : Int) (c : Cursor) : Except Fault (Text × Bool × Cursor) := do
  let (text, g, c) ← readFrom c inFlow (indent + 1) c.bound {} c
  return (text, g.isBroken, c)

end ObjcOutline.Yaml.Plain
