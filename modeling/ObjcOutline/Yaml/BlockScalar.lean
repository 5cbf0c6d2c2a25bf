import ObjcOutline.Yaml.Cursor

/-!
# Block scalars

A block scalar starts with a bar or an angle and holds the more indented lines after it. After a bar
line ends stay; after an angle a line end between two lines that start with text is folded. The
header may give the indentation, and how the line ends after the last text are kept.
-/
namespace ObjcOutline.Yaml.BlockScalar

/-- How the line ends after the last line are kept. -/
inductive Chomping
  | strip
  | clip
  | keep
deriving DecidableEq, Repr

def chomping? : Option Char → Option Chomping
  | some '+' => some .keep
  | some '-' => some .strip
  | _ => none

def isDigit (c : Char) : Bool := '0' ≤ c && c ≤ '9'

def readIncrement (start c : Cursor) : Except Fault (Nat × Cursor) :=
  match c.head? with
  | some d =>
    if !isDigit d then .ok (0, c)
    else if d = '0' then .error (c.fault start "found an indentation indicator equal to 0")
    else .ok (d.toNat - 48, c.step)
  | none => .ok (0, c)

def readHeader (start c : Cursor) : Except Fault (Chomping × Nat × Cursor) := do
  match chomping? c.head? with
  | some chomping =>
    let (increment, c) ← readIncrement start c.step
    return (chomping, increment, c)
  | none =>
    let (increment, c) ← readIncrement start c
    if increment = 0 then return (.clip, 0, c)
    match chomping? c.head? with
    | some chomping => return (chomping, increment, c.step)
    | none => return (.clip, increment, c)

def readHeaderEnd (start c : Cursor) : Except Fault Cursor :=
  let c := c.skipWhile isGap
  let c := if c.seesChar '#' then c.skipWhile (!isBreak ·) else c
  if c.isAtEnd then .ok c
  else if c.sees isBreak then .ok c.skipBreak
  else .error (c.fault start "did not find expected comment or line break")

/-- Passes indentation and empty lines. An indentation of zero is still to be found out; then the
answer tells the widest one passed. -/
def readEmptyLines (start : Cursor) (indent : Nat) :
    (fuel : Nat) → (widest : Nat) → (breaks : Text) → Cursor →
      Except Fault (Nat × Text × Cursor)
  | 0, widest, breaks, c => .ok (widest, breaks, c)
  | fuel + 1, widest, breaks, c =>
    let c := c.look 1
    let spaces := (c.rest.takeWhile (· == ' ')).length
    let c := c.pass 1 (if indent = 0 then spaces else min spaces (indent - c.column))
    let widest := max widest c.column
    if (indent = 0 || c.column < indent) && c.seesChar '\t' then
      .error (c.fault start "found a tab character where an indentation space is expected")
    else if c.sees isBreak then
      readEmptyLines start indent fuel widest (breaks ++ c.breakText) c.skipBreak
    else .ok (widest, breaks, c)

/-- What stands before a line of a block: the line end of the line before, the empty lines after
that, and whether the line before started with a gap. -/
structure Joint where
  lastBreak : Text := []
  breaks : Text := []
  startsWithGap : Bool := false

def Joint.text (j : Joint) (isLiteral startsWithGap : Bool) : Text :=
  if !isLiteral && !j.startsWithGap && !startsWithGap && j.lastBreak.head? = some '\n' then
    if j.breaks.isEmpty then [' '] else j.breaks
  else j.lastBreak ++ j.breaks

/-- Reads the lines that are indented to `indent`, after a joint. The answer tells the joint after the
last line. -/
def readLines (start : Cursor) (isLiteral : Bool) (indent : Nat) :
    (fuel : Nat) → Joint → Cursor → Except Fault (Text × Joint × Cursor)
  | 0, j, c => .ok ([], j, c)
  | fuel + 1, j, c => do
    if c.column ≠ indent || c.isAtEnd then return ([], j, c)
    let startsWithGap := c.sees isGap
    let (line, after) := c.span (!isBreak ·)
    let (_, breaks, c) ← readEmptyLines start indent after.bound 0 [] after.skipBreak
    let (later, last, c) ← readLines start isLiteral indent fuel
      { lastBreak := after.breakText, breaks, startsWithGap } c
    return (j.text isLiteral startsWithGap ++ line ++ later, last, c)

/-- Reads a scalar at its bar or angle, inside a block that is indented to `parent`, where minus one
is no indentation at all. -/
def read (isLiteral : Bool) (parent : Int) (start : Cursor) : Except Fault (Text × Cursor) := do
  let (chomping, increment, c) ← readHeader start start.step
  let c ← readHeaderEnd start c
  let given := if increment = 0 then 0 else parent.toNat + increment
  let (widest, breaks, c) ← readEmptyLines start given c.bound 0 [] c
  let indent := if given = 0 then max (max widest (parent + 1).toNat) 1 else given
  let (text, last, c) ← readLines start isLiteral indent c.bound { breaks } c
  let tail := match chomping with
    | .strip => []
    | .clip => last.lastBreak
    | .keep => last.lastBreak ++ last.breaks
  return (text ++ tail, c)

end ObjcOutline.Yaml.BlockScalar
