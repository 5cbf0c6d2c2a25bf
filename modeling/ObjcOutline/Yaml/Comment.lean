import ObjcOutline.Yaml.Cursor

/-!
# Comments

A comment goes from its `#` to the end of the line. A comment on the line of a token is passed with
the token. Comments on lines of their own are passed together, with the gaps and empty lines between
them.
-/
namespace ObjcOutline.Yaml.Comment

/-- The most characters between a token and the comment on its line, and between the line end after a
comment and the next comment. -/
def maxGap : Nat := 512

def passOnLine (c : Cursor) : Cursor :=
  let n := (c.rest.takeWhile isGap).length
  let c := c.look (min (n + 1) maxGap)
  if n < maxGap && (c.rest.drop n).head? = some '#' then
    (c.pass 1 n).skipWhile (!isBreak ·)
  else c

def isEmptyLineChar (x : Char) : Bool := isGap x || x == '\n' || x == '\r'

def passEmptyLines : (fuel : Nat) → Cursor → Cursor
  | 0, c => c
  | fuel + 1, c =>
    let c := c.skipWhile isGap
    if c.sees isBreak then passEmptyLines fuel (c.skipBreak.look 1) else c

/-- Passes a comment, and the comments that follow it after line ends, gaps and empty lines. Empty
lines that end in another way than by a line feed or a carriage return divide comments. -/
def passAll : (fuel : Nat) → Cursor → Cursor
  | 0, c => c
  | fuel + 1, c =>
    let c := c.skipWhile (!isBreak ·)
    let n := (c.rest.takeWhile isEmptyLineChar).length
    let after := c.rest.drop n
    let c := c.look (min (if after.head?.any isBreak then n + 2 else n + 1) maxGap)
    if n < maxGap && after.head? = some '#' then
      passAll fuel (passEmptyLines (n + 1) c)
    else c

end ObjcOutline.Yaml.Comment
