import ObjcOutline.Yaml.Cursor

/-!
# Gaps inside scalars

Between two words of a scalar that is not written as a block stands a gap. A gap on one line stands
for itself. A gap with line ends is folded: one line end becomes a space, and of several the first
is dropped, unless the first is a Unicode separator, which is kept.
-/
namespace ObjcOutline.Yaml

/-- A gap as it has been read so far: its characters while it is on one line, then its first line
end and the further ones. -/
structure Gap where
  blanks : Text := []
  isBroken : Bool := false
  first : Text := []
  more : Text := []

namespace Gap

def folded (g : Gap) : Text :=
  if !g.isBroken then g.blanks
  else if g.first.head? = some '\n' then (if g.more.isEmpty then [' '] else g.more)
  else g.first ++ g.more

/-- Reads on to the end of a gap. When `minColumn` is given, a tab before that column on a later line
is refused. Every step passes a character, so the number of characters bounds the steps. -/
def readFrom (start : Cursor) (minColumn : Option Int) :
    (fuel : Nat) → Gap → Cursor → Except Fault (Gap × Cursor)
  | 0, g, c => .ok (g, c)
  | fuel + 1, g, c =>
    match c.head? with
    | none => .ok (g, c)
    | some x =>
      if isGap x then
        if g.isBroken && x == '\t' && minColumn.any ((c.column : Int) < ·) then
          .error (c.fault start "found a tab character that violates indentation")
        else
          readFrom start minColumn fuel
            (if g.isBroken then g else { g with blanks := g.blanks ++ [x] }) c.step
      else if isBreak x then
        readFrom start minColumn fuel
          (if g.isBroken then { g with more := g.more ++ c.breakText }
           else { isBroken := true, first := c.breakText }) (c.skipBreak.look 1)
      else .ok (g, c)

def read (start : Cursor) (minColumn : Option Int) (g : Gap) (c : Cursor) :
    Except Fault (Gap × Cursor) :=
  readFrom start minColumn c.bound g (c.look 1)

end Gap

end ObjcOutline.Yaml
