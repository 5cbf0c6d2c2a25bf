import ObjcOutline.Yaml.Cursor

/-!
# Keys that are not settled yet

Whether a token is the key of a mapping is only known at the colon after it. The last token that can
be a key is kept for the block level and for each open bracket.
-/
namespace ObjcOutline.Yaml

/-- A token that turns out to be a key when a colon follows on its line. It is required when it stands
where the next key of an open mapping has to be. -/
structure PossibleKey where
  isRequired : Bool
  number : Nat
  place : Cursor
  isAwaited : Bool := true

namespace PossibleKey

def maxLength : Nat := 1024

/-- Whether a colon at the cursor would make the token a key: it is on the same line and not too
far. A required key must not be out of reach. -/
def reaches (key : PossibleKey) (c : Cursor) : Except Fault Bool :=
  if key.place.line < c.line || key.place.index + maxLength < c.index then
    if key.isRequired then .error (c.fault key.place "could not find expected ':'") else .ok false
  else .ok true

end PossibleKey

/-- The block level or the level of an open bracket. `number` is that of the last token of the level
that could be a key, or of the bracket while there was none. -/
structure KeyLevel where
  key : Option PossibleKey := none
  number : Nat := 0

/-- A level when the bracket of the level inside it is closed. A bracket in which no key could start
is no longer awaited as a key. -/
def KeyLevel.afterClosing (level inner : KeyLevel) : KeyLevel :=
  { level with key := level.key.map fun key =>
      if key.number = inner.number then { key with isAwaited := false } else key }

end ObjcOutline.Yaml
