import ObjcOutline.Yaml.Token
import ObjcOutline.Yaml.Cursor
import ObjcOutline.Text.Utf8

/-!
# Directives, anchors and tags

What may stand before a document or before a node: the version of YAML and shorthands for tags, the
name by which a node can be used again, and the tag that tells its type.
-/
namespace ObjcOutline.Yaml

namespace Annotation

/-- The characters that may directly follow the name of an anchor, besides a gap or line end. -/
def mayFollowName (c : Char) : Bool :=
  c == '?' || c == ':' || c == ',' || c == ']' || c == '}' || c == '%' || c == '@' || c == '`'

def readName (c : Cursor) : Except Fault (Text × Cursor) :=
  let (name, after) := c.step.span isNameChar
  if name.isEmpty || !(endsWord after.rest || after.sees mayFollowName) then
    .error (after.fault c "did not find expected alphabetic or numeric character")
  else .ok (name, after)

/-- The characters that stand for themselves in a tag, besides those of names. -/
def tagChars : Text := ";/?:@&=+$,.!~*'()[]"

def isTagChar (c : Char) : Bool := isNameChar c || tagChars.contains c

def readByte (start c : Cursor) : Except Fault (UInt8 × Cursor) :=
  let c := c.look 3
  match c.rest with
  | '%' :: a :: b :: _ =>
    match Text.hexValue? a, Text.hexValue? b with
    | some x, some y => .ok ((x * 16 + y).toUInt8, c.skip 3)
    | _, _ => .error (c.fault start "did not find URI escaped octet")
  | _ => .error (c.fault start "did not find URI escaped octet")

def readTailBytes (start : Cursor) : (n : Nat) → Cursor → Except Fault (Bytes × Cursor)
  | 0, c => .ok ([], c)
  | n + 1, c => do
    let (b, after) ← readByte start c
    if !Utf8.isTail b then throw (c.fault start "found an incorrect trailing UTF-8 octet")
    let (data, after) ← readTailBytes start n after
    return (b :: data, after)

/-- Reads a character that is written byte by byte. Only the form of the bytes is checked; bytes of
the right form that are no character are replaced. -/
def readEscaped (start c : Cursor) : Except Fault (Text × Cursor) := do
  let (lead, after) ← readByte start c
  match Utf8.formLength? lead with
  | none => throw (c.fault start "found an incorrect leading UTF-8 octet")
  | some n =>
    let (data, after) ← readTailBytes start (n - 1) after
    return (Utf8.decodeEach (lead :: data), after.look 1)

def readTagText (start : Cursor) : (fuel : Nat) → (done : Text) → Cursor →
    Except Fault (Text × Cursor)
  | 0, done, c => .ok (done, c)
  | fuel + 1, done, c => do
    let (run, after) := c.span isTagChar
    if !after.seesChar '%' then return (done ++ run, after)
    let (text, after) ← readEscaped start after
    readTagText start fuel (done ++ run ++ text) after

def readTagSuffix (start : Cursor) (lead : Text) (c : Cursor) : Except Fault (Text × Cursor) := do
  let (text, after) ← readTagText start c.bound (lead.drop 1) (c.look 1)
  if lead.isEmpty && text.isEmpty then
    throw (after.fault start "did not find expected tag URI")
  return (text, after)

/-- Reads `!`, a name and, when it is there, a second `!`. -/
def readHandle (c : Cursor) : Text × Cursor :=
  let (name, after) := c.step.span isNameChar
  if after.seesChar '!' then ('!' :: name ++ ['!'], after.step) else ('!' :: name, after)

/-- Reads a tag in one of its forms: `!<text>`, `!handle!text`, `!text` and `!`. -/
def readTag (c : Cursor) : Except Fault (TokenKind × Cursor) := do
  let c := c.look 2
  let (tag, after) ←
    if (c.rest.drop 1).head? = some '<' then do
      let (suffix, after) ← readTagSuffix c [] (c.skip 2)
      if !after.seesChar '>' then throw (after.fault c "did not find the expected '>'")
      pure (TokenKind.tag [] suffix, after.step)
    else
      let (handle, after) := readHandle c
      if 1 < handle.length && handle.getLast? = some '!' then do
        let (suffix, after) ← readTagSuffix c [] after
        pure (TokenKind.tag handle suffix, after)
      else do
        let (suffix, after) ← readTagSuffix c handle after
        pure (if suffix.isEmpty then TokenKind.tag [] ['!'] else TokenKind.tag ['!'] suffix, after)
  if !endsWord after.rest then
    throw (after.fault c "did not find expected whitespace or line break")
  return (tag, after)

def readVersionNumber (start c : Cursor) : Except Fault (Nat × Cursor) :=
  let (digits, after) := c.span fun x => '0' ≤ x && x ≤ '9'
  if digits.isEmpty then .error (after.fault start "did not find expected version number")
  else if 2 < digits.length then .error (after.fault start "found extremely long version number")
  else .ok (digits.foldl (fun n d => n * 10 + (d.toNat - 48)) 0, after)

def readVersion (start c : Cursor) : Except Fault (TokenKind × Cursor) := do
  let (major, c) ← readVersionNumber start (c.skipWhile isGap)
  if !c.seesChar '.' then throw (c.fault start "did not find expected digit or '.' character")
  let (minor, c) ← readVersionNumber start c.step
  return (.version major minor, c)

def readShorthand (start c : Cursor) : Except Fault (TokenKind × Cursor) := do
  let c := c.skipWhile isGap
  if !c.seesChar '!' then throw (c.fault start "did not find expected '!'")
  let (name, c) := readHandle c
  if name.getLast? ≠ some '!' then throw (c.fault start "did not find expected '!'")
  if !c.sees isGap then throw (c.fault start "did not find expected whitespace")
  let (lead, c) ← readTagSuffix start [] (c.skipWhile isGap)
  if !endsWord c.rest then throw (c.fault start "did not find expected whitespace or line break")
  return (.handle name lead, c)

def readDirective (start : Cursor) : Except Fault (TokenKind × Cursor) := do
  let (name, c) := start.step.span isNameChar
  if name.isEmpty then throw (c.fault start "could not find expected directive name")
  if !endsWord c.rest then
    throw (c.fault start "found unexpected non-alphabetical character")
  let (kind, c) ←
    if name = "YAML" then readVersion start c
    else if name = "TAG" then readShorthand start c
    else throw (c.fault start "found unknown directive name")
  let c := c.skipWhile isGap
  let c := if c.seesChar '#' then c.skipWhile (!isBreak ·) else c
  if !(c.isAtEnd || c.sees isBreak) then
    throw (c.fault start "did not find expected comment or line break")
  return (kind, if c.isAtEnd then c else c.skipBreak)

end Annotation

end ObjcOutline.Yaml
