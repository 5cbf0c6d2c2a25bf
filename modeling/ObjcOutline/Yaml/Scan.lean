import ObjcOutline.Yaml.Annotation
import ObjcOutline.Yaml.BlockScalar
import ObjcOutline.Yaml.Comment
import ObjcOutline.Yaml.Plain
import ObjcOutline.Yaml.PossibleKey
import ObjcOutline.Yaml.QuotedScalar

/-!
# From text to tokens

The tokens of a YAML text are found from left to right, with two things to remember. Blocks are open
at the columns in `indents`, and a token at a smaller column closes them. And whether a scalar is the
key of a mapping is only known at the colon after it, so the last token that can be a key is kept on
each level of brackets; when the colon comes, the key token, and before it the start of the mapping,
are put in where the key begins.

Tokens are found when they are asked for. A token can be looked at once two more are found, and once
it is settled whether it is a key. They are numbered in the order in which they stand, and `taken` of
them have been used up.
-/
namespace ObjcOutline.Yaml

/-- The state of the scan. `levels` has the block level last and the innermost bracket first. -/
structure Scan where
  cursor : Cursor
  queue : List Token := []
  taken : Nat := 0
  indent : Int := -1
  indents : List Int := []
  levels : List KeyLevel := [{}]
  keyAllowed : Bool := true

namespace Scan

def inFlow (s : Scan) : Bool := !(s.levels.drop 1).isEmpty

def nextNumber (s : Scan) : Nat := s.taken + s.queue.length

/-- Puts a token in before the one of the given number, or last when that one is used up. -/
def insert (s : Scan) (number : Nat) (t : Token) : Scan :=
  let position := if number < s.taken then s.queue.length else number - s.taken
  { s with queue := s.queue.take position ++ t :: s.queue.drop position }

def push (s : Scan) (kind : TokenKind) : Scan :=
  { s with queue := s.queue ++ [⟨kind, s.cursor.line⟩] }

def pushChars (s : Scan) (kind : TokenKind) (n : Nat) : Scan :=
  { s.push kind with cursor := s.cursor.skip n }

def setLevel (s : Scan) (level : KeyLevel) : Scan := { s with levels := level :: s.levels.drop 1 }

def key? (s : Scan) : Option PossibleKey := s.levels.head?.bind (·.key)

/-- Closes the blocks that are open to the right of a column, which is minus one for all of them. -/
def closeBlocks (s : Scan) (column : Int) : Scan :=
  if s.inFlow then s
  else
    let closed := (s.indent :: s.indents).takeWhile (column < ·)
    match (s.indent :: s.indents).drop closed.length with
    | [] => s
    | indent :: indents =>
      { s with
        indent, indents
        queue := s.queue ++ closed.map fun _ => ⟨.blockEnd, s.cursor.line⟩ }

def maxDepth : Nat := 10000

/-- Opens a block at a column to the right of the open ones. Its token is put in before the one of
the given number. -/
def openBlock (s : Scan) (column : Nat) (number : Nat) (kind : TokenKind) (line : Nat) :
    Except Fault Scan :=
  if s.inFlow || (column : Int) ≤ s.indent then .ok s
  else if maxDepth ≤ s.indents.length then
    .error (s.cursor.fault s.cursor "exceeded max depth of 10000")
  else .ok
    { s.insert number ⟨kind, line⟩ with indent := column, indents := s.indent :: s.indents }

/-- Gives up the possible key of the innermost level. A required one must not be given up. -/
def dropKey (s : Scan) : Except Fault Scan :=
  match s.levels with
  | level :: _ =>
    match level.key with
    | some key =>
      if key.isRequired then .error (s.cursor.fault key.place "could not find expected ':'")
      else .ok (s.setLevel { level with key := none })
    | none => .ok s
  | [] => .ok s

def saveKey (s : Scan) : Except Fault Scan := do
  if !s.keyAllowed then return s
  let s ← s.dropKey
  let key : PossibleKey := {
    isRequired := !s.inFlow && s.indent = s.cursor.column
    number := s.nextNumber
    place := s.cursor }
  return s.setLevel { key, number := key.number }

def liveKey (s : Scan) : Except Fault (Option PossibleKey) := do
  match s.key? with
  | some key => return if ← key.reaches s.cursor then some key else none
  | none => return none

/-- Passes gaps, comments and line ends before the next token. A tab is only a gap where no key can
start. At the start of a line a character is dropped when the buffer starts with a byte-order
mark. -/
def passGaps : (fuel : Nat) → Scan → Scan
  | 0, s => s
  | fuel + 1, s =>
    let c := s.cursor.look 1
    let c := if c.column = 0 && c.buffer.startsWithMark then c.step else c
    let c := c.skipWhile fun x => x == ' ' || ((s.inFlow || !s.keyAllowed) && x == '\t')
    let c := if c.seesChar '#' then Comment.passAll c.bound c else c
    if c.sees isBreak then
      passGaps fuel { s with cursor := c.skipBreak, keyAllowed := !s.inFlow || s.keyAllowed }
    else { s with cursor := c }

def documentMark (s : Scan) (kind : TokenKind) : Except Fault Scan := do
  let s ← (s.closeBlocks (-1)).dropKey
  return { s with keyAllowed := false }.pushChars kind 3

def directive (s : Scan) : Except Fault Scan := do
  let s ← (s.closeBlocks (-1)).dropKey
  let (kind, cursor) ← Annotation.readDirective s.cursor
  return { s.push kind with cursor, keyAllowed := false }

def openFlow (s : Scan) (kind : TokenKind) : Except Fault Scan := do
  let s ← s.saveKey
  if maxDepth < s.levels.length then
    throw (s.cursor.fault s.cursor "exceeded max depth of 10000")
  let levels := { number := s.nextNumber } :: s.levels
  return { s with levels, keyAllowed := true }.pushChars kind 1

def closeFlow (s : Scan) (kind : TokenKind) : Except Fault Scan := do
  let s ← s.dropKey
  let levels := match s.levels with
    | inner :: level :: outer => level.afterClosing inner :: outer
    | levels => levels
  return { s with levels, keyAllowed := false }.pushChars kind 1

def flowEntry (s : Scan) : Except Fault Scan := do
  let s ← s.dropKey
  return { s with keyAllowed := true }.pushChars .flowEntry 1

def blockEntry (s : Scan) : Except Fault Scan := do
  if !s.inFlow && !s.keyAllowed then
    throw (s.cursor.fault s.cursor "block sequence entries are not allowed in this context")
  let s ← s.openBlock s.cursor.column s.nextNumber .blockSequence s.cursor.line
  let s ← s.dropKey
  return { s with keyAllowed := true }.pushChars .blockEntry 1

def explicitKey (s : Scan) : Except Fault Scan := do
  if !s.inFlow && !s.keyAllowed then
    throw (s.cursor.fault s.cursor "mapping keys are not allowed in this context")
  let s ← s.openBlock s.cursor.column s.nextNumber .blockMapping s.cursor.line
  let s ← s.dropKey
  return { s with keyAllowed := !s.inFlow }.pushChars .key 1

def forgetKey (s : Scan) : Scan :=
  match s.levels with
  | level :: _ => s.setLevel { level with key := none }
  | [] => s

def mappingValue (s : Scan) : Except Fault Scan := do
  match ← s.liveKey with
  | some key =>
    let s := s.insert key.number ⟨.key, key.place.line⟩
    let s ← s.openBlock key.place.column key.number .blockMapping key.place.line
    return { s.forgetKey with keyAllowed := false }.pushChars .value 1
  | none =>
    if !s.inFlow && !s.keyAllowed then
      throw (s.cursor.fault s.cursor "mapping values are not allowed in this context")
    let s ← s.openBlock s.cursor.column s.nextNumber .blockMapping s.cursor.line
    return { s.forgetKey with keyAllowed := !s.inFlow }.pushChars .value 1

/-- A token that may be a key, read by the given function. -/
def keyLike (s : Scan) (read : Cursor → Except Fault (TokenKind × Cursor)) : Except Fault Scan := do
  let s ← s.saveKey
  let (kind, cursor) ← read s.cursor
  return { s.push kind with cursor, keyAllowed := false }

def blockScalar (s : Scan) (isLiteral : Bool) : Except Fault Scan := do
  let s ← s.dropKey
  let (text, cursor) ← BlockScalar.read isLiteral s.indent s.cursor
  return { s.push (.scalar false text) with cursor, keyAllowed := true }

/-- A plain scalar. A comment on its last line belongs to it. -/
def plainScalar (s : Scan) : Except Fault Scan := do
  let s ← s.saveKey
  let (text, isBroken, cursor) ← Plain.read s.inFlow s.indent s.cursor
  let cursor := if isBroken then cursor else Comment.passOnLine cursor
  return { s.push (.scalar true text) with cursor, keyAllowed := isBroken }

def quotedScalar (s : Scan) (quote : Char) : Except Fault Scan :=
  s.keyLike fun c => do
    let (text, after) ← QuotedScalar.read quote c
    return (.scalar false text, after)

/-- The end of the text. It starts a line of its own. -/
def streamEnd (s : Scan) : Except Fault Scan := do
  let c := s.cursor
  let c := if c.column = 0 then c else { c with column := 0, line := c.line + 1 }
  let s ← ({ s with cursor := c }.closeBlocks (-1)).dropKey
  return { s.push .streamEnd with keyAllowed := false }

def withLineComment (s : Scan) : Scan := { s with cursor := Comment.passOnLine s.cursor }

def indicators : Text := "-?:,[]\x7b\x7d#&*!|>'\"%@`"

def startsPlain (s : Scan) (x : Char) (after : Text) : Bool :=
  !(isGap x || isBreak x || indicators.contains x) ||
    (x == '-' && !after.head?.any isGap) ||
    (!s.inFlow && (x == '?' || x == ':') && !endsWord after)

def nextInLine (s : Scan) (x : Char) (after : Text) : Except Fault Scan :=
  let c := s.cursor
  if x = '-' && endsWord after then s.blockEntry
  else if x = '|' && !s.inFlow then s.blockScalar true
  else if x = '>' && !s.inFlow then s.blockScalar false
  else if s.startsPlain x after then s.plainScalar
  else withLineComment <$>
    if x = '[' then s.openFlow .flowSequence
    else if x = '{' then s.openFlow .flowMapping
    else if x = ']' then s.closeFlow .flowSequenceEnd
    else if x = '}' then s.closeFlow .flowMappingEnd
    else if x = ',' then s.flowEntry
    else if x = '?' then s.explicitKey
    else if x = ':' then s.mappingValue
    else if x = '*' then s.keyLike fun c => do
      let (name, after) ← Annotation.readName c
      return (.reference name, after)
    else if x = '&' then s.keyLike fun c => do
      let (name, after) ← Annotation.readName c
      return (.anchor name, after)
    else if x = '!' then s.keyLike Annotation.readTag
    else if x = '\'' || x = '"' then s.quotedScalar x
    else .error (c.fault c "found character that cannot start any token")

def next (s : Scan) : Except Fault Scan := do
  let s := passGaps s.cursor.bound s
  let s := s.closeBlocks s.cursor.column
  let s := { s with cursor := s.cursor.look 4 }
  let s ← match s.cursor.rest with
    | [] => s.streamEnd
    | x :: after =>
      if s.cursor.column = 0 && x = '%' then s.directive
      else if s.cursor.isAtTriple '-' then s.documentMark .documentStart
      else if s.cursor.isAtTriple '.' then s.documentMark .documentEnd
      else s.nextInLine x after
  if s.cursor.buffer.metDamage then
    throw { problem := "the file holds bytes or characters that are not allowed" }
  return s

/-- Whether the first token of the queue is held back because it may be a key. -/
def isAwaitingKey (s : Scan) : Except Fault Bool :=
  match s.levels.findSome? fun level => level.key.filter fun key =>
      key.isAwaited && key.number = s.taken with
  | some key => key.reaches s.cursor
  | none => .ok false

/-- Finds tokens until the first one can be looked at. Every token but the end of the text passes a
character, and the end is at most found three times, which bounds the steps. -/
def fill : (fuel : Nat) → Scan → Except Fault Scan
  | 0, s => .ok s
  | fuel + 1, s => do
    if 2 < s.queue.length && !(← s.isAwaitingKey) then return s
    fill fuel (← s.next)

def peek (s : Scan) : Except Fault (Token × Scan) := do
  let s ← s.fill (s.cursor.bound + 3)
  return (s.queue.headD ⟨.streamEnd, s.cursor.line⟩, s)

def advance (s : Scan) : Scan := { s with queue := s.queue.drop 1, taken := s.taken + 1 }

def ofInput (input : Input) : Scan := { cursor := .ofInput input }

end Scan

end ObjcOutline.Yaml
