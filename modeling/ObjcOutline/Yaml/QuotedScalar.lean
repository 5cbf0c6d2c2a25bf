import ObjcOutline.Yaml.Folding

/-!
# Quoted scalars

In single quotes a quote is written twice and nothing else is special. In double quotes a backslash
starts an escape: a letter for a character, two, four or eight hexadecimal digits for a character's
number, or a line end that is left out. In both, gaps with line ends are folded.
-/
namespace ObjcOutline.Yaml.QuotedScalar

def escapes : List (Char × Char) := [
  ('0', '\x00'), ('a', '\x07'), ('b', '\x08'), ('t', '\t'), ('\t', '\t'), ('n', '\n'),
  ('v', '\x0b'), ('f', '\x0c'), ('r', '\r'), ('e', '\x1b'), (' ', ' '), ('"', '"'), ('\'', '\''),
  ('\\', '\\'), ('N', '\x85'), ('_', '\xa0'), ('L', '\u2028'), ('P', '\u2029')]

def digitCount? (letter : Char) : Option Nat :=
  if letter = 'x' then some 2 else if letter = 'u' then some 4
  else if letter = 'U' then some 8 else none

def readEscape (start c : Cursor) : Except Fault (Char × Cursor) :=
  let letter := (c.rest.drop 1).headD '\x00'
  match digitCount? letter with
  | some n =>
    let digits := (c.rest.drop 2).take n
    match if digits.length = n then Text.hexNumber? digits else none with
    | none => .error (c.fault start "did not find expected hexdecimal number")
    | some value =>
      if value.isValidChar then .ok (Char.ofNat value, ((c.skip 2).look n).skip n)
      else .error (c.fault start "found invalid Unicode character escape code")
  | none =>
    match escapes.lookup letter with
    | some x => .ok (x, c.skip 2)
    | none => .error (c.fault start "found unknown escape character")

inductive Continuation
  | finished
  | escapedBreak (after : Cursor)
  | char (x : Char) (after : Cursor)

/-- What stands at the cursor. A run is finished at a gap, a line end or the closing quote. -/
def continuation (start : Cursor) (quote : Char) (c : Cursor) : Except Fault Continuation :=
  match c.rest with
  | [] => .ok .finished
  | x :: r =>
    if isGap x || isBreak x then .ok .finished
    else if x = quote then
      if quote = '\'' && r.head? = some quote then .ok (.char quote (c.skip 2)) else .ok .finished
    else if quote = '"' && x = '\\' then
      if r.head?.any isBreak then .ok (.escapedBreak (c.skip 1).skipBreak)
      else do
        let (x, after) ← readEscape start c
        return .char x after
    else .ok (.char x (c.skip 1))

/-- Reads a run. The flag of the answer says whether it ends with an escaped line end. -/
def readRun (start : Cursor) (quote : Char) :
    (fuel : Nat) → Cursor → Except Fault (Text × Bool × Cursor)
  | 0, c => .ok ([], false, c)
  | fuel + 1, c => do
    match ← continuation start quote c with
    | .finished => return ([], false, c)
    | .escapedBreak after => return ([], true, after)
    | .char x after =>
      let (run, isBroken, after) ← readRun start quote fuel (after.look 2)
      return (x :: run, isBroken, after)

def readFrom (start : Cursor) (quote : Char) :
    (fuel : Nat) → Cursor → Except Fault (Text × Cursor)
  | 0, c => .error (c.fault start "found unexpected end of stream")
  | fuel + 1, c => do
    let c := c.look 4
    if c.isAtDocumentMark then throw (c.fault start "found unexpected document indicator")
    if c.isAtEnd then throw (c.fault start "found unexpected end of stream")
    let (run, isBroken, c) ← readRun start quote c.bound c
    if c.seesChar quote then return (run, c.skip 1)
    let (g, c) ← Gap.read start none { isBroken } c
    let (later, c) ← readFrom start quote fuel c
    return (run ++ g.folded ++ later, c)

def read (quote : Char) (c : Cursor) : Except Fault (Text × Cursor) :=
  readFrom c quote c.bound (c.skip 1)

end ObjcOutline.Yaml.QuotedScalar
