import ObjcOutline.Yaml.Buffer
import ObjcOutline.Yaml.Fault

/-!
# A place in a YAML text

A cursor is the text that is still to be read together with the place where it starts, and with what
is decoded of the file. A line ends at a line feed, a carriage return, both in this order, a
next-line character, or one of the two Unicode separators.

Reading a construct asks for a fixed number of characters after each one that it passes. Only these
demands decode pages of the file, so they decide which damage is met.
-/
namespace ObjcOutline.Yaml

def isBreak (c : Char) : Bool :=
  c == '\n' || c == '\r' || c == '\x85' || c == '\u2028' || c == '\u2029'

def isGap (c : Char) : Bool := c == ' ' || c == '\t'

/-- A character of names and handles: a letter or digit of ASCII, an underscore or a hyphen. -/
def isNameChar (c : Char) : Bool := Text.isWordChar c || c == '-'

def endsWord : Text → Bool
  | [] => true
  | c :: _ => isGap c || isBreak c

/-- A text to read from, and where it stands in the whole text, which has `size` characters. Lines
and columns count from zero. -/
structure Cursor where
  rest : Text
  size : Nat := rest.length
  index : Nat := 0
  line : Nat := 0
  column : Nat := 0
  buffer : Buffer := {}
deriving Repr

namespace Cursor

def ofInput (input : Input) : Cursor where
  rest := input.text
  buffer := .ofInput input

/-- A bound for loops that pass a character in each step. -/
def bound (c : Cursor) : Nat := c.size + 1

def head? (c : Cursor) : Option Char := c.rest.head?

def isAtEnd (c : Cursor) : Bool := c.rest.isEmpty

def sees (c : Cursor) (p : Char → Bool) : Bool := c.rest.head?.any p

def seesChar (c : Cursor) (x : Char) : Bool := c.rest.head? == some x

def look (c : Cursor) (n : Nat) : Cursor :=
  { c with buffer := c.buffer.demand c.rest.head? (c.index + n) }

def skip (c : Cursor) (n : Nat) : Cursor :=
  { c with rest := c.rest.drop n, index := c.index + n, column := c.column + n }

def pass (ahead : Nat) : (n : Nat) → Cursor → Cursor
  | 0, c => c
  | n + 1, c => pass ahead n ((c.skip 1).look ahead)

def step (c : Cursor) : Cursor := (c.skip 1).look 1

def skipBreak (c : Cursor) : Cursor :=
  let c := c.look 2
  match c.rest with
  | '\r' :: '\n' :: rest => { c with rest, index := c.index + 2, line := c.line + 1, column := 0 }
  | x :: rest =>
    if isBreak x then { c with rest, index := c.index + 1, line := c.line + 1, column := 0 } else c
  | [] => c

/-- The text that a line end at the cursor stands for: a line feed, or a Unicode separator
itself. -/
def breakText (c : Cursor) : Text :=
  match c.rest with
  | x :: _ =>
    if x == '\u2028' || x == '\u2029' then [x] else if isBreak x then ['\n'] else []
  | [] => []

/-- The longest run of characters of the class `p`, which holds no line end, and the cursor after
it. -/
def span (c : Cursor) (p : Char → Bool) : Text × Cursor :=
  let run := c.rest.takeWhile p
  (run, c.pass 1 run.length)

def skipWhile (c : Cursor) (p : Char → Bool) : Cursor := (c.span p).2

def isAtTriple (c : Cursor) (x : Char) : Bool :=
  c.column == 0 && c.rest.take 3 == [x, x, x] && endsWord (c.rest.drop 3)

def isAtDocumentMark (c : Cursor) : Bool := c.isAtTriple '-' || c.isAtTriple '.'

def fault (c start : Cursor) (problem : Text) : Fault := .spelling start.line c.line problem

end Cursor

end ObjcOutline.Yaml
