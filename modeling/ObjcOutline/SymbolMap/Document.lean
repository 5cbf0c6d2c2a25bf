import ObjcOutline.SymbolMap.Basic
import ObjcOutline.Text.Quoted

/-!
# Symbol maps as JSON documents

A symbol map is written as one JSON object over several lines, followed by a line feed. Strings
escape the quote, the backslash, the control characters below the space and the two Unicode line
separators; every other character stands as itself.
-/
namespace ObjcOutline.Json

def stringChar (c : Char) : Text :=
  match c.toNat with
  | 0x22 => ['\\', '"']
  | 0x5C => ['\\', '\\']
  | 0x08 => ['\\', 'b']
  | 0x09 => ['\\', 't']
  | 0x0A => ['\\', 'n']
  | 0x0C => ['\\', 'f']
  | 0x0D => ['\\', 'r']
  | n =>
    if n < 0x20 || n = 0x2028 || n = 0x2029 then '\\' :: 'u' :: Text.hex 4 n else [c]

def string (t : Text) : Text := '"' :: t.flatMap stringChar ++ ['"']

def newline (indent : Text) (depth : Nat) : Text :=
  '\n' :: (List.replicate depth indent).flatten

/-- Elements between two brackets, each on a line of its own; no lines when there are none. -/
def lined (indent : Text) (depth : Nat) (opening closing : Char) (elements : List Text) : Text :=
  if elements.isEmpty then [opening, closing]
  else
    opening :: newline indent (depth + 1) ++
      Text.join (',' :: newline indent (depth + 1)) elements ++
      newline indent depth ++ [closing]

def member (key value : Text) : Text := string key ++ [':', ' '] ++ value

/-- A symbol as the element of a list at the given depth. -/
def symbol (indent : Text) (depth : Nat) (s : Symbol) : Text :=
  lined indent depth '{' '}' [
    member ['n', 'a', 'm', 'e'] (string s.name),
    member ['t', 'y', 'p', 'e'] (string s.kind),
    member ['l', 'i', 'n', 'e'] (Text.ofInt s.line)]

def document (indent : Text) (m : SymbolMap) : Text :=
  lined indent 0 '{' '}' [
    member ['f', 'i', 'l', 'e', 'P', 'a', 't', 'h'] (string m.path),
    member ['s', 'y', 'm', 'b', 'o', 'l', 's']
      (lined indent 1 '[' ']' (m.symbols.map (symbol indent 2)))] ++ ['\n']

end ObjcOutline.Json
