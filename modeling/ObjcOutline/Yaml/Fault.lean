import ObjcOutline.Text.Basic

/-!
# Malformed YAML

Why a YAML text cannot be read, and the line shown with the reason. Lines are kept from zero. The
line shown is that of the construct being read, or that of the problem when the construct starts on
the first line, and no line at all when both do. A problem of spelling is shown with its line
counted from one; a problem of grammar with the line before the one where it was noticed.
-/
namespace ObjcOutline.Yaml

/-- A reason, and the number of the line to show with it; zero shows none. -/
structure Fault where
  problem : Text
  line : Nat := 0
deriving DecidableEq, Repr

namespace Fault

def spelling (context line : Nat) (problem : Text) : Fault :=
  ⟨problem, if context ≠ 0 then context + 1 else if line ≠ 0 then line + 1 else 0⟩

def grammar (context line : Nat) (problem : Text) : Fault :=
  ⟨problem, if context ≠ 0 then context else line⟩

def message (f : Fault) : Text :=
  let place : Text := if f.line = 0 then [] else "line " ++ Text.ofNat f.line ++ ": "
  "yaml: " ++ place ++ f.problem

end Fault

end ObjcOutline.Yaml
