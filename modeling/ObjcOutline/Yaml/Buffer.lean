import ObjcOutline.Yaml.Input

/-!
# What is decoded of a YAML file

Characters are decoded when they are asked for, a page at a time. The buffer holds the decoded
characters from the place on where the last page was asked for.
-/
namespace ObjcOutline.Yaml

/-- The decoded part of a file. `filled` counts the decoded characters from the start of the file; a
demand past the end of the file adds one to it. `pageEnds` are the ends of the pages that are still
to be decoded. -/
structure Buffer where
  filled : Nat := 0
  pageEnds : List Nat := []
  isDamaged : Bool := false
  metDamage : Bool := false
  startsWithMark : Bool := false
deriving DecidableEq, Repr

namespace Buffer

def ofInput (input : Input) : Buffer where
  pageEnds := input.pageEnds
  isDamaged := input.isDamaged

/-- Decodes as many pages as it takes to have `need` characters. The buffer then starts with the
character `next`. -/
def demand (b : Buffer) (next : Option Char) (need : Nat) : Buffer :=
  if need ≤ b.filled then b
  else
    let b := { b with startsWithMark := next = some Utf8.mark }
    match b.pageEnds.dropWhile (· < need) with
    | filled :: pageEnds => { b with filled, pageEnds }
    | [] =>
      if b.isDamaged then { b with metDamage := true, pageEnds := [] }
      else { b with filled := b.pageEnds.getLastD b.filled + 1, pageEnds := [] }

end Buffer

end ObjcOutline.Yaml
