import ObjcOutline.Yaml.Fault

/-!
# YAML nodes

The content of a YAML document. Every node knows its line, counted from one, and its tag; a scalar
that was written without one has the tag of the type that its text shows. A reference stands for an
anchored node, which is found by its number in the document, so that a node may refer to one that
contains it.
-/
namespace ObjcOutline.Yaml

inductive Node
  | scalar (line : Nat) (tag text : Text)
  | sequence (line : Nat) (tag : Text) (items : List Node)
  | mapping (line : Nat) (tag : Text) (entries : List (Node × Node))
  | reference (line : Nat) (name : Text) (anchor : Nat)
deriving Repr

namespace Node

def sequenceTag : Text := "!!seq"

def mappingTag : Text := "!!map"

def mergeTag : Text := "!!merge"

def line : Node → Nat
  | scalar line .. => line
  | sequence line .. => line
  | mapping line .. => line
  | reference line .. => line

/-- The text that stands for a node in messages and in the comparison of keys. -/
def text : Node → Text
  | scalar _ _ text => text
  | reference _ name _ => name
  | _ => []

def isLike : Node → Node → Bool
  | scalar .., scalar .. => true
  | sequence .., sequence .. => true
  | mapping .., mapping .. => true
  | reference .., reference .. => true
  | _, _ => false

def isMerge : Node → Bool
  | scalar _ tag text => text = "<<" && tag = mergeTag
  | _ => false

end Node

/-- The first document of a text: its root, when there is one, its anchored nodes by number, and a
number that no nesting of nodes exceeds. -/
structure Document where
  root : Option Node
  anchored : List (Nat × Node) := []
  depthBound : Nat
deriving Repr

def Document.anchored? (d : Document) (anchor : Nat) : Option Node := d.anchored.lookup anchor

end ObjcOutline.Yaml
