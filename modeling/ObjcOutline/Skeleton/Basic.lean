import ObjcOutline.Text.Basic

/-!
# Declaration skeletons

The skeleton of an Objective-C file: its blocks (interfaces, implementations, protocols and
categories) with their instance variables, properties and methods, and beside them the flat lists
of every method and property of the file, inside a block or not. Lines are counted from one.

A skeleton is plain data. Nothing here says that its parts fit together; that is a theorem about
the skeletons that extraction builds.
-/
namespace ObjcOutline

/-- What a block is. `other` is for skeletons that were not read from a source file. -/
inductive Kind
  | interface
  | implementation
  | protocol
  | category
  | other (word : Text)
deriving DecidableEq, Repr

namespace Kind

instance : Inhabited Kind := ⟨.other []⟩

def toText : Kind → Text
  | interface => ['i', 'n', 't', 'e', 'r', 'f', 'a', 'c', 'e']
  | implementation => ['i', 'm', 'p', 'l', 'e', 'm', 'e', 'n', 't', 'a', 't', 'i', 'o', 'n']
  | protocol => ['p', 'r', 'o', 't', 'o', 'c', 'o', 'l']
  | category => ['c', 'a', 't', 'e', 'g', 'o', 'r', 'y']
  | other word => word

def ofText (word : Text) : Kind :=
  if word = interface.toText then interface
  else if word = implementation.toText then implementation
  else if word = protocol.toText then protocol
  else if word = category.toText then category
  else other word

@[simp] theorem toText_ofText (word : Text) : (ofText word).toText = word := by
  unfold ofText
  split
  next h => exact h.symm
  split
  next h => exact h.symm
  split
  next h => exact h.symm
  split
  next h => exact h.symm
  rfl

end Kind

/-- A method signature. The sigil is `-` for instance methods and `+` for class methods; the
signature is the selector with its parameters, as written. -/
structure Method where
  sigil : Text
  returnType : Text
  signature : Text
  line : Int
deriving DecidableEq, Repr, Inhabited

/-- A property. The attributes keep their parentheses and are empty when there are none. -/
structure Property where
  attributes : Text
  declaration : Text
  line : Int
deriving DecidableEq, Repr, Inhabited

structure Field where
  type : Text
  name : Text
deriving DecidableEq, Repr, Inhabited

/-- A region between an opening line and the `@end` line that closes it. The keyword of a category
is that of its opening line; the keyword of any other block is its kind. -/
structure Block where
  kind : Kind
  keyword : Kind
  name : Text
  supertype : Text
  protocols : List Text
  category : Text
  startLine : Int
  endLine : Int
  fields : List Field
  properties : List Property
  methods : List Method
deriving DecidableEq, Repr, Inhabited

namespace Block

def isTerminated (b : Block) : Bool := b.startLine < b.endLine

def contains (b : Block) (line : Int) : Bool := b.startLine < line && line < b.endLine

end Block

structure Skeleton where
  path : Text
  blocks : List Block := []
  methods : List Method := []
  properties : List Property := []
deriving DecidableEq, Repr, Inhabited

/-- A document made from a skeleton, with the name of what made it and its media type. -/
structure Artifact where
  name : Text
  mediaType : Text
  content : Text
deriving DecidableEq, Repr, Inhabited

end ObjcOutline
