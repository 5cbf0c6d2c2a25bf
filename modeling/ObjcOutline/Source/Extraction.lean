import ObjcOutline.Source.Mark
import ObjcOutline.Source.FieldBody

/-!
# From a source file to its skeleton

A block reaches from its opening line to the first `@end` line after it, however blocks nest; where
there is none it ends on the line it starts on and contains nothing. A method or property belongs
to the last block, in source order, that contains its line, and to none when no block does.
-/
namespace ObjcOutline

def defaultRootType : Text := "NSObject"

def effectiveRootType (rootType : Text) : Text :=
  if rootType.isEmpty then defaultRootType else rootType

namespace Block

/-- The first position from `low` on and below `high` that holds a number not less than `x`, or `high`
where there is none. The numbers are in ascending order, so the range is halved until it is empty. -/
def searchFrom (numbers : Array Int) (x : Int) (low high : Nat) : Nat :=
  if low < high then
    let middle := (low + high) / 2
    if numbers.getD middle 0 < x then searchFrom numbers x (middle + 1) high
    else searchFrom numbers x low middle
  else low
termination_by high - low

/-- The line where a block that starts on `start` ends: the first closing line after it, or `start`
itself. The closing lines are in ascending order. -/
def endLineOf (closers : Array Int) (start : Int) : Int :=
  closers.getD (searchFrom closers (start + 1) 0 closers.size) start

def supertypeOf (rootType : Text) (h : Header) : Text :=
  if h.kind = .interface then h.supertype.getD rootType else []

/-- The instance variables of a block. Protocols have none. -/
def fieldsOf (src : Text) (o : Opener) : List Field :=
  if o.header.kind = .protocol then []
  else match fieldBody? (src.drop o.headerEnd) with
    | some body => Field.ofBody body
    | none => []

def ofOpener (src rootType : Text) (closers : Array Int) (o : Opener) : Block where
  kind := o.header.kind
  keyword := o.header.keyword
  name := o.header.name
  supertype := supertypeOf rootType o.header
  protocols := o.header.protocols
  category := o.header.category
  startLine := o.line
  endLine := endLineOf closers o.line
  fields := fieldsOf src o
  properties := []
  methods := []

/-- The position of the block that owns a line: the last one that contains it. -/
def owner? (blocks : List Block) (line : Int) : Option Nat :=
  ((blocks.zipIdx.filter fun x => x.1.contains line).getLast?).map (·.2)

/-- Members, each with the position of the block that owns its line. -/
def owners {α : Type} (blocks : List Block) (line : α → Int) (members : List α) :
    List (Option Nat × α) :=
  members.map fun m => (owner? blocks (line m), m)

def ownedAt {α : Type} (i : Nat) (owners : List (Option Nat × α)) : List α :=
  (owners.filter (·.1 == some i)).map (·.2)

theorem ownedAt_owners {α : Type} (i : Nat) (blocks : List Block) (line : α → Int)
    (members : List α) :
    ownedAt i (owners blocks line members) =
      members.filter fun m => owner? blocks (line m) == some i := by
  induction members with
  | nil => rfl
  | cons m members ih =>
    simp only [ownedAt, owners] at ih
    by_cases h : owner? blocks (line m) == some i <;>
      simp [ownedAt, owners, h, ih]

def assign (blocks : List Block) (properties : List Property) (methods : List Method) :
    List Block :=
  let properties := owners blocks Property.line properties
  let methods := owners blocks Method.line methods
  blocks.mapIdx fun i b =>
    { b with properties := ownedAt i properties, methods := ownedAt i methods }

end Block

def Skeleton.ofSource (rootType path src : Text) : Skeleton :=
  let marks := Mark.ofText src
  let closers := (marks.filterMap Mark.closer?).toArray
  let methods := marks.filterMap Mark.method?
  let properties := marks.filterMap Mark.property?
  let blocks := (marks.filterMap Mark.opener?).map
    (Block.ofOpener src (effectiveRootType rootType) closers)
  { path, blocks := Block.assign blocks properties methods, methods, properties }

/-- The part of a path from the last point in its last component on; empty when there is none. -/
def extensionOf (path : Text) : Text :=
  let tail := path.reverse.takeWhile (· != '/')
  match Text.cut? (· == '.') tail with
  | some (reversed, _) => '.' :: reversed.reverse
  | none => []

def isSourcePath (path : Text) : Bool :=
  let ending := (extensionOf path).map Char.toLower
  ending = ".h" || ending = ".m" || ending = ".mm"

end ObjcOutline
