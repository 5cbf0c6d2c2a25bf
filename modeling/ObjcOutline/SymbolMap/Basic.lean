import ObjcOutline.Text.Basic

/-!
# Symbol maps

A symbol map lists the declarations of a file as named symbols, each with the word for its kind and
its line. A query selects by kind and by a part of the name; an empty filter selects everything.
-/
namespace ObjcOutline

structure Symbol where
  name : Text
  kind : Text
  line : Int
deriving DecidableEq, Repr, Inhabited

structure SymbolMap where
  path : Text
  symbols : List Symbol
deriving DecidableEq, Repr, Inhabited

namespace Symbol

def isSelected (kind name : Text) (s : Symbol) : Bool :=
  (kind.isEmpty || s.kind == kind) && (name.isEmpty || Text.occursIn name s.name)

end Symbol

namespace SymbolMap

/-- The symbols that pass both filters, in the order of the map. -/
def query (m : SymbolMap) (kind name : Text) : List Symbol :=
  m.symbols.filter (Symbol.isSelected kind name)

def count (m : SymbolMap) : Nat := m.symbols.length

end SymbolMap

end ObjcOutline
