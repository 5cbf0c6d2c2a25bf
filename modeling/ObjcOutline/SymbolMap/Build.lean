import ObjcOutline.SymbolMap.Basic
import ObjcOutline.SymbolMap.PropertyName

/-!
# The symbol map of a skeleton

Symbols are sorted by line. Symbols of one line keep the order in which they are gathered: blocks
opened by `@interface`, protocols, blocks opened by `@implementation`, properties, methods, and
within each of these the order of the skeleton. Instance variables are no symbols.
-/
namespace ObjcOutline

namespace Block

def openingKeyword (b : Block) : Kind := if b.kind = .category then b.keyword else b.kind

/-- The name of a block in a symbol map; a category is named with its class. -/
def symbolName (b : Block) : Text :=
  if b.kind = .category then b.name ++ " (" ++ b.category ++ ")" else b.name

end Block

namespace Symbol

def propertyKind : Text := ['p', 'r', 'o', 'p', 'e', 'r', 't', 'y']

def methodKind : Text := ['m', 'e', 't', 'h', 'o', 'd']

def ofBlock (b : Block) : Symbol := ⟨b.symbolName, b.kind.toText, b.startLine⟩

def ofProperty (p : Property) : Symbol := ⟨p.name, propertyKind, p.line⟩

def ofMethod (m : Method) : Symbol := ⟨m.sigil ++ m.signature, methodKind, m.line⟩

end Symbol

namespace SymbolMap

/-- The keywords in the order in which their blocks are gathered. -/
def keywordOrder : List Kind := [.interface, .protocol, .implementation]

def blockSymbols (blocks : List Block) : List Symbol :=
  keywordOrder.flatMap fun keyword =>
    (blocks.filter fun b => b.openingKeyword = keyword).map Symbol.ofBlock

/-- The symbols of a skeleton in the order in which they are gathered. -/
def gathered (s : Skeleton) (withProperties : Bool) : List Symbol :=
  blockSymbols s.blocks ++ (if withProperties then s.properties.map Symbol.ofProperty else []) ++
    s.methods.map Symbol.ofMethod

def ofSkeleton (s : Skeleton) (withProperties : Bool) : SymbolMap :=
  ⟨s.path, (gathered s withProperties).mergeSort fun a b => a.line ≤ b.line⟩

end SymbolMap

end ObjcOutline
