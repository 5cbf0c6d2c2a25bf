import ObjcOutline.Pipeline.Extractor
import ObjcOutline.Outline
import ObjcOutline.SymbolMap.Build
import ObjcOutline.SymbolMap.Document

/-!
# Renderers

A renderer makes a document from a skeleton. Two come with the program, for the outline and for the
symbol map; neither of them fails.
-/
namespace ObjcOutline

structure Renderer where
  name : Text
  render : (context : Context) → Skeleton → Logged Artifact

namespace Renderer

instance : Named Renderer := ⟨Renderer.name⟩

def outlineName : Text := "outline"

def symbolMapName : Text := "symbol_map"

def outline (withBanner : Bool) (indent : Text) : Renderer where
  name := outlineName
  render _ skeleton := pure
    { name := outlineName, mediaType := "text/x-objective-c",
      content := Outline.render withBanner indent skeleton }

def symbolMap (withProperties : Bool) (indent : Text) : Renderer where
  name := symbolMapName
  render _ skeleton := pure
    { name := symbolMapName, mediaType := "application/json",
      content := Json.document (effectiveIndent indent)
        (SymbolMap.ofSkeleton skeleton withProperties) }

end Renderer

end ObjcOutline
