import ObjcOutline.Pipeline.Logged
import ObjcOutline.Pipeline.Registry
import ObjcOutline.Source.Extraction

/-!
# Extractors

An extractor reads the skeleton out of a source text that has been decoded. The path only labels
the result. The line scanner is the one that comes with the program; it fails only when the run has
been cancelled before it starts.
-/
namespace ObjcOutline

/-- Whether the run has been cancelled. -/
inductive Context
  | live
  | cancelled
deriving DecidableEq, Repr

structure Extractor where
  name : Text
  extract : (context : Context) → (path src : Text) → Logged Skeleton

namespace Extractor

instance : Named Extractor := ⟨Extractor.name⟩

def unterminatedNote (path : Text) (b : Block) : Text :=
  "[objc-extractor] " ++ path ++ ":" ++ Text.ofInt b.startLine ++ ": @" ++ b.keyword.toText ++ " " ++
    b.name ++ " has no @end"

def summaryNote (s : Skeleton) : Text :=
  "[objc-extractor] " ++ s.path ++ ": " ++ Text.ofNat s.blocks.length ++ " blocks, " ++
    Text.ofNat s.methods.length ++ " methods, " ++ Text.ofNat s.properties.length ++ " properties"

def notes (s : Skeleton) : List Text :=
  (s.blocks.filter (!·.isTerminated)).map (unterminatedNote s.path) ++ [summaryNote s]

/-- The extractor that reads line by line. -/
def lineScanner (rootType : Text) : Extractor where
  name := ['r', 'e', 'g', 'e', 'x']
  extract context path src :=
    match context with
    | .cancelled => .fail .cancelled
    | .live =>
      let skeleton := Skeleton.ofSource rootType path src
      ⟨notes skeleton, .ok skeleton⟩

end Extractor

end ObjcOutline
