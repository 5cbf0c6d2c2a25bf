import ObjcOutline.Outline
import ObjcOutline.Source.Extraction

/-!
# Configuration

What a configuration file can set, and the defaults for what it leaves out.
-/
namespace ObjcOutline

structure OutputConfig where
  header : Bool := true
  indent : Text := [' ', ' ']
deriving DecidableEq, Repr, Inhabited

structure MapConfig where
  includeProperties : Bool := false
  indent : Text := [' ', ' ']
deriving DecidableEq, Repr, Inhabited

structure Config where
  extractor : Text := ['r', 'e', 'g', 'e', 'x']
  rootType : Text := defaultRootType
  output : OutputConfig := {}
  map : MapConfig := {}
deriving DecidableEq, Repr, Inhabited

namespace Config

/-- The configuration of a run without a configuration file. -/
def default : Config := {}

/-- Puts the defaults back where a text was left empty. -/
def refill (c : Config) : Config where
  extractor := if c.extractor.isEmpty then default.extractor else c.extractor
  rootType := if c.rootType.isEmpty then default.rootType else c.rootType
  output := { c.output with indent := effectiveIndent c.output.indent }
  map := { c.map with indent := effectiveIndent c.map.indent }

end Config

end ObjcOutline
