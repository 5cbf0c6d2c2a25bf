import ObjcOutline.Config.Basic
import ObjcOutline.Pipeline.Renderer

/-!
# The engine

An engine holds a configuration, the extractors and the renderers that were registered, and runs
them: read a file, decode it, extract its skeleton, render a document. It keeps nothing from one
run to the next. A missing file is an error for the outline and an empty skeleton for the symbol
map.
-/
namespace ObjcOutline

structure Engine where
  config : Config
  extractors : Registry Extractor := {}
  renderers : Registry Renderer := {}

namespace Engine

def ofConfig? : Option Config → Except Failure Engine
  | none => .error .missingConfig
  | some config => .ok { config }

def registerExtractor (e : Engine) (x : Extractor) : Engine :=
  { e with extractors := e.extractors.register x }

def registerRenderer (e : Engine) (r : Renderer) : Engine :=
  { e with renderers := e.renderers.register r }

/-- Registers the extractor and the renderers that come with the program, set up as the engine's
configuration says. -/
def registerStandard (e : Engine) : Engine :=
  ((e.registerExtractor (.lineScanner e.config.rootType)).registerRenderer
    (.outline e.config.output.header e.config.output.indent)).registerRenderer
      (.symbolMap e.config.map.includeProperties e.config.map.indent)

def standard (config : Config) : Engine := registerStandard { config }

def extract (e : Engine) (context : Context) (path : Text) (data : Bytes) : Logged Skeleton :=
  match e.extractors.select? e.config.extractor with
  | none => .fail .noExtractor
  | some x => do
    if x.name ≠ e.config.extractor then
      Logged.note ("[engine] extractor " ++ Text.quoted e.config.extractor ++
        " not registered, using " ++ x.name)
    (x.extract context path (Utf8.decode data)).mapFailure (.extracting path)

def load (e : Engine) (disk : Disk) (context : Context) (path : Text) (allowMissing : Bool) :
    Logged Skeleton :=
  match disk path with
  | .error fault =>
    if allowMissing && fault = .notFound then do
      Logged.note ("[engine] " ++ path ++ " not found, using empty skeleton")
      return { path }
    else .fail (.reading path (.unreadable path fault))
  | .ok data => do
    if !isSourcePath path then
      Logged.note ("[engine] " ++ path ++ " does not look like Objective-C, scanning anyway")
    e.extract context path data

def renderWith (r : Renderer) (context : Context) (s : Skeleton) : Logged Artifact := do
  let artifact ← (r.render context s).mapFailure (.rendering r.name)
  Logged.note ("[engine] rendered " ++ r.name ++ " for " ++ s.path ++ " (" ++
    Text.ofNat (Text.byteLength artifact.content) ++ " bytes)")
  return artifact

def render (e : Engine) (context : Context) (name : Text) (s : Skeleton) : Logged Artifact :=
  match e.renderers.get? name with
  | none => .fail (.noRenderer name)
  | some r => renderWith r context s

def outline (e : Engine) (disk : Disk) (context : Context) (path : Text) : Logged Text := do
  let skeleton ← e.load disk context path false
  let artifact ← e.render context Renderer.outlineName skeleton
  return artifact.content

/-- The symbol map of a file; that of a missing file is empty. -/
def symbolMap (e : Engine) (disk : Disk) (context : Context) (path : Text) : Logged Text := do
  let skeleton ← e.load disk context path true
  let artifact ← e.render context Renderer.symbolMapName skeleton
  return artifact.content

/-- The symbol map of a file with the configured choice about properties replaced. -/
def symbolMapWith (e : Engine) (disk : Disk) (context : Context) (path : Text)
    (withProperties : Bool) : Logged Text := do
  let skeleton ← e.load disk context path true
  let artifact ← renderWith (.symbolMap withProperties e.config.map.indent) context skeleton
  return artifact.content

end Engine

end ObjcOutline
