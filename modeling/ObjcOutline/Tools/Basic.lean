import ObjcOutline.Pipeline.Engine
import ObjcOutline.Window

/-!
# Tools for a client

Three tools answer a client's calls with text: the outline of a file, its symbol map, and the
source around the symbols whose name contains a given text. A call that cannot be answered is
answered with an error text.
-/
namespace ObjcOutline.Tools

/-- A call of a tool. A symbol's context is the number of lines to show; the default is used when it
is not positive. -/
inductive Call
  | outline (path : Text)
  | symbolMap (path : Text) (withProperties : Option Bool)
  | showSymbol (path name : Text) (contextLines : Int64)
deriving DecidableEq, Repr

structure Reply where
  text : Text
  isError : Bool
deriving DecidableEq, Repr

structure Description where
  name : Text
  description : Text
deriving DecidableEq, Repr

def outlineTool : Text := "summarize_objc"

def symbolMapTool : Text := "objc_symbol_map"

def showSymbolTool : Text := "show_symbol"

def offered : List Description := [
  ⟨symbolMapTool, "List the symbols of an Objective-C file (blocks and methods, optionally " ++
    "properties) as JSON sorted by line. A missing file yields an empty symbol list."⟩,
  ⟨showSymbolTool, "Show the source around a symbol of an Objective-C file, including the method " ++
    "body the summary omits."⟩,
  ⟨outlineTool, "Summarize an Objective-C file: interfaces, implementations, protocols, " ++
    "categories, properties and method signatures with line numbers, method bodies omitted."⟩]

/-- The number of lines that a symbol is shown with when the call does not say. -/
def defaultContext : Int64 := 30

def maxShown : Nat := 5

def missingFile (path : Text) : Text := "Error: File not found: " ++ path

/-- The answer for a failure; `failed` says what did not work. -/
def failureReply (failed path : Text) (f : Failure) : Reply :=
  ⟨if f.isNotFound then missingFile path else failed ++ ": " ++ f.message, true⟩

def symbolSection (disk : Disk) (path : Text) (context : Int64) (s : Symbol) : Text :=
  let source : Text :=
    match Window.read disk path (Int64.ofInt s.line) context with
    | .ok window => "```objc\n" ++ window ++ "```\n"
    | .error f => "_Could not read source: " ++ f.message ++ "_\n"
  "### " ++ s.name ++ "\nKind: " ++ s.kind ++ "  Line: " ++ Text.ofInt s.line ++ "\n\n" ++ source

def effectiveContext (contextLines : Int64) : Int64 :=
  if contextLines ≤ 0 then defaultContext else contextLines

def showSymbols (disk : Disk) (path name : Text) (contextLines : Int64) (s : Skeleton) : Reply :=
  match (SymbolMap.ofSkeleton s true).query [] name with
  | [] => ⟨"No symbols matching " ++ Text.quoted name, true⟩
  | found =>
    ⟨Text.join "\n---\n\n" ((found.take maxShown).map
      (symbolSection disk path (effectiveContext contextLines))), false⟩

/-- Answers a call. The messages that were logged come with the answer. -/
def answer (e : Engine) (disk : Disk) : Call → List Text × Reply
  | .outline path =>
    if path.isEmpty then ([], ⟨"path is required", true⟩)
    else
      let out := e.outline disk .live path
      (out.log, match out.result with
        | .ok text => ⟨text, false⟩
        | .error f => failureReply "summarize failed" path f)
  | .symbolMap path withProperties =>
    if path.isEmpty then ([], ⟨"path is required", true⟩)
    else
      let out := match withProperties with
        | some choice => e.symbolMapWith disk .live path choice
        | none => e.symbolMap disk .live path
      (out.log, match out.result with
        | .ok text => ⟨text, false⟩
        | .error f => ⟨"symbol map failed: " ++ f.message, true⟩)
  | .showSymbol path name contextLines =>
    if path.isEmpty || name.isEmpty then ([], ⟨"path and name are required", true⟩)
    else
      let out := e.load disk .live path false
      (out.log, match out.result with
        | .ok skeleton => showSymbols disk path name contextLines skeleton
        | .error f => failureReply "show_symbol failed" path f)

end ObjcOutline.Tools
