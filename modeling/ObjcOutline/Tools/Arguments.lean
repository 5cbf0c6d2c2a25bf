import ObjcOutline.Tools.Basic

/-!
# Arguments of a tool call

A call arrives as the name of a tool and named arguments. The arguments are checked against the
tool's parameters before the tool runs: every argument must belong to a parameter, the required ones
must be there, and each must be of the parameter's type. The checks are those of a library that
receives calls; the tools themselves take a `Call`.
-/
namespace ObjcOutline.Tools

/-- The value of an argument, as far as the parameters tell values apart. A number counts as whole
when it has no fractional part. -/
inductive Argument
  | null
  | bool (value : Bool)
  | whole (value : Int)
  | text (value : Text)
  | other
deriving DecidableEq, Repr

inductive CallFault
  | unknownTool
  | invalidArguments
deriving DecidableEq, Repr

abbrev Arguments := List (Text × Argument)

def Arguments.text? (args : Arguments) (key : Text) : Option Text :=
  match args.lookup key with
  | some (.text value) => some value
  | _ => none

/-- A truth value that may be left out or null. -/
def Arguments.choice? (args : Arguments) (key : Text) : Option (Option Bool) :=
  match args.lookup key with
  | none => some none
  | some .null => some none
  | some (.bool value) => some (some value)
  | _ => none

/-- A whole number that may be left out and then is zero. -/
def Arguments.word? (args : Arguments) (key : Text) : Option Int64 :=
  match args.lookup key with
  | none => some 0
  | some (.whole value) =>
    if Int64.minValue.toInt ≤ value ∧ value ≤ Int64.maxValue.toInt then some (.ofInt value)
    else none
  | _ => none

def Arguments.allIn (args : Arguments) (parameters : List Text) : Bool :=
  args.all fun x => parameters.contains x.1

def Call.ofArguments (tool : Text) (args : Arguments) : Except CallFault Call :=
  let call? : Except CallFault (Option Call) :=
    if tool = outlineTool then .ok do
      guard (args.allIn ["path"])
      return .outline (← args.text? "path")
    else if tool = symbolMapTool then .ok do
      guard (args.allIn ["path", "include_properties"])
      return .symbolMap (← args.text? "path") (← args.choice? "include_properties")
    else if tool = showSymbolTool then .ok do
      guard (args.allIn ["path", "name", "context_lines"])
      return .showSymbol (← args.text? "path") (← args.text? "name") (← args.word? "context_lines")
    else .error .unknownTool
  match call? with
  | .ok (some call) => .ok call
  | .ok none => .error .invalidArguments
  | .error fault => .error fault

end ObjcOutline.Tools
