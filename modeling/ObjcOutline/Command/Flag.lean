import ObjcOutline.Text.Quoted

/-!
# Command line flags

Flags come before the other arguments, with one or two hyphens. A switch may be given a truth value
after an equals sign; a flag with a value takes it from there or from the next argument. Flags end
at the first argument that is none, at a single hyphen, and after two hyphens. A flag can have two
names, and only one of them may be used in a command line.
-/
namespace ObjcOutline.Command

/-- A flag by its names, the main one first. -/
structure Flag where
  names : List Text
  isSwitch : Bool

inductive Setting
  | switch (name : Text) (value : Bool)
  | valued (name value : Text)
deriving DecidableEq, Repr

namespace Setting

def name : Setting → Text
  | switch name _ => name
  | valued name _ => name

end Setting

inductive UsageError
  | badFlag (argument : Text)
  | undefined (name : Text)
  | needsArgument (name : Text)
  | invalidBoolean (value name : Text)
  | twoForms (second first : Text)
deriving DecidableEq, Repr

namespace UsageError

def message : UsageError → Text
  | badFlag argument => "bad flag syntax: " ++ argument
  | undefined name => "flag provided but not defined: -" ++ name
  | needsArgument name => "flag needs an argument: -" ++ name
  | invalidBoolean value name =>
    "invalid boolean value " ++ Text.quoted value ++ " for -" ++ name ++ ": parse error"
  | twoForms second first =>
    "Cannot use two forms of the same flag: " ++ second ++ " " ++ first

end UsageError

structure Arguments where
  settings : List Setting := []
  positional : List Text := []
deriving DecidableEq, Repr

def trueWords : List Text := ["1", "t", "T", "true", "TRUE", "True"]

def falseWords : List Text := ["0", "f", "F", "false", "FALSE", "False"]

def boolean? (word : Text) : Option Bool :=
  if trueWords.contains word then some true
  else if falseWords.contains word then some false
  else none

inductive Shape
  | positional
  | endOfFlags
  | bad
  | flag (name : Text) (value : Option Text)

def flagShape (text : Text) : Shape :=
  match text with
  | [] => .bad
  | '-' :: _ => .bad
  | '=' :: _ => .bad
  | c :: r =>
    match Text.cut? (· == '=') r with
    | some (name, value) => .flag (c :: name) (some value)
    | none => .flag (c :: r) none

def shapeOf (argument : Text) : Shape :=
  match argument with
  | ['-', '-'] => .endOfFlags
  | '-' :: '-' :: r => flagShape r
  | '-' :: c :: r => flagShape (c :: r)
  | _ => .positional

def Arguments.prepend (s : Setting) (a : Arguments) : Arguments :=
  { a with settings := s :: a.settings }

/-- Reads the flags at the start of a command line. -/
def readFlags (flags : List Flag) : List Text → Except UsageError Arguments
  | [] => .ok {}
  | argument :: rest =>
    match shapeOf argument with
    | .positional => .ok { positional := argument :: rest }
    | .endOfFlags => .ok { positional := rest }
    | .bad => .error (.badFlag argument)
    | .flag name value =>
      match flags.find? (·.names.contains name) with
      | none => .error (.undefined name)
      | some flag =>
        if flag.isSwitch then
          match value with
          | none => (readFlags flags rest).map (.prepend (.switch name true))
          | some word =>
            match boolean? word with
            | some value => (readFlags flags rest).map (.prepend (.switch name value))
            | none => .error (.invalidBoolean word name)
        else
          match value with
          | some value => (readFlags flags rest).map (.prepend (.valued name value))
          | none =>
            match rest with
            | value :: rest => (readFlags flags rest).map (.prepend (.valued name value))
            | [] => .error (.needsArgument name)

theorem positional_of_map_prepend {r : Except UsageError Arguments} {s : Setting} {a : Arguments}
    (h : r.map (.prepend s) = .ok a) : ∃ b, r = .ok b ∧ b.positional = a.positional := by
  cases r with
  | error e => cases h
  | ok b =>
    cases h
    exact ⟨b, rfl, rfl⟩

theorem length_positional_of_readFlags {flags : List Flag} {args : List Text} {a : Arguments}
    (h : readFlags flags args = .ok a) : a.positional.length ≤ args.length := by
  fun_induction readFlags flags args generalizing a <;> grind [positional_of_map_prepend]

/-- The two names of a flag that are both used. -/
def twoForms? (settings : List Setting) (flag : Flag) : Option UsageError :=
  match flag.names.filter fun name => settings.any (·.name = name) with
  | first :: second :: _ => some (.twoForms second first)
  | _ => none

def Arguments.ofList (flags : List Flag) (args : List Text) : Except UsageError Arguments :=
  match readFlags flags args with
  | .error e => .error e
  | .ok a =>
    match flags.findSome? (twoForms? a.settings) with
    | some e => .error e
    | none => .ok a

theorem Arguments.length_positional_of_ofList {flags : List Flag} {args : List Text}
    {a : Arguments} (h : Arguments.ofList flags args = .ok a) :
    a.positional.length ≤ args.length := by
  unfold Arguments.ofList at h
  split at h
  · cases h
  · split at h
    · cases h
    · cases h
      exact length_positional_of_readFlags ‹_›

/-- The last value given to a switch. -/
def Arguments.switch (a : Arguments) (names : List Text) : Bool :=
  (a.settings.reverse.findSome? fun s => match s with
    | .switch name value => if names.contains name then some value else none
    | .valued .. => none).getD false

/-- The last value given to a flag with a value. -/
def Arguments.value? (a : Arguments) (names : List Text) : Option Text :=
  a.settings.reverse.findSome? fun s => match s with
    | .valued name value => if names.contains name then some value else none
    | .switch .. => none

end ObjcOutline.Command
