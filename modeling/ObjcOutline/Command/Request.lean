import ObjcOutline.Command.Flag
import ObjcOutline.Command.Summarize

/-!
# What a command line asks for

Either a summary or one of the help texts. The word `help` as the first argument is a command, and
may be followed by the topic to explain; the only topic is `help` itself. The help command has a
help flag and a help command of its own.
-/
namespace ObjcOutline.Command

/-- The help texts there are. That on the help command lists its own help command or not. -/
inductive Topic
  | program
  | helpCommand (listsCommands : Bool)
deriving DecidableEq, Repr

inductive Request
  | summary (options : Options) (positional : List Text)
  | help (topic : Topic)
  | unknownTopic (topic : Text)
  | misuse (error : UsageError) (topic : Topic)
deriving DecidableEq, Repr

def helpFlag : Flag := ⟨["help", "h"], true⟩

def helpWords : List Text := ["help", "h"]

def configNames : List Text := ["config", "c"]

/-- The configuration file that is read when no other is named. -/
def defaultConfigPath : Text := ".objcskel.yaml"

def flags : List Flag := [
  ⟨["map"], true⟩, ⟨configNames, false⟩, ⟨["properties"], true⟩, ⟨["serve"], true⟩,
  ⟨["verbose"], true⟩, helpFlag]

def Options.ofArguments (a : Arguments) : Options where
  asMap := a.switch ["map"]
  config := (a.value? configNames).getD defaultConfigPath
  withProperties := a.switch ["properties"]
  isServer := a.switch ["serve"]
  isVerbose := a.switch ["verbose"]

namespace Request

/-- The request for help on the first of the arguments. Without one it is for help on `otherwise`. -/
def onTopic (otherwise : Topic) : List Text → Request
  | [] => .help otherwise
  | topic :: _ =>
    if topic.isEmpty then .help otherwise
    else if helpWords.contains topic then .help (.helpCommand true)
    else .unknownTopic topic

/-- The request of the help command with the arguments after it. Without a topic it is for help on
`otherwise`. -/
def ofHelpCommand (otherwise : Topic) (args : List Text) : Request :=
  match h : Arguments.ofList [helpFlag] args with
  | .error e => .misuse e (.helpCommand true)
  | .ok a =>
    match hp : a.positional with
    | word :: rest =>
      have : rest.length < args.length := by
        have := Arguments.length_positional_of_ofList h
        rw [hp, List.length_cons] at this
        omega
      if helpWords.contains word && !a.switch helpFlag.names then
        ofHelpCommand (.helpCommand false) rest
      else onTopic otherwise (word :: rest)
    | [] => .help otherwise
termination_by args.length

def ofArguments (args : List Text) : Request :=
  match Arguments.ofList flags args with
  | .error e => .misuse e .program
  | .ok a =>
    if a.switch helpFlag.names then onTopic .program a.positional
    else
      match a.positional with
      | word :: rest =>
        if helpWords.contains word then ofHelpCommand .program rest
        else .summary (.ofArguments a) (word :: rest)
      | [] => .summary (.ofArguments a) []

end Request

end ObjcOutline.Command
