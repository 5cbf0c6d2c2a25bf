import ObjcOutline.Command.Request
import ObjcOutline.Config.Load

/-!
# The program's own libraries

The command run with the YAML decoder and the reader of command lines of this project, and with
sessions in which the client says nothing. What is proved about the command holds for any libraries;
these make a program of it.
-/
namespace ObjcOutline.Command

def topicText : Topic → Text
  | .program =>
    "NAME:\n   summarize - Summarize the declaration structure of an Objective-C file\n\n" ++
    "USAGE:\n   summarize [--map] [--properties] [--config FILE] <file-path>\n" ++
    "   summarize --serve\n\n" ++
    "COMMANDS:\n   help, h  Shows a list of commands or help for one command\n\n" ++
    "GLOBAL OPTIONS:\n" ++
    "   --map                     Emit a JSON symbol map instead of the outline (default: false)\n" ++
    "   --config value, -c value  Config file path (default: \".objcskel.yaml\")\n" ++
    "   --properties              Include @property declarations in the symbol map " ++
    "(default: false)\n" ++
    "   --serve                   Run as an MCP server on stdio (default: false)\n" ++
    "   --verbose                 Log pipeline progress to stderr (default: false)\n" ++
    "   --help, -h                show help\n"
  | .helpCommand listsCommands =>
    "NAME:\n    help - Shows a list of commands or help for one command\n\n" ++
    (if listsCommands then
      "USAGE:\n    help command [command options] [command]\n\n" ++
      "COMMANDS:\n   help, h  Shows a list of commands or help for one command\n\n"
    else "USAGE:\n    help [command options] [command]\n\n") ++
    "OPTIONS:\n   --help, -h  show help\n"

def parse (args : List Text) : Parsed :=
  match Request.ofArguments args with
  | .summary options positional => .action options positional
  | .help topic => .handled (topicText topic) [] none
  | .unknownTopic topic => .handled [] [] (some (.exit ("No help topic for '" ++ topic ++ "'") 3))
  | .misuse e topic =>
    .handled (messageLine ("Incorrect Usage: " ++ e.message) ++ "\n" ++ topicText topic) []
      (some (.other e.message))

def libraries : Libraries Yaml.DecodeError where
  decoder := Config.yaml
  parse
  session _ _ := {}

/-- Runs the command. When the standard output cannot be written, `writeFault` says why. -/
def run (disk : Disk) (writeFault : Option Text) (args : List Text) : Outcome :=
  libraries.run disk (fun _ => writeFault.map (⟨0, ·⟩)) args

/-- The paths that a run may read. -/
def readPaths (args : List Text) : List Text :=
  match parse args with
  | .action options positional => options.config :: positional.take 1
  | .handled .. => []

end ObjcOutline.Command
