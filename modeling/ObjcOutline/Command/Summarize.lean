import ObjcOutline.Config.Decoder
import ObjcOutline.Pipeline.Engine

/-!
# Running the command

A summary writes its document to the standard output and everything else to the standard error: a
warning about the configuration, the log when it is asked for, and last the message of what failed.
It ends with zero exactly when the document was written.

The command runs with libraries that it knows nothing else about: one decodes configuration files,
one reads command lines, one holds sessions with clients. They are parameters here.
-/
namespace ObjcOutline.Command

structure Options where
  asMap : Bool := false
  config : Text
  withProperties : Bool := false
  isServer : Bool := false
  isVerbose : Bool := false
deriving DecidableEq, Repr

inductive CommandError
  | exit (message : Text) (status : Nat)
  | other (message : Text)
deriving DecidableEq, Repr

/-- What the library makes of a command line: it calls the action of the command, or it deals with
the command line itself, as for help and for flags that it cannot read. -/
inductive Parsed
  | action (options : Options) (positional : List Text)
  | handled (stdout stderr : Text) (error : Option CommandError)
deriving DecidableEq, Repr

/-- A write that fails after it has taken some of the characters. -/
structure WriteFault where
  taken : Nat
  message : Text
deriving DecidableEq, Repr

/-- The standard output, by the writes that fail. -/
abbrev Output := Text → Option WriteFault

/-- What is on the standard output after a text was written to it. -/
def Output.taken (output : Output) (t : Text) : Text :=
  match output t with
  | none => t
  | some fault => t.take fault.taken

structure Session where
  stdout : Text := []
  stderr : Text := []
  error : Option Failure := none

structure Libraries (ε : Type) where
  decoder : Config.Decoder ε
  parse : List Text → Parsed
  session : Engine → Disk → Session

structure Ended where
  stdout : Text := []
  stderr : Text
  error : Option CommandError := none

structure Outcome where
  exit : Nat
  stdout : Text
  stderr : Text
deriving DecidableEq, Repr

def messageLine (message : Text) : Text := message ++ ['\n']

def usage : Text := "Usage: summarize <file-path> OR summarize --map <file-path>"

def serverNote : Text := "[server] starting MCP server on stdio transport"

/-- Runs a session. A session that was cancelled ended as it should. -/
def serve (warning : Text) (session : Session) : Ended where
  stdout := session.stdout
  stderr := warning ++ logText [serverNote] ++ session.stderr
  error :=
    match session.error with
    | none => none
    | some f => if f.isCancelled then none else some (.exit ("server error: " ++ f.message) 1)

def document (disk : Disk) (engine : Engine) (asMap : Bool) (path : Text) : Logged Text :=
  if asMap then engine.symbolMap disk .live path else engine.outline disk .live path

def failureMessage (path : Text) (f : Failure) : Text :=
  if f.isNotFound then "Error: File not found: " ++ path else "Error: " ++ f.message

def Ended.outcome (e : Ended) : Outcome :=
  match e.error with
  | none => ⟨0, e.stdout, e.stderr⟩
  | some (.exit message status) =>
    ⟨status, e.stdout, e.stderr ++ if message.isEmpty then [] else messageLine message⟩
  | some (.other message) => ⟨1, e.stdout, e.stderr ++ messageLine ("Error: " ++ message)⟩

section
variable {ε : Type} [Reported ε]

/-- The configuration of a run, and the warning about it. A file that does not exist needs none. -/
def configured (decoder : Config.Decoder ε) (disk : Disk) (o : Options) : Text × Config :=
  let (warning, config) := match decoder.load disk o.config with
    | .ok config => (([] : Text), config)
    | .error e =>
      (if e.isNotFound then []
       else messageLine ("warning: " ++ e.message ++ ", using defaults"), Config.default)
  (warning, if o.withProperties then
      { config with map := { config.map with includeProperties := true } }
    else config)

def summarize (lib : Libraries ε) (disk : Disk) (output : Output) (o : Options)
    (positional : List Text) : Ended :=
  let (warning, config) := configured lib.decoder disk o
  match (Engine.ofConfig? (some config)).map Engine.registerStandard with
  | .error f => { stderr := warning, error := some (.exit ("Error: " ++ f.message) 1) }
  | .ok engine =>
    if o.isServer then serve warning (lib.session engine disk)
    else
      match positional with
      | [] => { stderr := warning, error := some (.exit usage 1) }
      | path :: _ =>
        let made := document disk engine o.asMap path
        let stderr := warning ++ if o.isVerbose then logText made.log else []
        match made.result with
        | .error f => { stderr, error := some (.exit (failureMessage path f) 1) }
        | .ok content =>
          { stdout := output.taken content, stderr,
            error := (output content).map fun fault =>
              .exit ("Error: writing output: " ++ fault.message) 1 }

def Libraries.run (lib : Libraries ε) (disk : Disk) (output : Output) (args : List Text) :
    Outcome :=
  match lib.parse args with
  | .action options positional => (summarize lib disk output options positional).outcome
  | .handled stdout stderr error =>
    Ended.outcome { stdout := output.taken stdout, stderr, error }

end

end ObjcOutline.Command
