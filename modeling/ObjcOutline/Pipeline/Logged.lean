import ObjcOutline.Storage.Disk
import ObjcOutline.Text.Quoted

/-!
# Logged results

A step of the pipeline succeeds or fails, and logs messages either way. A failure names its cause;
the wrapping failures say during what it happened, and keep the cause, so that a missing file or a
cancelled run can be told apart under any wrapping.
-/
namespace ObjcOutline

/-- Why a step of the pipeline failed. -/
inductive Failure
  | unreadable (path : Text) (fault : ReadFault)
  | cancelled
  | custom (message : Text)
  | missingConfig
  | noExtractor
  | noRenderer (name : Text)
  | reading (path : Text) (cause : Failure)
  | extracting (path : Text) (cause : Failure)
  | rendering (renderer : Text) (cause : Failure)
deriving DecidableEq, Repr

namespace Failure

def message : Failure → Text
  | unreadable path fault => fault.message path
  | cancelled => "context canceled"
  | custom message => message
  | missingConfig => "engine: nil config"
  | noExtractor => "no extractor registered"
  | noRenderer name => "renderer " ++ Text.quoted name ++ " not registered"
  | reading path cause => "reading " ++ path ++ ": " ++ cause.message
  | extracting path cause => "extracting " ++ path ++ ": " ++ cause.message
  | rendering renderer cause => "rendering " ++ renderer ++ ": " ++ cause.message

/-- The failure under all wrappings. -/
def root : Failure → Failure
  | reading _ cause => cause.root
  | extracting _ cause => cause.root
  | rendering _ cause => cause.root
  | failure => failure

def isNotFound (f : Failure) : Bool :=
  match f.root with
  | unreadable _ .notFound => true
  | _ => false

def isCancelled (f : Failure) : Bool := f.root = .cancelled

end Failure

/-- The outcome of a step and the messages it logged, oldest first. -/
structure Logged (α : Type) where
  log : List Text
  result : Except Failure α

namespace Logged

def note (message : Text) : Logged Unit := ⟨[message], .ok ()⟩

def fail {α : Type} (failure : Failure) : Logged α := ⟨[], .error failure⟩

def ofExcept {α : Type} (result : Except Failure α) : Logged α := ⟨[], result⟩

def mapFailure {α : Type} (f : Failure → Failure) (x : Logged α) : Logged α :=
  ⟨x.log, x.result.mapError f⟩

instance : Monad Logged where
  pure a := ⟨[], .ok a⟩
  bind x f :=
    match x.result with
    | .ok a => ⟨x.log ++ (f a).log, (f a).result⟩
    | .error failure => ⟨x.log, .error failure⟩

@[simp] theorem pure_def {α : Type} (a : α) : (pure a : Logged α) = ⟨[], .ok a⟩ := rfl

@[simp] theorem bind_ok {α β : Type} (log : List Text) (a : α) (f : α → Logged β) :
    ((⟨log, .ok a⟩ : Logged α) >>= f) = ⟨log ++ (f a).log, (f a).result⟩ := rfl

@[simp] theorem bind_error {α β : Type} (log : List Text) (e : Failure) (f : α → Logged β) :
    ((⟨log, .error e⟩ : Logged α) >>= f) = ⟨log, .error e⟩ := rfl

theorem result_bind_of_ok {α β : Type} {x : Logged α} {a : α} (h : x.result = .ok a)
    (f : α → Logged β) : (x >>= f).result = (f a).result := by
  obtain ⟨log, result⟩ := x
  cases h
  rfl

end Logged

/-- A log as written out: every message ends its line. The date and the time that a logger may put
before each message are left out. -/
def logText (log : List Text) : Text :=
  log.flatMap fun message =>
    if message.getLast? = some '\n' then message else message ++ ['\n']

def logLines (log : List Text) : List Text := (Text.lines (logText log)).dropLast

end ObjcOutline
