import ObjcOutline.Config.Basic
import ObjcOutline.Storage.Disk

/-!
# Loading a configuration

A configuration file is decoded over the defaults, and texts that it leaves empty get their defaults
back. A file that cannot be read or decoded gives no configuration.

How the bytes of a file are decoded is left to a library. Of it nothing is assumed: when it fails, it
may have written any part of the configuration before.
-/
namespace ObjcOutline

/-- Errors with a message, of which it can be told whether a file that does not exist is the
cause. -/
class Reported (ε : Type) where
  message : ε → Text
  isNotFound : ε → Bool

namespace Config

/-- Decodes the content of a file into a configuration that has values already. The configuration
comes back as it was written, also where there is an error. -/
abbrev Decoder (ε : Type) := Bytes → Config → Config × Option ε

inductive LoadError (ε : Type)
  | unreadable (path : Text) (fault : ReadFault)
  | undecodable (path : Text) (error : ε)
deriving DecidableEq, Repr

namespace LoadError
variable {ε : Type} [Reported ε]

def message : LoadError ε → Text
  | unreadable path fault => "reading config " ++ path ++ ": " ++ fault.message path
  | undecodable path error => "parsing config " ++ path ++ ": " ++ Reported.message error

def isNotFound : LoadError ε → Bool
  | unreadable _ fault => fault = .notFound
  | undecodable _ error => Reported.isNotFound error

end LoadError

def Decoder.load {ε : Type} (decoder : Decoder ε) (disk : Disk) (path : Text) :
    Except (LoadError ε) Config :=
  match disk path with
  | .error fault => .error (.unreadable path fault)
  | .ok data =>
    match decoder data .default with
    | (written, none) => .ok written.refill
    | (_, some error) => .error (.undecodable path error)

end Config

end ObjcOutline
