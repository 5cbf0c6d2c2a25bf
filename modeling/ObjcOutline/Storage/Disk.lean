import ObjcOutline.Text.Utf8

/-!
# Reading files

A disk answers every path with the content of the file there or with the reason why it cannot be
read. Nothing else about the file system matters to the program, so a disk is that function.
-/
namespace ObjcOutline

/-- Why a path cannot be read. Reasons that no rule here gives, such as missing permission or a
failing device, come with the step that failed and the words for it. -/
inductive ReadFault
  | notFound
  | isDirectory
  | notDirectory
  | nameTooLong
  | invalidName
  | other (step reason : Text)
deriving DecidableEq, Repr

abbrev Disk := Text → Except ReadFault Bytes

namespace ReadFault

/-- The step that failed: a directory can be opened, but not read. -/
def step : ReadFault → Text
  | isDirectory => "read"
  | other step _ => step
  | _ => "open"

def reason : ReadFault → Text
  | notFound => "no such file or directory"
  | isDirectory => "is a directory"
  | notDirectory => "not a directory"
  | nameTooLong => "file name too long"
  | invalidName => "invalid argument"
  | other _ reason => reason

def message (path : Text) (f : ReadFault) : Text :=
  f.step ++ " " ++ path ++ ": " ++ f.reason

end ReadFault

end ObjcOutline
