import ObjcOutline.Pipeline.Logged

/-!
# Source windows

A window shows the lines of a file around a centre line, each with its number. The bounds are
computed in 64-bit words, half of the context to each side with halves rounded toward zero, and are
then confined to the lines that exist.
-/
namespace ObjcOutline.Window

def first (center context : Int64) : Int := max 1 (center - context / 2).toInt

def last (center context : Int64) (count : Nat) : Int := min count (center + context / 2).toInt

/-- A line with its number. -/
def numbered (number : Nat) (line : Text) : Text :=
  Text.padLeft 4 (Text.ofNat number) ++ ['│', ' '] ++ Text.dropReturn line ++ ['\n']

def ofLines (lines : List Text) (center context : Int64) : Text :=
  ((lines.zipIdx 1).filter fun x =>
      first center context ≤ x.2 && x.2 ≤ last center context lines.length).flatMap
    fun x => numbered x.2 x.1

def read (disk : Disk) (path : Text) (center context : Int64) : Except Failure Text :=
  match disk path with
  | .ok data => .ok (ofLines (Text.lines (Utf8.decode data)) center context)
  | .error fault => .error (.unreadable path fault)

end ObjcOutline.Window
