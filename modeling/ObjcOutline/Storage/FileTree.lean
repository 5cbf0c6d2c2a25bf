import ObjcOutline.Storage.Disk

/-!
# File trees

A tree of directories and files under a working directory, and the resolution of relative paths in
it. A path is walked component by component: an empty component or a single point stays, two points
go to the parent, and any other component must be an entry of the directory reached so far.

What lies above the working directory is unknown to the tree. It can be passed through by `..`, and
no name is found there.
-/
namespace ObjcOutline

/-- The entries under the working directory, each by the names that lead to it. A directory has no
content. Later entries hide earlier ones of the same place. -/
structure FileTree where
  entries : List (List Text × Option Bytes) := []
deriving Inhabited

namespace FileTree

/-- Where a walk stands: under the working directory, or some levels above it. -/
inductive Place
  | inside (names : List Text)
  | above (levels : Nat)
deriving DecidableEq, Repr

/-- The longest name, and the longest path with its end mark, in bytes. -/
def maxNameLength : Nat := 255

def maxPathLength : Nat := 4096

/-- The entry at a place: `some none` is a directory. The working directory is always one. -/
def entry? (t : FileTree) (names : List Text) : Option (Option Bytes) :=
  if names.isEmpty then some none
  else (t.entries.find? (·.1 == names)).map (·.2)

def step (t : FileTree) (place : Place) (name : Text) : Except ReadFault (Place × Option Bytes) :=
  if name = ['.', '.'] then
    match place with
    | .inside [] => .ok (.above 1, none)
    | .inside names => .ok (.inside names.dropLast, none)
    | .above n => .ok (.above (n + 1), none)
  else if maxNameLength < Text.byteLength name then .error .nameTooLong
  else
    match place with
    | .above _ => .error .notFound
    | .inside names =>
      match t.entry? (names ++ [name]) with
      | some content => .ok (.inside (names ++ [name]), content)
      | none => .error .notFound

/-- Walks the components from a place. The content is that of the place: none for a directory.
Components that stay in place still need a directory to stay in. -/
def walk (t : FileTree) : Place → Option Bytes → List Text → Except ReadFault (Option Bytes)
  | _, content, [] => .ok content
  | _, some _, _ :: _ => .error .notDirectory
  | place, none, name :: rest =>
    if name.isEmpty || name = ['.'] then walk t place none rest
    else
      match t.step place name with
      | .ok (next, content) => walk t next content rest
      | .error fault => .error fault

def read (t : FileTree) : Disk := fun path =>
  if path.contains '\x00' then .error .invalidName
  else if path.isEmpty then .error .notFound
  else if maxPathLength ≤ Text.byteLength path then .error .nameTooLong
  else
    match t.walk (.inside []) none (Text.split '/' path) with
    | .ok (some content) => .ok content
    | .ok none => .error .isDirectory
    | .error fault => .error fault

def names (path : Text) : List Text :=
  (Text.split '/' path).foldl (fun names name =>
    if name.isEmpty || name = ['.'] then names
    else if name = ['.', '.'] then names.dropLast
    else names ++ [name]) []

def addDirectory (t : FileTree) (place : List Text) : FileTree :=
  let above := (List.range (place.length + 1)).map place.take
  ⟨(above.filter fun names => (t.entry? names).isNone).map (·, none) ++ t.entries⟩

def write (t : FileTree) (path : Text) (content : Bytes) : FileTree :=
  let place := names path
  ⟨(place, some content) :: (t.addDirectory place.dropLast).entries⟩

def makeDirectory (t : FileTree) (path : Text) : FileTree := t.addDirectory (names path)

def remove (t : FileTree) (path : Text) : FileTree :=
  ⟨t.entries.filter (·.1 != names path)⟩

end FileTree

end ObjcOutline
