import Logline.Path
import Logline.Text.Bytes
/-!
# Files

The directories and files that destinations can reach. A path is followed segment by segment from the
root, and every segment but the last has to lead to a directory. Several paths can lead to one file.

Main statements: `read?_write` (what was written is read) and `location?_write` (writing a file does not
change where paths lead).
-/

namespace Logline

/-- A place in the tree of directories: the names from the root on. -/
abbrev Location := List String

/-- The directories and files that exist. The root is always a directory. -/
structure FileSystem where
  directories : List Location := []
  files : List (Location × Bytes) := []
  deriving Repr, Inhabited

namespace FileSystem

/-! ### Following paths -/

/-- The most octets that one name can have. -/
def nameCapacity : Nat := 255

/-- The most octets that a path can have. -/
def pathCapacity : Nat := 4095

/-- Whether a place is a directory. -/
def isDirectory (fs : FileSystem) (l : Location) : Bool := l.isEmpty || fs.directories.contains l

/-- Whether a segment is a name that a file can have. -/
def isFileName (segment : String) : Bool :=
  !staysPut segment && segment != ".." && segment.utf8ByteSize ≤ nameCapacity

/-- The directory that a segment leads to from a directory. -/
def enter? (fs : FileSystem) (here : Location) (segment : String) : Option Location :=
  if staysPut segment then some here
  else if segment == ".." then some here.dropLast
  else if isFileName segment && fs.isDirectory (here ++ [segment]) then some (here ++ [segment])
  else none

/-- The directory that segments lead to from a directory. -/
def follow? (fs : FileSystem) : Location → List String → Option Location
  | here, [] => some here
  | here, segment :: rest => (fs.enter? here segment).bind fun next => fs.follow? next rest

/-- Where the file of a path is, or would be made. There is none if a directory is missing on the way, or
if the path names a directory itself. -/
def location? (fs : FileSystem) (path : String) : Option Location :=
  let segments := pathSegments path
  let name := segments.getLastD ""
  if path.toList.contains '\x00' || pathCapacity < path.utf8ByteSize || !isFileName name then none
  else
    (fs.follow? [] segments.dropLast).bind fun directory =>
      if fs.isDirectory (directory ++ [name]) then none else some (directory ++ [name])

/-- Whether a file can be opened at a path. -/
def canOpen (fs : FileSystem) (path : String) : Bool := (fs.location? path).isSome

/-! ### Contents -/

/-- The content of the file at a place. -/
def content? (fs : FileSystem) (l : Location) : Option Bytes :=
  (fs.files.find? fun f => f.1 == l).map Prod.snd

/-- The content of a file. -/
def read? (fs : FileSystem) (path : String) : Option Bytes := (fs.location? path).bind fs.content?

/-- Replaces a file, or makes it. -/
def write (fs : FileSystem) (path : String) (content : Bytes) : FileSystem :=
  match fs.location? path with
  | none => fs
  | some l => { fs with files := (l, content) :: fs.files.filter fun f => f.1 != l }

/-- Adds octets at the end of a file. -/
def extend (fs : FileSystem) (path : String) (bytes : Bytes) : FileSystem :=
  fs.write path ((fs.read? path).getD [] ++ bytes)

theorem directories_write (fs : FileSystem) (path : String) (content : Bytes) :
    (fs.write path content).directories = fs.directories := by
  unfold write; split <;> rfl

theorem isDirectory_congr {fs gs : FileSystem} (h : fs.directories = gs.directories) :
    fs.isDirectory = gs.isDirectory := by
  funext l; rw [isDirectory, isDirectory, h]

theorem follow?_congr {fs gs : FileSystem} (h : fs.directories = gs.directories) (here : Location)
    (segments : List String) : fs.follow? here segments = gs.follow? here segments := by
  have he : fs.enter? = gs.enter? := by
    funext here segment; rw [enter?, enter?, isDirectory_congr h]
  induction segments generalizing here with
  | nil => rfl
  | cons segment rest ih => simp [follow?, he, ih]

theorem location?_write (fs : FileSystem) (path other : String) (content : Bytes) :
    (fs.write path content).location? other = fs.location? other := by
  have h := fs.directories_write path content
  rw [location?, location?, isDirectory_congr h, follow?_congr h]

theorem read?_write (fs : FileSystem) (path : String) (content : Bytes) (h : fs.canOpen path) :
    (fs.write path content).read? path = some content := by
  obtain ⟨l, hl⟩ := Option.isSome_iff_exists.1 h
  rw [read?, location?_write, hl, Option.bind_some, write, hl]
  simp [content?]

end FileSystem

end Logline
