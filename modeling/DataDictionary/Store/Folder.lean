import DataDictionary.Inclusion
import DataDictionary.Text.Lines

/-!
# Sources in a folder

Dictionaries in files go by their paths relative to a folder. A path is followed component by
component, and each component is looked up where the ones before it have led: through a directory
that exists, never through a file. Nothing is simplified beforehand, so `missing/../a` leads
nowhere even if `a` exists.

The folder is given with all it holds. A path may climb out of it by `..`; what it meets there are
the directories around the folder, and nothing in them but what was put there in the same way.
-/

namespace DataDictionary

namespace Path

/-- A relative path put behind a folder; an absolute path stands by itself. -/
def join (folder path : String) : String :=
  if path.startsWith "/" then path
  else if folder = "" || folder.endsWith "/" then folder ++ path
  else folder ++ "/" ++ path

/-- The components of a path. -/
def components (path : String) : List String := (Text.cutAt '/' path.toList).map String.ofList

end Path

/-- What a path in a folder leads to. -/
inductive Entry where
  | file (bytes : List UInt8)
  | directory
  deriving DecidableEq

/-- Why a path cannot be read. -/
inductive PathFault where
  | missing
  | isDirectory
  | notDirectory
  | nameTooLong
  | nulInName
  | notText
  deriving DecidableEq

/-- The wording of the reasons. -/
def PathFault.reason : PathFault → String
  | .missing => "No such file or directory (os error 2)"
  | .isDirectory => "Is a directory (os error 21)"
  | .notDirectory => "Not a directory (os error 20)"
  | .nameTooLong => "File name too long (os error 36)"
  | .nulInName => "file name contained an unexpected NUL byte"
  | .notText => "stream did not contain valid UTF-8"

/-- A folder with everything in it, each entry under its place: the names that lead to it, after
a `..` for every level it lies above the folder. -/
structure Folder where
  entries : List (List String × Entry) := []

namespace Folder

/-- What stands at a place. The folder and the directories around it are always there. -/
def entry? (f : Folder) (place : List String) : Option Entry :=
  if place.all (· == "..") then some .directory
  else (f.entries.find? (·.1 == place)).map (·.2)

/-- The place of the directory above. The way up ends in a further `..` once no name is left to
take back. -/
def above (place : List String) : List String :=
  if place.all (· == "..") then place ++ [".."] else place.dropLast

/-! ## Filling a folder -/

/-- The components of a path that lead somewhere. -/
def steps (path : String) : List String :=
  (Path.components path).filter fun c => c != "" && c != "."

/-- Puts an entry in place of what stands there. -/
def put (f : Folder) (place : List String) (entry : Entry) : Folder :=
  ⟨(place, entry) :: f.entries.filter (·.1 != place)⟩

/-- Makes a directory, unless something stands there. -/
def makeDirectory (f : Folder) (place : List String) : Folder :=
  if (f.entry? place).isSome then f else f.put place .directory

/-- Follows a path from a place and makes the directories it goes through, also those that a `..`
leaves again. Gives the folder with them and the place reached. -/
def makeWay (f : Folder) (place : List String) : List String → Folder × List String
  | [] => (f, place)
  | ".." :: rest => f.makeWay (above place) rest
  | c :: rest => (f.makeDirectory (place ++ [c])).makeWay (place ++ [c]) rest

/-- Adds an entry together with the directories on the way to it. -/
def add (f : Folder) (path : String) : Entry → Folder
  | .directory => (f.makeWay [] (steps path)).1
  | .file bytes =>
    let (f, place) := f.makeWay [] (steps path).dropLast
    f.put (place ++ (steps path).getLast?.toList) (.file bytes)

/-- The folder that holds the entries, the later ones in place of earlier ones. -/
def ofList (entries : List (String × Entry)) : Folder :=
  entries.foldl (fun f (path, entry) => f.add path entry) {}

/-- A directory that the way only passes through is made as well. -/
example : (ofList [("sub/../a", .file [])]).entries
    = [(["a"], .file []), (["sub"], .directory)] := by decide +kernel

/-! ## Following a path -/

/-- Where a path has led so far. -/
inductive Position where
  /-- At a directory in the folder or around it. -/
  | directory (place : List String)
  /-- At the very top, where absolute paths start. -/
  | top
  | file (bytes : List UInt8)
  deriving DecidableEq

/-- The most bytes a component may have. -/
def componentLimit : Nat := 255

/-- The most bytes a path may have. -/
def pathLimit : Nat := 4095

/-- Follows one component. -/
def enter (f : Folder) (component : String) : Position → Except PathFault Position
  | .file _ => .error .notDirectory
  | .top =>
    if component = "" || component = "." || component = ".." then .ok .top
    else if componentLimit < component.utf8ByteSize then .error .nameTooLong
    else .error .missing
  | .directory place =>
    if component = "" || component = "." then .ok (.directory place)
    else if component = ".." then .ok (.directory (above place))
    else if componentLimit < component.utf8ByteSize then .error .nameTooLong
    else
      let place := place ++ [component]
      match f.entry? place with
      | none => .error .missing
      | some .directory => .ok (.directory place)
      | some (.file bytes) => .ok (.file bytes)

/-- Follows components one after the other. -/
def walk (f : Folder) : Position → List String → Except PathFault Position
  | position, [] => .ok position
  | position, c :: rest =>
    match f.enter c position with
    | .ok position => f.walk position rest
    | .error fault => .error fault

/-- Follows a path from the folder, or from the very top if it is absolute. -/
def locate (f : Folder) (path : String) : Except PathFault Position :=
  if path.contains '\x00' then .error .nulInName
  else if pathLimit < path.utf8ByteSize then .error .nameTooLong
  else
    f.walk (if path.startsWith "/" then .top else .directory []) (Path.components path)

/-- The text that bytes encode. -/
def decode (bytes : List UInt8) : Except PathFault String :=
  match String.fromUTF8? ⟨bytes.toArray⟩ with
  | some text => .ok text
  | none => .error .notText

/-- The text of the file at a path. -/
def read (f : Folder) (path : String) : Except PathFault String :=
  match f.locate path with
  | .error fault => .error fault
  | .ok (.file bytes) => decode bytes
  | .ok _ => .error .isDirectory

/-- The files of the folder as sources. -/
def loader (f : Folder) : Loader := fun name =>
  match f.read name with
  | .ok text => .ok text
  | .error .missing => .error (.notFound name)
  | .error fault => .error (.unreadable name fault.reason)

end Folder

end DataDictionary
