import SlotChain.IoError

/-!
# Files

A directory of files, as a script is loaded from it. A path is followed component by component; every
component but the last has to lead to a directory. What lies above the directory is not known, and
nothing is found there.
-/

namespace SlotChain

/-- What a path leads to. -/
inductive Entry where
  | directory
  | file (content : ByteArray)

/-- Files and directories below one directory, by the components of their paths. -/
structure Files where
  /-- The entries with their paths from the top. -/
  entries : List (List String × Entry)

namespace Files

/-- The components of a path, between its slashes. -/
def components (path : String) : List String := path.splitOn "/"

/-- The entry at a place, which may be the top itself or lie on the way to another entry. -/
def entryAt? (fs : Files) (place : List String) : Option Entry :=
  match fs.entries.find? fun e => e.1 = place with
  | some e => some e.2
  | none => if fs.entries.any fun e => place.isPrefixOf e.1 then some .directory else none

/-- A place on the way along a path. -/
inductive Place where
  /-- Below the top, by the components that lead there. -/
  | below (names : List String)
  /-- Above the top, where nothing is known. -/
  | above
deriving DecidableEq

/-- The entry at a place. -/
def lookup (fs : Files) : Place → Except IoError Entry
  | .above => .ok .directory
  | .below [] => .ok .directory
  | .below names =>
    match fs.entryAt? names with
    | some e => .ok e
    | none => .error .notFound

/-- Move on from a place by one component of a path. -/
def move (place : Place) (component : String) : Except IoError Place :=
  match component, place with
  | "", place => .ok place
  | ".", place => .ok place
  | "..", .below [] => .ok .above
  | "..", .below names => .ok (.below names.dropLast)
  | "..", .above => .ok .above
  | _, .above => .error .notFound
  | name, .below names => .ok (.below (names ++ [name]))

/-- Follow the components of a path to the entry that it leads to. -/
def follow (fs : Files) (place : Place) : List String → Except IoError Entry
  | [] => fs.lookup place
  | component :: rest => do
    match ← fs.lookup place with
    | .file _ => .error .notDirectory
    | .directory => fs.follow (← move place component) rest

/-- The entry that a path leads to. A path without any component leads to the top itself. -/
def resolve (fs : Files) (path : String) : Except IoError Entry :=
  if path.startsWith "/" then fs.follow .above (components path)
  else fs.follow (.below []) (components path)

/-- The bytes of the file that a path leads to. -/
def readBytes (fs : Files) (path : String) : Except IoError ByteArray := do
  match ← fs.resolve path with
  | .directory => .error .isDirectory
  | .file content => .ok content

end Files

end SlotChain
