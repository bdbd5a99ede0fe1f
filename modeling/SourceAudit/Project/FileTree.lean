import SourceAudit.Path

namespace SourceAudit

inductive FileFault where
  | notFound
  | isDirectory
  | notDirectory
  | nameTooLong
  | zeroByte
  | notText
deriving DecidableEq, Repr

def FileFault.message : FileFault → String
  | notFound => "No such file or directory (os error 2)"
  | isDirectory => "Is a directory (os error 21)"
  | notDirectory => "Not a directory (os error 20)"
  | nameTooLong => "File name too long (os error 36)"
  | zeroByte => "file name contained an unexpected NUL byte"
  | notText => "stream did not contain valid UTF-8"

/-- Files and directories by the names that lead to them. The current directory has no names. -/
structure FileTree where
  files : List (List String × ByteArray) := []
  directories : List (List String) := []

namespace FileTree

variable (tree : FileTree)

def names (path : String) : List String := (Path.names path.toList).map (·.text)

def file? (place : List String) : Option ByteArray := tree.files.lookup place

/-- Directories are there if they are named or something is in them. -/
def isDirectory (place : List String) : Bool :=
  place = [] || tree.directories.any (place.isPrefixOf ·) ||
    tree.files.any fun (names, _) => place.isPrefixOf names && place != names

abbrev Place := Option (List String)

def obstacle? : Place → Option FileFault
  | none => none
  | some names =>
    if tree.isDirectory names then none
    else if (tree.file? names).isSome then some .notDirectory
    else some .notFound

/-- The place that a component leads to from a directory. Nothing is known outside the tree. -/
def step? : Place → Path.Component → Option Place
  | place, .current => some place
  | _, .root => some none
  | none, .parent => some none
  | some names, .parent => some (if names = [] then none else some names.dropLast)
  | none, .name _ => none
  | some names, .name text => some (some (names ++ [text]))

def enter (place : Place) (component : Path.Component) : Except FileFault Place :=
  match tree.obstacle? place with
  | some fault => .error fault
  | none =>
    if 255 < component.text.utf8ByteSize then .error .nameTooLong
    else
      match step? place component with
      | some next => .ok next
      | none => .error .notFound

/-- The parts of a path, of which each one but the last has to lead to a directory. -/
def route (path : String) : List Path.Component :=
  (if Path.isRooted path then [.root] else []) ++ Path.parts path.toList

def resolve (path : String) : Except FileFault Place :=
  if path.toList.contains '\x00' then .error .zeroByte
  else if path = "" then .error .notFound
  else if 4096 ≤ path.utf8ByteSize then .error .nameTooLong
  else (route path).foldlM tree.enter (some [])

def namesDirectory (path : String) : Bool := Text.endsWith path "/"

def readBytes (path : String) : Except FileFault ByteArray := do
  match ← tree.resolve path with
  | none => throw .isDirectory
  | some names =>
    match tree.file? names with
    | some content => if namesDirectory path then throw .notDirectory else return content
    | none => throw (if tree.isDirectory names then .isDirectory else .notFound)

def read (path : String) : Except FileFault String := do
  match String.fromUTF8? (← tree.readBytes path) with
  | some text => return text
  | none => throw .notText

def isFile (path : String) : Bool := (tree.readBytes path).isOk

def write (path text : String) : Except FileFault FileTree := do
  match ← tree.resolve path with
  | none => throw .isDirectory
  | some names =>
    if tree.isDirectory names || namesDirectory path then throw .isDirectory
    else
      return { tree with files := (names, text.toUTF8) :: tree.files.filter (·.1 != names) }

end FileTree
end SourceAudit
