import TraceDiff.Fault

/-! Where a result is written. The directory of a path is made first, with those above it: the one
that the path names once `.` and `..` are taken off it. The path itself is then opened as it stands,
so that each directory on its way has to be there. -/
namespace TraceDiff.CommandLine.Destination

/-- The names between the slashes of a path, among them empty ones. -/
def split : List Char → List (List Char)
  | [] => [[]]
  | c :: cs =>
    if c = '/' then [] :: split cs
    else match split cs with
      | [] => [[c]]
      | name :: names => (c :: name) :: names

def isAbsolute (path : String) : Bool := path.toList.head? = some '/'

/-- A directory by the names on its way from the root. -/
abbrev Directory := List (List Char)

def names (path : String) : List (List Char) := (split path.toList).filter fun n => !n.isEmpty

def up : List Char := ['.', '.']

def here : List Char := ['.']

/-- One step of a way that is followed by names alone. -/
def follow (d : Directory) (name : List Char) : Directory :=
  if name = here then d else if name = up then d.dropLast else d ++ [name]

def startOf (current : Directory) (path : String) : Directory :=
  if isAbsolute path then [] else current

/-- The directory that is made for a path. -/
def directoryOf (current : Directory) (path : String) : Directory :=
  ((names path).foldl follow (startOf current path)).dropLast

/-- The most bytes of a name. -/
def maxNameSize : Nat := 255

/-- The most bytes of a path. -/
def maxPathSize : Nat := 4095

def isTooLong (name : List Char) : Bool := maxNameSize < (String.ofList name).utf8ByteSize

/-- No name may hold the character that ends a path. -/
def isInvalid (name : List Char) : Bool := name.contains (Char.ofNat 0)

/-- Why a directory cannot have a name. -/
def badName? (name : List Char) : Option DestinationFault :=
  if isInvalid name then some .invalidName
  else if isTooLong name then some .nameTooLong
  else none

/-- Directories that are there; with each one those above it are. -/
structure Disk where
  current : Directory := []
  known : List Directory := []

namespace Disk

def has (disk : Disk) (d : Directory) : Bool :=
  d.isEmpty || d.isPrefixOf disk.current || disk.known.any fun k => d.isPrefixOf k

/-- The file that the rest of a path leads to from a directory. A slash at the end asks for a
directory. -/
def walk (disk : Disk) (endsInSlash : Bool) (d : Directory) :
    List (List Char) → Except DestinationFault Directory
  | [] => .error .directory
  | name :: rest =>
    if name = here then disk.walk endsInSlash d rest
    else if name = up then disk.walk endsInSlash d.dropLast rest
    else if rest.isEmpty && endsInSlash then .error .directory
    else if isTooLong name then .error .nameTooLong
    else if disk.has (d ++ [name]) then disk.walk endsInSlash (d ++ [name]) rest
    else if rest.isEmpty then .ok (d ++ [name])
    else .error .missing

/-- The file that comes of writing to a path. The directories are made from the root on, so the first
name that is no good is the one that is told. -/
def file (disk : Disk) (path : String) : Except DestinationFault Directory :=
  let made := directoryOf disk.current path
  match made.findSome? badName? with
  | some fault => .error fault
  | none =>
    if isInvalid path.toList then .error .invalidName
    else if maxPathSize < path.utf8ByteSize then .error .nameTooLong
    else
      let disk := { disk with known := made :: disk.known }
      disk.walk (path.toList.getLast? = some '/') (startOf disk.current path) (names path)

example : ((Disk.file {} "/a/./b").toOption, (Disk.file {} "/a/../b/c").toOption) =
    (some [['a'], ['b']], none) := by decide +kernel

end Disk

end TraceDiff.CommandLine.Destination
