import AtomLog.Files.Path
import AtomLog.Sorted.Map
import AtomLog.Text.Bytes
/-!
Disks: files in directories, and what reading and writing does to them.

Beside what is on a disk, the system can be at fault when a file is written: it refuses what the disk
would allow, or stops in the middle of a file.
-/
namespace AtomLog

inductive FileError
  | notFound
  | exists
  | notDirectory
  | isDirectory
  | nameTooLong
  | notText
  | nulInName
  /-- Another reason of the system, in its words. -/
  | system (text : String)
  deriving DecidableEq, Repr, Inhabited

def FileError.message : FileError → String
  | .notFound => "No such file or directory (os error 2)"
  | .exists => "File exists (os error 17)"
  | .notDirectory => "Not a directory (os error 20)"
  | .isDirectory => "Is a directory (os error 21)"
  | .nameTooLong => "File name too long (os error 36)"
  | .notText => "stream did not contain valid UTF-8"
  | .nulInName => "file name contained an unexpected NUL byte"
  | .system text => text

/-- What the system does not do for a file that is written, though the disk allows it. -/
inductive Fault
  /-- It does not make the directory of a path. -/
  | directory (path : String) (cause : FileError)
  | opening (cause : FileError)
  /-- It stops when some bytes are written. -/
  | writing (written : Nat) (cause : FileError)
  deriving DecidableEq, Repr, Inhabited

/-- Why a directory is not made. -/
def Fault.refused? (path : String) : Fault → Option FileError
  | .directory p cause => if p = path then some cause else none
  | .opening _ | .writing _ _ => none

/-- The faults of the files that are written one after the other. -/
abbrev Faults := Nat → Option Fault

namespace Faults

def none : Faults := fun _ => Option.none

/-- The faults of all files after the first. -/
def next (faults : Faults) : Faults := fun i => faults (i + 1)

end Faults

inductive Node
  | directory
  | file (content : List UInt8)
  deriving DecidableEq

/-- What is at each place of a disk, and the directory that relative paths start from. A place is the
list of names that lead to it from the root. -/
structure Disk where
  nodes : SortedMap (List String) Node
  current : List String

namespace Disk

def at? (d : Disk) (place : List String) : Option Node :=
  if place.isEmpty then some .directory else d.nodes.get? place

def put (d : Disk) (place : List String) (n : Node) : Disk :=
  { d with nodes := d.nodes.insert place n }

/-- The most bytes that a name may have. -/
def maxName : Nat := 255

/-- The most bytes that a path may have. -/
def maxPath : Nat := 4095

/-- The directory that names lead to from another one. -/
def walk (d : Disk) (place : List String) : List String → Except FileError (List String)
  | [] => .ok place
  | name :: names =>
    if name == "." then d.walk place names
    else if name == ".." then d.walk place.dropLast names
    else if maxName < name.utf8ByteSize then .error .nameTooLong
    else
      match d.at? (place ++ [name]) with
      | none => .error .notFound
      | some (.file _) => .error .notDirectory
      | some .directory => d.walk (place ++ [name]) names

/-- Where a path ends: in a directory that is already there, or at a name in one. -/
inductive Target
  | directory (place : List String)
  | entry (place : List String)

/-- The directory that a path starts from. -/
def start (d : Disk) (path : String) : List String := if path.front == '/' then [] else d.current

/-- Walk all names of a path but the last. -/
def target (d : Disk) (path : String) : Except FileError Target :=
  if path.toList.contains '\x00' then .error .nulInName
  else if maxPath < path.utf8ByteSize then .error .nameTooLong
  else if path.isEmpty then .error .notFound
  else
    match (Path.names path).getLast? with
    | none => .ok (.directory (d.start path))
    | some last => do
      let place ← d.walk (d.start path) (Path.names path).dropLast
      if last == "." then .ok (.directory place)
      else if last == ".." then .ok (.directory place.dropLast)
      else if maxName < last.utf8ByteSize then .error .nameTooLong
      else .ok (.entry (place ++ [last]))

/-- Whether a path ends in a slash, and so can name only a directory. -/
def endsInSlash (path : String) : Bool := path.back == '/'

/-- The bytes of a file. -/
def read (d : Disk) (path : String) : Except FileError (List UInt8) := do
  match ← d.target path with
  | .directory _ => .error .isDirectory
  | .entry place =>
    match d.at? place with
    | none => .error .notFound
    | some .directory => .error .isDirectory
    | some (.file content) => if endsInSlash path then .error .notDirectory else .ok content

/-- The text of a file. -/
def readText (d : Disk) (path : String) : Except FileError String := do
  match Text.ofBytes? (← d.read path) with
  | some text => .ok text
  | none => .error .notText

/-- Whether there is a directory at a path. -/
def isDirectory (d : Disk) (path : String) : Bool :=
  match d.target path with
  | .ok (.directory _) => true
  | .ok (.entry place) => d.at? place == some .directory
  | .error _ => false

/-- Make one directory. -/
def makeDirectory (d : Disk) (fault : Option Fault) (path : String) : Except FileError Disk := do
  match ← d.target path with
  | .directory _ => .error .exists
  | .entry place =>
    if (d.at? place).isSome then .error .exists
    else
      match fault.bind (Fault.refused? path) with
      | some cause => .error cause
      | none => .ok (d.put place .directory)

/-- Replace a file or make it. Where writing stops, the file is left with what was written. -/
def write (d : Disk) (fault : Option Fault) (path : String) (content : List UInt8) :
    Disk × Except FileError Unit :=
  match d.target path with
  | .error e => (d, .error e)
  | .ok (.directory _) => (d, .error .isDirectory)
  | .ok (.entry place) =>
    if endsInSlash path || d.at? place == some .directory then (d, .error .isDirectory)
    else
      match fault with
      | some (.opening cause) => (d, .error cause)
      | some (.writing written cause) => (d.put place (.file (content.take written)), .error cause)
      | some (.directory _ _) | none => (d.put place (.file content), .ok ())

/-- Make a directory, unless there is one. -/
def ensureDirectory (d : Disk) (fault : Option Fault) (path : String) :
    Disk × Except FileError Unit :=
  match d.makeDirectory fault path with
  | .ok d => (d, .ok ())
  | .error e => if d.isDirectory path then (d, .ok ()) else (d, .error e)

/-- Make the first directory of a list, and the rest of the list before it where it has no place
to be. -/
def makeDirectories (d : Disk) (fault : Option Fault) : List String → Disk × Except FileError Unit
  | [] => (d, .ok ())
  | path :: parents =>
    match d.ensureDirectory fault path with
    | (d, .error .notFound) =>
      match d.makeDirectories fault parents with
      | (d, .ok ()) => d.ensureDirectory fault path
      | (d, .error e) => (d, .error e)
    | r => r

end Disk

end AtomLog
