import AtomLog.CommandLine.Run
/-!
The program on a real machine: the places that its paths lead to are read into a disk, and what a
run changes there is written back.
-/
namespace AtomLog.Machine

def textOf (place : List String) : String := "/" ++ "/".intercalate place

/-- What is at a place. -/
def nodeAt (place : List String) : IO (Option Node) := do
  let path := (← IO.currentDir) / textOf place
  if ← path.isDir then return some .directory
  else if ← path.pathExists then return some (.file (← IO.FS.readBinFile path).data.toList)
  else return none

/-- Read all places on the way of names. -/
def readNames (d : Disk) (place : List String) : List String → IO Disk
  | [] => return d
  | name :: names => do
    if name == "." then readNames d place names
    else if name == ".." then readNames d place.dropLast names
    else
      let place := place ++ [name]
      match ← nodeAt place with
      | some n => readNames (d.put place n) place names
      | none => readNames d place names

def readPath (d : Disk) (path : String) : IO Disk := readNames d (d.start path) (Path.names path)

/-- The machine's disk around its current directory. -/
def currentDisk : IO Disk := do
  let current := Path.names (← IO.currentDir).toString
  readNames ⟨∅, current⟩ [] current

/-- Write what differs from before, directories before what is in them. -/
def writeChanges (before after : Disk) : IO Unit := do
  for (place, n) in after.nodes.entries do
    if before.at? place != some n then
      match n with
      | .directory => IO.FS.createDirAll (textOf place)
      | .file content => IO.FS.writeBinFile (textOf place) ⟨content.toArray⟩

/-- The disk with all that a run with these arguments may look at. -/
def diskFor (arguments : List String) : IO Disk := do
  let d ← currentDisk
  match CommandLine.Arguments.read arguments with
  | .error _ => return d
  | .ok a => do
    let d ← (a.value? .config).toList.foldlM readPath d
    (CommandLine.paths a d).foldlM readPath d

end AtomLog.Machine

def main (arguments : List String) : IO UInt32 := do
  let before ← AtomLog.Machine.diskFor arguments
  let (after, outcome) := AtomLog.CommandLine.run arguments before
  AtomLog.Machine.writeChanges before after
  IO.print outcome.stdout
  IO.eprint outcome.stderr
  return outcome.exitCode.toUInt32
