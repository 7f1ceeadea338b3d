import AtomLog.CommandLine.Arguments
import AtomLog.Generate.Report
/-!
Running the program: from its arguments and a disk to what it prints and writes.
-/
namespace AtomLog.CommandLine

def programName : String := "atomgen"

def programVersion : String := "0.3.0"

/-- What a run leaves behind beside the disk. -/
structure Outcome where
  exitCode : Nat
  stdout : String
  stderr : String
  deriving DecidableEq, Repr, Inhabited

def helpText : String :=
  Text.ofLines
    (["Generate atom logging APIs from an atom schema", "",
      s!"Usage: {programName} [OPTIONS]", "", "Options:"] ++
      Flag.all.map (fun f =>
        let short := match f.short? with
          | some c => String.ofList ['-', c, ',', ' ']
          | none => "    "
        s!"  {short}{f.usage}  {f.help}") ++
      ["  -v, --verbose...  Increase log verbosity", "  -h, --help  Print help",
        "  -V, --version  Print version"])

def usageText (e : UsageError) : String :=
  Text.ofLines ["error: " ++ e.message, "", s!"Usage: {programName} [OPTIONS]", "",
    "For more information, try '--help'."]

/-- What the program says and does where it does not run the generator. -/
def Stop.outcome : Stop → Outcome
  | .usage e => ⟨2, "", usageText e⟩
  | .help => ⟨0, helpText, ""⟩
  | .version => ⟨0, s!"{programName} {programVersion}\n", ""⟩

def runArguments (a : Arguments) (d : Disk) (faults : Faults := .none) :
    Disk × Except RunError Unit :=
  Config.runFile (a.value? .config) (overrides a.value?) d faults

/-- The paths that a run may read or write, as far as a disk with these arguments tells. -/
def paths (a : Arguments) (d : Disk) : List String :=
  let config := (a.value? .config).toList
  match Config.load d (a.value? .config) with
  | .error _ => config
  | .ok c =>
    match (c.merge (overrides a.value?)).plan with
    | .error _ => config
    | .ok p => config ++ p.paths

def run (arguments : List String) (d : Disk) (faults : Faults := .none) : Disk × Outcome :=
  match Arguments.read arguments with
  | .error stop => (d, stop.outcome)
  | .ok a =>
    match runArguments a d faults with
    | (d, .ok ()) => (d, ⟨0, "", ""⟩)
    | (d, .error e) => (d, ⟨1, "", Report.text e⟩)

end AtomLog.CommandLine
