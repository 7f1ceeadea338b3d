import AtomLog.CommandLine.Flag
import AtomLog.Text.Terminal
/-!
Reading the arguments of the command line.

A value may be attached to its flag or follow as the next argument. It counts once the next flag
comes or the arguments end, so an argument that nothing expects is reported before it.
-/
namespace AtomLog.CommandLine

inductive UsageError
  | unexpectedArgument (argument : String)
  | valueRequired (flag : Flag)
  | repeated (flag : Flag)
  | unexpectedValue (value usage : String)
  deriving DecidableEq, Repr, Inhabited

/-- The message of an error. What it repeats of the arguments cannot control a terminal. -/
def UsageError.message : UsageError → String
  | .unexpectedArgument argument =>
    s!"unexpected argument '{Text.withoutControl argument}' found"
  | .valueRequired flag => s!"a value is required for '{flag.usage}' but none was supplied"
  | .repeated flag => s!"the argument '{flag.usage}' cannot be used multiple times"
  | .unexpectedValue value usage =>
    s!"unexpected value '{Text.withoutControl value}' for '{usage}' found; no more were expected"

/-- What ends the reading early. -/
inductive Stop
  | usage (e : UsageError)
  | help
  | version
  deriving DecidableEq, Repr, Inhabited

/-- A flag without a value. -/
inductive Switch
  | verbose
  | help
  | version
  deriving DecidableEq, Repr, Inhabited

namespace Switch

def all : List Switch := [.verbose, .help, .version]

def long : Switch → String
  | .verbose => "verbose"
  | .help => "help"
  | .version => "version"

def short : Switch → Char
  | .verbose => 'v'
  | .help => 'h'
  | .version => 'V'

/-- The switch in messages, with dots if it may be repeated. -/
def usage : Switch → String
  | .verbose => "--verbose..."
  | s => "--" ++ s.long

end Switch

structure Arguments where
  values : List (Flag × String) := []
  verbosity : Nat := 0
  deriving DecidableEq, Repr, Inhabited

def Arguments.value? (a : Arguments) (f : Flag) : Option String := a.values.lookup f

/-- The arguments read so far, and the last flag with its value, if that came. -/
structure State where
  arguments : Arguments
  pending : Option (Flag × Option String)
  deriving DecidableEq, Repr, Inhabited

namespace State

/-- Give a flag its value. -/
def give (a : Arguments) (f : Flag) (value : String) : Except Stop Arguments :=
  if (a.value? f).isSome then .error (.usage (.repeated f))
  else if f.isPath && value.isEmpty then .error (.usage (.valueRequired f))
  else .ok { a with values := a.values ++ [(f, value)] }

/-- The arguments with the last flag taken in. -/
def settle (st : State) : Except Stop Arguments :=
  match st.pending with
  | none => .ok st.arguments
  | some (f, none) => .error (.usage (.valueRequired f))
  | some (f, some value) => give st.arguments f value

/-- A flag, with its value if that is attached. -/
def flag (st : State) (f : Flag) : Option String → Except Stop State
  | none => return ⟨← st.settle, some (f, none)⟩
  | some value => return ⟨← give (← st.settle) f value, none⟩

def switch (st : State) (s : Switch) : Except Stop State := do
  let a ← st.settle
  match s with
  | .verbose => return ⟨{ a with verbosity := a.verbosity + 1 }, none⟩
  | .help => throw .help
  | .version => throw .version

/-- The parts of a long argument before and after its first equals sign. -/
def splitEquals (cs : List Char) : String × Option String :=
  match cs.dropWhile (· != '=') with
  | '=' :: value => (String.ofList (cs.takeWhile (· != '=')), some (String.ofList value))
  | _ => (String.ofList cs, none)

/-- An argument with two hyphens in front. -/
def long (st : State) (cs : List Char) : Except Stop State :=
  let (name, value) := splitEquals cs
  match Flag.all.find? (·.long == name), Switch.all.find? (·.long == name), value with
  | some f, _, value => st.flag f value
  | none, some s, none => st.switch s
  | none, some s, some value => .error (.usage (.unexpectedValue value s.usage))
  | none, none, _ => .error (.usage (.unexpectedArgument ("--" ++ name)))

/-- The value attached to a letter, with or without an equals sign. -/
def attached : List Char → Option String
  | [] => none
  | '=' :: cs => some (String.ofList cs)
  | cs => some (String.ofList cs)

/-- The letters after one hyphen: switches, and at last a flag with the rest as its value. -/
def short (st : State) : List Char → Except Stop State
  | [] => .ok st
  | c :: cs =>
    match Switch.all.find? (·.short == c), Flag.all.find? (·.short? == some c) with
    | some s, _ => do (← st.switch s).short cs
    | none, some f => st.flag f (attached cs)
    | none, none => .error (.usage (.unexpectedArgument (String.ofList ['-', c])))

/-- Any other argument is the value of the flag before it. -/
def plain (st : State) (argument : String) : Except Stop State :=
  match st.pending with
  | some (f, none) => .ok { st with pending := some (f, some argument) }
  | _ => .error (.usage (.unexpectedArgument argument))

/-- Read the next argument. -/
def next (st : State) (argument : String) : Except Stop State :=
  match argument.toList with
  | '-' :: '-' :: cs => st.long cs
  | '-' :: c :: cs => st.short (c :: cs)
  | _ => st.plain argument

/-- Read arguments to their end. After two hyphens alone nothing is expected. -/
def readAll (st : State) : List String → Except Stop Arguments
  | [] => st.settle
  | "--" :: rest =>
    match rest with
    | [] => st.settle
    | argument :: _ => .error (.usage (.unexpectedArgument argument))
  | argument :: rest => do (← st.next argument).readAll rest

end State

def Arguments.read (arguments : List String) : Except Stop Arguments :=
  State.readAll ⟨{}, none⟩ arguments

end AtomLog.CommandLine
