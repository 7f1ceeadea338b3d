import AtomLog.Emit.Event
import AtomLog.Text.Lines
/-!
The Rust module, with one function per atom.

Argument names begin with an underscore, so that no field name is a keyword of the language.
-/
namespace AtomLog.Emit.Rust

/-- The type of an argument that is no chain. -/
def type? : FieldType → Option String
  | .bool => some "bool"
  | .int32 | .enum => some "i32"
  | .int64 => some "i64"
  | .float => some "f32"
  | .string => some "&str"
  | .bytes => some "&[u8]"
  | _ => none

def target : Target where
  name := "rust"
  supports t := t == .attributionChain || (type? t).isSome

def useLines : List String :=
  ["pub use statslog_bindgen::*;",
    "use statspull_bindgen::*;",
    "use std::convert::TryInto;",
    "use std::ffi::CString;",
    ""]

def errorType : List String :=
  ["#[derive(thiserror::Error, Debug)]",
    "pub enum StatsError \x7b",
    "    #[error(\"Return error \x7b0:?\x7d\")]",
    "    Return(i32),",
    "    #[error(transparent)]",
    "    NullChar(#[from] std::ffi::NulError),",
    "    #[error(transparent)]",
    "    Conversion(#[from] std::num::TryFromIntError),",
    "\x7d",
    "",
    "struct AStatsEventDropper(*mut statspull_bindgen::AStatsEvent);",
    "",
    "impl Drop for AStatsEventDropper \x7b",
    "    fn drop(&mut self) \x7b",
    "        unsafe \x7b AStatsEvent_release(self.0) \x7d",
    "    \x7d",
    "\x7d",
    ""]

def atomVariant (a : Atom) : String := Naming.pascalCase a.name

def annotationVariant (i : AnnotationId) : String := Naming.pascalCase i.words.toLower

def enumLines (doc repr name : String) (variants : List (String × Int)) : List String :=
  ["/// " ++ doc, s!"#[repr({repr})]", "#[derive(Clone, Copy, Debug, PartialEq, Eq, Hash)]",
    s!"pub enum {name} \x7b"] ++
    variants.map (fun (variant, n) => s!"    {variant} = {n},") ++ ["\x7d", ""]

def atomVariants (ctx : Context) : List (String × Int) :=
  ctx.catalog.toList.map (fun a => (atomVariant a, a.code))

def annotationVariants : List (String × Int) :=
  AnnotationId.all.map (fun i => (annotationVariant i, (i.number : Int)))

/-! ### The parts of a function -/

def argName (f : AtomField) : String := "_" ++ f.name

def chainName (name : String) : String := "__chain_" ++ name

def flatName (f : AtomField) : String := "__non_chained_" ++ f.name

/-- The parameters for a chain: a slice for every field of a node. -/
def chainParams (ctx : Context) : List Param :=
  ctx.attribution.fields.map (fun f => ⟨"&[" ++ (type? f.type).getD "i32" ++ "]", chainName f.name⟩)

def argType (f : AtomField) : String := (type? f.type).getD "()"

def fieldParams (ctx : Context) (f : AtomField) : List Param :=
  if f.type == .attributionChain then chainParams ctx else [⟨argType f, argName f⟩]

def paramLine (p : Param) : String := s!"    {p.name}: {p.type},"

/-- What the function of a pulled atom adds its event to. -/
def listParams : AtomKind → List Param
  | .pushed => []
  | .pulled => [⟨"&mut AStatsEventList", "__pulled_data"⟩]

inductive Line
  | bind (name value : String)
  | other (text : String)
  deriving DecidableEq, Repr, Inhabited

namespace Line

def text : Line → String
  | .bind name value => s!"let {name} = {value};"
  | .other text => text

def boundName? : Line → Option String
  | .bind name _ => some name
  | .other _ => none

end Line

/-- What a function does: it fills an event, or it calls another function. -/
inductive Body
  | fill (lines : List Line)
  | call (function : String) (args : List String)
  deriving DecidableEq, Repr, Inhabited

namespace Body

def lines : Body → List String
  | .fill ls => ["    unsafe \x7b"] ++ ls.map (fun l => "        " ++ l.text) ++ ["    \x7d"]
  | .call function args =>
    let args := String.intercalate ", " args
    [s!"    {function}({args})"]

def boundNames : Body → List String
  | .fill ls => ls.filterMap Line.boundName?
  | .call _ _ => []

end Body

structure Function where
  name : String
  params : List Param
  body : Body
  deriving DecidableEq, Repr, Inhabited

namespace Function

def lines (f : Function) : List String :=
  [s!"pub fn {f.name}("] ++ f.params.map paramLine ++ [") -> Result<(), StatsError> \x7b"] ++
    f.body.lines ++ ["\x7d", ""]

/-- The names that a function declares: those of its parameters and those that its body binds. -/
def names (f : Function) : List String := f.params.map Param.name ++ f.body.boundNames

end Function

def chainLines (ctx : Context) : List Line :=
  let uid := chainName ctx.uidName
  let tag := chainName ctx.tagName
  let collected := "collect::<Result<Vec<_>, _>>()?"
  [.bind "uids" s!"{uid}.iter().map(|n| (*n).try_into()).{collected}",
    .bind "str_arr" s!"{tag}.iter().map(|s| CString::new(*s)).{collected}",
    .bind "ptr_arr" "str_arr.iter().map(|s| s.as_ptr()).collect::<Vec<_>>()",
    .other ("AStatsEvent_writeAttributionChain(event, uids.as_ptr(), ptr_arr.as_ptr(), " ++
      s!"{uid}.len().try_into()?);")]

/-- The lines that write an argument of a wire type under a name. -/
def writeLines (ctx : Context) (arg : String) : FieldType → List Line
  | .attributionChain => chainLines ctx
  | .bytes => [.other s!"AStatsEvent_writeByteArray(event, {arg}.as_ptr(), {arg}.len());"]
  | .bool => [.other s!"AStatsEvent_writeBool(event, {arg});"]
  | .int32 | .enum => [.other s!"AStatsEvent_writeInt32(event, {arg});"]
  | .int64 => [.other s!"AStatsEvent_writeInt64(event, {arg});"]
  | .float => [.other s!"AStatsEvent_writeFloat(event, {arg});"]
  | .string =>
    [.bind (arg ++ "_cstr") s!"CString::new({arg})?",
      .other s!"AStatsEvent_writeString(event, {arg}_cstr.as_ptr());"]
  | _ => []

def annotateCall (id : AnnotationId) (v : AnnotationValue) : String :=
  let call := match v with
    | .bool _ => "AStatsEvent_addBoolAnnotation"
    | .int _ => "AStatsEvent_addInt32Annotation"
  s!"{call}(event, AnnotationId::{annotationVariant id} as u8, {valueText v});"

def argAt (a : Atom) (i : Nat) : String := ((a.field? i).map argName).getD ""

def stepLines (ctx : Context) (a : Atom) : Step → List Line
  | .setAtomId => [.other s!"AStatsEvent_setAtomId(event, Atoms::{atomVariant a} as u32);"]
  | .write i t => writeLines ctx (argAt a i) t
  | .annotate n => [.other (annotateCall n.id n.value)]
  | .resetWhen i r =>
    [.other s!"if {argAt a i} == {r.resetValue} \x7b",
      .other ("    " ++ annotateCall .triggerStateReset (.int r.defaultValue)),
      .other "\x7d"]

def openLines : AtomKind → List Line
  | .pushed =>
    [.bind "event" "AStatsEvent_obtain()", .bind "_dropper" "AStatsEventDropper(event)"]
  | .pulled => [.bind "event" "AStatsEventList_addStatsEvent(__pulled_data)"]

def closeLines : AtomKind → List Line
  | .pushed =>
    [.bind "ret" "AStatsEvent_write(event)",
      .other "if ret >= 0 \x7b Ok(()) \x7d else \x7b Err(StatsError::Return(ret)) \x7d"]
  | .pulled => [.other "AStatsEvent_build(event);", .other "Ok(())"]

def pushedName (a : Atom) : String := "stats_write_" ++ a.name

def functionName (a : Atom) : String :=
  match a.kind with
  | .pushed => pushedName a
  | .pulled => "add_astats_event_" ++ a.name

/-- The function that logs an atom as seen with a chain. -/
def atomFunction (ctx : Context) (a : Atom) : Function where
  name := functionName a
  params := listParams a.kind ++ a.fields.flatMap (fieldParams ctx)
  body := .fill (openLines a.kind ++ (atomBody a).flatMap (stepLines ctx a) ++ closeLines a.kind)

def flatParams (a : Atom) : List Param :=
  (a.fields.take 2).map (fun f => ⟨argType f, flatName f⟩) ++
    (a.fields.drop 2).map (fun f => ⟨argType f, argName f⟩)

/-- The arguments with which a flat function calls the chained one. -/
def chainedArgs (a : Atom) : List String :=
  (a.fields.take 2).map (fun f => s!"&[{flatName f}]") ++ (a.fields.drop 2).map argName

/-- The function that takes the uid and the tag of an atom as they are. -/
def flatFunction (a : Atom) : Function where
  name := "stats_write_non_chained_" ++ a.name
  params := listParams a.kind ++ flatParams a
  body := .call (pushedName a) (chainedArgs a)

def supported (ctx : Context) : List Atom := ctx.catalog.toList.filter target.supportsAtom

def functions (ctx : Context) : List Function :=
  (supported ctx).map (fun a => atomFunction ctx a.chained) ++
    ((supported ctx).filter Atom.nonChained).map flatFunction

def moduleLines (ctx : Context) : List String :=
  [banner, ""] ++ useLines ++
    enumLines "Atom codes." "i32" "Atoms" (atomVariants ctx) ++
    enumLines "Annotation ids." "u8" "AnnotationId" annotationVariants ++
    errorType ++ (functions ctx).flatMap Function.lines

def moduleFile (ctx : Context) : String := Text.ofLines (moduleLines ctx)

end AtomLog.Emit.Rust
