import AtomLog.Emit.Event
import AtomLog.Text.Lines
import AtomLog.Text.Split
/-!
The C++ header and source.

Pushed atoms of one signature share an overload of `stats_write`, pulled ones an overload of
`addAStatsEvent`. An atom that is not chained has a flat overload beside it, which calls the chained
one with a chain of one node.
-/
namespace AtomLog.Emit.Native

/-- The type of an argument that is no chain. -/
def type? : FieldType → Option String
  | .bool => some "bool"
  | .int32 | .enum => some "int32_t"
  | .int64 => some "int64_t"
  | .float => some "float"
  | .string => some "char const*"
  | .bytes => some "const BytesField&"
  | .boolArray => some "const bool*"
  | .int32Array | .enumArray => some "const std::vector<int32_t>&"
  | .int64Array => some "const std::vector<int64_t>&"
  | .floatArray => some "const std::vector<float>&"
  | .stringArray => some "const std::vector<char const*>&"
  | .double | .keyValuePairs | .attributionChain => none

def target : Target where
  name := "native"
  supports t := t == .attributionChain || (type? t).isSome

/-- The namespaces that the output lives in, and the header that the source includes. -/
structure Options where
  cppNamespace : String
  importHeader : String
  deriving DecidableEq, Repr, Inhabited

def openNamespaces (o : Options) : List String :=
  (Text.split ',' o.cppNamespace).map (fun p => s!"namespace {Text.trim p} \x7b")

def closeNamespaces (o : Options) : List String :=
  (Text.split ',' o.cppNamespace).reverse.map (fun p => s!"\x7d // namespace {Text.trim p}")

/-- The parameters for a chain: for every field of a node the values, and their number unless they
are strings. -/
def chainParams (ctx : Context) : List Param :=
  ctx.attribution.fields.flatMap (fun f =>
    if f.type == .string then [⟨"const std::vector<char const*>&", f.name⟩]
    else
      [⟨"const " ++ (type? f.type).getD "int32_t" ++ "*", f.name⟩,
        ⟨"size_t", f.name ++ "_length"⟩])

def argParams (ctx : Context) (position : Nat) (t : FieldType) : List Param :=
  if t == .attributionChain then chainParams ctx
  else
    ⟨(type? t).getD "void*", s!"arg{position}"⟩ ::
      if t == .boolArray then [⟨"size_t", s!"arg{position}_length"⟩] else []

def params (ctx : Context) (s : Signature) : List Param :=
  ⟨"int32_t", "code"⟩ :: (s.types.zipIdx 1).flatMap (fun (t, i) => argParams ctx i t)

def paramText (p : Param) : String := p.type ++ " " ++ p.name

inductive Family
  | write
  | writeNonChained
  | addEvent
  deriving DecidableEq, Repr, Inhabited

namespace Family

/-- The family that logs the atoms of a kind as seen with a chain. -/
def ofKind : AtomKind → Family
  | .pushed => .write
  | .pulled => .addEvent

/-- The result, the name and what comes before the parameters that depend on the signature. -/
def opening : Family → String
  | .write => "int stats_write("
  | .writeNonChained => "int stats_write_non_chained("
  | .addEvent => "void addAStatsEvent(AStatsEventList* pulled_data, "

def buckets (c : Catalog) : Family → Buckets
  | .write => c.pushed
  | .writeNonChained => c.nonChained
  | .addEvent => c.pulled

end Family

def methodSignature (ctx : Context) (m : Family) (s : Signature) : String :=
  m.opening ++ String.intercalate ", " ((params ctx s).map paramText) ++ ")"

def overloads (ctx : Context) (m : Family) : List (Signature × Bucket) :=
  target.supported (m.buckets ctx.catalog)

/-! ### The header -/

def usageParams (ctx : Context) (f : AtomField) : List Param :=
  if f.type == .attributionChain then chainParams ctx
  else [⟨(type? f.type).getD s!"<unsupported {f.type.name}>", f.name⟩]

/-- A call that logs an atom, with the names of its fields. -/
def usage (ctx : Context) (a : Atom) : String :=
  let args := Naming.constant a.name ::
    (a.chained.fields.flatMap (usageParams ctx)).map paramText
  let args := String.intercalate ", " args
  match a.kind with
  | .pushed => s!"stats_write({args});"
  | .pulled => s!"addAStatsEvent(pulled_data, {args});"

def docComment (ctx : Context) (a : Atom) : List String :=
  ["    /**"] ++ (Text.docLines a.doc).map (fun l => "     * " ++ Text.trim l) ++
    [s!"     * Usage: {usage ctx a}", "     */"]

def atomConstants (ctx : Context) : List String :=
  ["/**", " * Constants for atom codes.", " */", "enum \x7b"] ++
    ctx.catalog.toList.flatMap (fun a =>
      "" :: docComment ctx a ++ [s!"    {Naming.constant a.name} = {a.code},"]) ++
    ["", "\x7d;", ""]

def enumConstants (ctx : Context) : List String :=
  "// Constants for enum values" ::
    ctx.enumConstants.map (fun (name, value) => s!"const int32_t {name} = {value};") ++ [""]

def annotationConstants : List String :=
  "// Annotation constants." ::
    AnnotationId.all.map (fun i => s!"const uint8_t {i.constant} = {i.number};") ++ [""]

def bytesField : List String :=
  ["struct BytesField \x7b",
    "  BytesField(char const* array, size_t len) : arg(array), arg_length(len) \x7b\x7d",
    "  char const* arg;",
    "  size_t arg_length;",
    "\x7d;",
    ""]

/-- The tables about all atoms, which only the output for every module declares. -/
def infoDeclarations (ctx : Context) : List String :=
  if ctx.selection.isDefault then
    ["struct StateAtomFieldOptions \x7b",
      "  std::vector<int> primaryFields;",
      "  int exclusiveField;",
      "\x7d;",
      "",
      "struct AtomsInfo \x7b",
      "  const static std::set<int> kTruncatingTimestampAtomBlackList;",
      "  const static std::map<int, int> kAtomsWithUidField;",
      "  const static std::set<int> kAtomsWithAttributionChain;",
      "  const static std::map<int, StateAtomFieldOptions> kStateAtomsFieldOptions;",
      "  const static std::map<int, std::vector<int>> kBytesFieldAtoms;",
      "  const static std::set<int> kWhitelistedAtoms;",
      "\x7d;",
      "",
      s!"const static int kMaxPushedAtomId = {ctx.catalog.maxPushedCode};",
      ""]
  else []

def declared (ctx : Context) (m : Family) : List String :=
  (overloads ctx m).map (fun e => methodSignature ctx m e.1)

def declarations (ctx : Context) (title : String) (m : Family) : List String :=
  ["//", "// " ++ title, "//"] ++ (declared ctx m).map (· ++ ";") ++ [""]

/-- The include for pulled atoms, where there are any. -/
def pullInclude (ctx : Context) : List String :=
  if ctx.catalog.pulled.isEmpty then [] else ["#include <stats_pull_atom_callback.h>"]

def headerLines (ctx : Context) (o : Options) : List String :=
  [banner, "", "#pragma once", "", "#include <stdint.h>", "#include <vector>", "#include <map>",
    "#include <set>"] ++
    pullInclude ctx ++ [""] ++ openNamespaces o ++
    ["", "/*", " * API For logging statistics events.", " */", ""] ++
    atomConstants ctx ++ enumConstants ctx ++ annotationConstants ++ bytesField ++
    infoDeclarations ctx ++
    declarations ctx "Write methods" .write ++
    declarations ctx "Write flattened methods" .writeNonChained ++
    declarations ctx "Add AStatsEvent methods" .addEvent ++
    closeNamespaces o

def header (ctx : Context) (o : Options) : String := Text.ofLines (headerLines ctx o)

/-! ### The source -/

def writeCall (ctx : Context) (i : Nat) : FieldType → String
  | .attributionChain =>
    s!"AStatsEvent_writeAttributionChain(event, reinterpret_cast<const uint32_t*>({ctx.uidName}), " ++
      s!"{ctx.tagName}.data(), static_cast<uint8_t>({ctx.uidName}_length))"
  | .bytes =>
    s!"AStatsEvent_writeByteArray(event, reinterpret_cast<const uint8_t*>(arg{i}.arg), " ++
      s!"arg{i}.arg_length)"
  | .bool => s!"AStatsEvent_writeBool(event, arg{i})"
  | .int32 | .enum => s!"AStatsEvent_writeInt32(event, arg{i})"
  | .int64 => s!"AStatsEvent_writeInt64(event, arg{i})"
  | .float => s!"AStatsEvent_writeFloat(event, arg{i})"
  | .string => s!"AStatsEvent_writeString(event, arg{i})"
  | .boolArray => s!"AStatsEvent_writeBoolArray(event, arg{i}, arg{i}_length)"
  | .int32Array | .enumArray =>
    s!"AStatsEvent_writeInt32Array(event, arg{i}.data(), arg{i}.size())"
  | .int64Array => s!"AStatsEvent_writeInt64Array(event, arg{i}.data(), arg{i}.size())"
  | .floatArray => s!"AStatsEvent_writeFloatArray(event, arg{i}.data(), arg{i}.size())"
  | .stringArray => s!"AStatsEvent_writeStringArray(event, arg{i}.data(), arg{i}.size())"
  | .double | .keyValuePairs => ""

def annotateCall (constant : String) (v : AnnotationValue) : String :=
  match v with
  | .bool _ => s!"AStatsEvent_addBoolAnnotation(event, {constant}, {valueText v})"
  | .int _ => s!"AStatsEvent_addInt32Annotation(event, {constant}, {valueText v})"

def spelling (ctx : Context) : Spelling where
  setAtomId := "AStatsEvent_setAtomId(event, code)"
  write := writeCall ctx
  annotate := annotateCall

/-- The arguments with which a flat overload calls the chained one. -/
def chainedArgs (ctx : Context) (s : Signature) : List String :=
  ["code", ctx.uidName, ctx.uidName ++ "_length", ctx.tagName] ++
    ((s.types.zipIdx 1).drop 2).flatMap (fun (t, i) =>
      s!"arg{i}" :: if t == .boolArray then [s!"arg{i}_length"] else [])

/-- What follows the signature of a flat overload. -/
def wrapperBody (ctx : Context) (s : Signature) : List String :=
  let args := String.intercalate ", " (chainedArgs ctx s)
  [s!"    const int32_t* {ctx.uidName} = &arg1;",
    s!"    const size_t {ctx.uidName}_length = 1;",
    s!"    const std::vector<char const*> {ctx.tagName}(1, arg2);",
    s!"    return stats_write({args});"]

def openLine : AtomKind → String
  | .pushed => "    AStatsEvent* event = AStatsEvent_obtain();"
  | .pulled => "    AStatsEvent* event = AStatsEventList_addStatsEvent(pulled_data);"

def closeLines : AtomKind → List String
  | .pushed =>
    ["    const int ret = AStatsEvent_write(event);",
      "    AStatsEvent_release(event);",
      "    return ret;"]
  | .pulled => ["    AStatsEvent_build(event);"]

/-- The body of the function that the atoms of a kind and a signature share. -/
def eventBody (ctx : Context) (kind : AtomKind) (s : Signature) (b : Bucket) : List String :=
  openLine kind :: (spelling ctx).bodyLines (sharedBody ctx s b) ++ closeLines kind

def functionBody (ctx : Context) (m : Family) (s : Signature) (b : Bucket) : List String :=
  match m with
  | .write => eventBody ctx .pushed s b
  | .addEvent => eventBody ctx .pulled s b
  | .writeNonChained => wrapperBody ctx s

/-- A comment that names the signature, which a flat overload goes without. -/
def functionComment (m : Family) (s : Signature) : List String :=
  match m with
  | .writeNonChained => []
  | _ => [s!"// Signature: {s.mangledName}"]

structure Function where
  comment : List String
  signature : String
  body : List String
  deriving DecidableEq, Repr, Inhabited

def Function.lines (f : Function) : List String :=
  f.comment ++ [f.signature ++ " \x7b"] ++ f.body ++ ["\x7d", ""]

def defined (ctx : Context) (m : Family) : List Function :=
  (overloads ctx m).map (fun (s, b) =>
    ⟨functionComment m s, methodSignature ctx m s, functionBody ctx m s b⟩)

def definitions (ctx : Context) (m : Family) : List String :=
  (defined ctx m).flatMap Function.lines

/-! ### The tables about all atoms -/

/-- The atoms with a uid field, and its number. -/
def uidFields (ctx : Context) : List (Atom × Int) :=
  ctx.catalog.toList.filterMap (fun a => a.uidField.map (fun n => (a, n)))

/-- The atoms with a state, their primary fields, and the exclusive one or 0. -/
def stateFields (ctx : Context) : List (Atom × List Int × Int) :=
  (ctx.catalog.toList.filter Atom.isState).map (fun a =>
    (a, a.primaryFields, a.exclusiveField.getD 0))

/-- The atoms with fields of bytes, and their numbers. -/
def bytesFields (ctx : Context) : List (Atom × List Int) :=
  (ctx.catalog.toList.filter (fun a => !a.binaryFields.isEmpty)).map (fun a =>
    (a, a.binaryFields))

def codeSet (ctx : Context) (name : String) (p : Atom → Bool) : List String :=
  s!"const std::set<int> AtomsInfo::{name} = \x7b" ::
    (ctx.catalog.toList.filter p).map (fun a => s!"    {Naming.constant a.name},") ++
    ["\x7d;", ""]

def codeOf (a : Atom) : String := s!"static_cast<int>({Naming.constant a.name})"

def uidTable (ctx : Context) : List String :=
  ["static std::map<int, int> getAtomUidField() \x7b",
    "    std::map<int, int> uidField;"] ++
    (uidFields ctx).flatMap (fun (a, n) =>
      ["",
        s!"    // Adding uid field for atom ({a.code}){a.name}",
        s!"    uidField[{codeOf a}] = {n};"]) ++
    ["    return uidField;",
      "\x7d",
      "",
      "const std::map<int, int> AtomsInfo::kAtomsWithUidField = getAtomUidField();",
      ""]

def stateTable (ctx : Context) : List String :=
  ["static std::map<int, StateAtomFieldOptions> getStateAtomFieldOptions() \x7b",
    "    std::map<int, StateAtomFieldOptions> options;",
    "    StateAtomFieldOptions opt;"] ++
    (stateFields ctx).flatMap (fun (a, primary, exclusive) =>
      ["",
        s!"    // Adding primary and exclusive fields for atom ({a.code}){a.name}",
        "    opt.primaryFields.clear();"] ++
        primary.map (fun n => s!"    opt.primaryFields.push_back({n});") ++
        [s!"    opt.exclusiveField = {exclusive};",
          s!"    options[{codeOf a}] = opt;"]) ++
    ["    return options;",
      "\x7d",
      "",
      "const std::map<int, StateAtomFieldOptions> AtomsInfo::kStateAtomsFieldOptions = " ++
        "getStateAtomFieldOptions();",
      ""]

def bytesTable (ctx : Context) : List String :=
  ["static std::map<int, std::vector<int>> getBinaryFieldAtoms() \x7b",
    "    std::map<int, std::vector<int>> options;"] ++
    (bytesFields ctx).flatMap (fun (a, ns) =>
      ["", s!"    // Adding binary fields for atom ({a.code}){a.name}"] ++
        ns.map (fun n => s!"    options[{codeOf a}].push_back({n});")) ++
    ["    return options;",
      "\x7d",
      "",
      "const std::map<int, std::vector<int>> AtomsInfo::kBytesFieldAtoms = getBinaryFieldAtoms();",
      ""]

def infoTables (ctx : Context) : List String :=
  if ctx.selection.isDefault then
    codeSet ctx "kTruncatingTimestampAtomBlackList" Atom.truncateTimestamp ++
      codeSet ctx "kAtomsWithAttributionChain" (fun a => a.hasChain || a.nonChained) ++
      codeSet ctx "kWhitelistedAtoms" Atom.whitelisted ++
      uidTable ctx ++ stateTable ctx ++ bytesTable ctx
  else []

def sourceLines (ctx : Context) (o : Options) : List String :=
  [banner, "", s!"#include <{o.importHeader}>", "#include <stats_event.h>"] ++
    pullInclude ctx ++ [""] ++ openNamespaces o ++ [""] ++
    infoTables ctx ++
    definitions ctx .write ++ definitions ctx .writeNonChained ++ definitions ctx .addEvent ++
    closeNamespaces o

def source (ctx : Context) (o : Options) : String := Text.ofLines (sourceLines ctx o)

end AtomLog.Emit.Native
