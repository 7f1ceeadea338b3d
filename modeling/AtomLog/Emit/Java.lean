import AtomLog.Emit.Event
import AtomLog.Text.Lines
/-!
The Java class: constants, an overload of `write` for each pushed signature, one of
`buildStatsEvent` for each pulled one, and flat overloads of `write_non_chained`.
-/
namespace AtomLog.Emit.Java

/-- The type of an argument that is neither a chain nor a map. -/
def type? : FieldType → Option String
  | .bool => some "boolean"
  | .int32 | .enum => some "int"
  | .int64 => some "long"
  | .float => some "float"
  | .string => some "java.lang.String"
  | .bytes => some "byte[]"
  | .boolArray => some "boolean[]"
  | .int32Array | .enumArray => some "int[]"
  | .int64Array => some "long[]"
  | .floatArray => some "float[]"
  | .stringArray => some "java.lang.String[]"
  | .double | .attributionChain | .keyValuePairs => none

def target : Target where
  name := "java"
  supports t := t != .double

structure Options where
  package : String
  className : String
  deriving DecidableEq, Repr, Inhabited

/-- Key-value pairs are passed as four maps: the type of each and the ending of its name. -/
def pairMaps : List (String × String) :=
  [("SparseIntArray", "int"), ("SparseLongArray", "long"), ("SparseArray<Float>", "float"),
    ("SparseArray<String>", "string")]

def argParams (ctx : Context) (i : Nat) : FieldType → List Param
  | .attributionChain => [⟨"int[]", ctx.uidName⟩, ⟨"java.lang.String[]", ctx.tagName⟩]
  | .keyValuePairs => pairMaps.map (fun (type, ending) => ⟨type, s!"arg{i}_{ending}"⟩)
  | t => [⟨(type? t).getD "Object", s!"arg{i}"⟩]

def params (ctx : Context) (s : Signature) : List Param :=
  ⟨"int", "code"⟩ :: (s.types.zipIdx 1).flatMap (fun (t, i) => argParams ctx i t)

def paramText (p : Param) : String := p.type ++ " " ++ p.name

def paramList (ctx : Context) (s : Signature) : String :=
  String.intercalate ", " ((params ctx s).map paramText)

def writeCall (ctx : Context) (i : Nat) : FieldType → String
  | .attributionChain =>
    s!"builder.writeAttributionChain(null == {ctx.uidName} ? new int[0] : {ctx.uidName}, " ++
      s!"null == {ctx.tagName} ? new java.lang.String[0] : {ctx.tagName})"
  | .keyValuePairs =>
    s!"builder.writeKeyValuePairs(arg{i}_int, arg{i}_long, arg{i}_float, arg{i}_string)"
  | .bool => s!"builder.writeBoolean(arg{i})"
  | .int32 | .enum => s!"builder.writeInt(arg{i})"
  | .int64 => s!"builder.writeLong(arg{i})"
  | .float => s!"builder.writeFloat(arg{i})"
  | .string => s!"builder.writeString(arg{i})"
  | .bytes => s!"builder.writeByteArray(null == arg{i} ? new byte[0] : arg{i})"
  | .boolArray => s!"builder.writeBooleanArray(arg{i})"
  | .int32Array | .enumArray => s!"builder.writeIntArray(arg{i})"
  | .int64Array => s!"builder.writeLongArray(arg{i})"
  | .floatArray => s!"builder.writeFloatArray(arg{i})"
  | .stringArray => s!"builder.writeStringArray(arg{i})"
  | .double => ""

def annotateCall (constant : String) (v : AnnotationValue) : String :=
  match v with
  | .bool _ => s!"builder.addBooleanAnnotation({constant}, {valueText v})"
  | .int _ => s!"builder.addIntAnnotation({constant}, {valueText v})"

def spelling (ctx : Context) : Spelling where
  setAtomId := "builder.setAtomId(code)"
  write := writeCall ctx
  annotate := annotateCall

def openLine : String := "    final StatsEvent.Builder builder = StatsEvent.newBuilder();"

def fillLines (ctx : Context) (s : Signature) (b : Bucket) : List String :=
  openLine :: (spelling ctx).bodyLines (sharedBody ctx s b)

/-- The lines that fill a builder, inside the class. Names of fields may hold line ends, and then
each line of the text is indented. -/
def builderLines (ctx : Context) (s : Signature) (b : Bucket) : List String :=
  (Text.lines (Text.ofLines (fillLines ctx s b))).map ("    " ++ ·)

/-- The result and the name of the method for atoms of a kind. -/
def opening : AtomKind → String
  | .pushed => "void write("
  | .pulled => "StatsEvent buildStatsEvent("

def closeLines : AtomKind → List String
  | .pushed => ["        builder.usePooledBuffer();", "        StatsLog.write(builder.build());"]
  | .pulled => ["        return builder.build();"]

/-- The method that the atoms of a kind and a signature share. -/
def eventMethod (ctx : Context) (kind : AtomKind) (s : Signature) (b : Bucket) : List String :=
  ["", s!"    // Signature: {s.mangledName}",
    s!"    public static {opening kind}{paramList ctx s}) \x7b"] ++
    builderLines ctx s b ++ closeLines kind ++ ["    \x7d"]

/-- The arguments with which a flat overload calls the chained one. -/
def chainedArgs (s : Signature) : List String :=
  ["code", "new int[] \x7barg1\x7d", "new java.lang.String[] \x7barg2\x7d"] ++
    ((s.types.zipIdx 1).drop 2).flatMap (fun (t, i) =>
      if t == .keyValuePairs then pairMaps.map (fun (_, ending) => s!"arg{i}_{ending}")
      else [s!"arg{i}"])

def nonChainedMethod (ctx : Context) (s : Signature) : List String :=
  let args := String.intercalate ", " (chainedArgs s)
  ["",
    s!"    public static void write_non_chained({paramList ctx s}) \x7b",
    s!"        write({args});",
    "    \x7d"]

/-- The doc comment of an atom, which one without a text goes without. -/
def docComment (a : Atom) : List String :=
  match Text.docLines a.doc with
  | [] => []
  | ls => ["    /**"] ++ ls.map (fun l => "     * " ++ Text.trim l) ++ ["     */"]

def constantLines (ctx : Context) : List String :=
  ["    // Constants for atom codes."] ++
    ctx.catalog.toList.flatMap (fun a =>
      "" :: docComment a ++
        [s!"    public static final int {Naming.constant a.name} = {a.code};"]) ++
    ["", "    // Constants for enum values."] ++
    ctx.enumConstants.map (fun (name, value) => s!"    public static final int {name} = {value};") ++
    ["", "    // Annotation constants."] ++
    AnnotationId.all.map (fun i => s!"    public static final byte {i.constant} = {i.number};")

def overloads (ctx : Context) : AtomKind → List (Signature × Bucket)
  | .pushed => target.supported ctx.catalog.pushed
  | .pulled => target.supported ctx.catalog.pulled

def nonChained (ctx : Context) : List (Signature × Bucket) :=
  target.supported ctx.catalog.nonChained

def methods (ctx : Context) (kind : AtomKind) : List (List String) :=
  (overloads ctx kind).map (fun (s, b) => eventMethod ctx kind s b)

def usesPairs (ctx : Context) : Bool :=
  (overloads ctx .pushed ++ overloads ctx .pulled).any (fun e => e.1.types.contains .keyValuePairs)

def importLines (ctx : Context) : List String :=
  ["import android.util.StatsEvent;", "import android.util.StatsLog;"] ++
    if usesPairs ctx then
      ["import android.util.SparseArray;", "import android.util.SparseIntArray;",
        "import android.util.SparseLongArray;"]
    else []

/-- A titled part of the class, left out when it is empty. -/
def part (title : String) (methods : List (List String)) : List String :=
  if methods.isEmpty then [] else ["", "    // " ++ title] ++ methods.flatten

def classLines (ctx : Context) (o : Options) : List String :=
  [banner, "", s!"package {o.package};", ""] ++ importLines ctx ++
    ["", "/**", " * Utility class for logging statistics events.", " */",
      s!"public final class {o.className} \x7b"] ++
    constantLines ctx ++
    ["", "    // Write methods"] ++
    (methods ctx .pushed).flatten ++
    part "Build methods for pulled atoms" (methods ctx .pulled) ++
    part "Write flattened methods" ((nonChained ctx).map (fun (s, _) => nonChainedMethod ctx s)) ++
    ["\x7d"]

def classFile (ctx : Context) (o : Options) : String := Text.ofLines (classLines ctx o)

end AtomLog.Emit.Java
