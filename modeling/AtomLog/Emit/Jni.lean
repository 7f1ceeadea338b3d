import AtomLog.Emit.Java
/-!
The source that registers the Java class with the virtual machine.

The class builds its events itself, so the table of native methods is empty.
-/
namespace AtomLog.Emit.Jni

def replaceDots (c : Char) (s : String) : String :=
  String.ofList (s.toList.map (fun d => if d == '.' then c else d))

/-- The name of the registering function, as `register_android_util_StatsLog`. -/
def registerFunction (o : Java.Options) : String :=
  "register_" ++ replaceDots '_' o.package ++ "_" ++ o.className

/-- The binary name of the class, as `android/util/StatsLog`. -/
def classPath (o : Java.Options) : String := replaceDots '/' o.package ++ "/" ++ o.className

def sourceLines (o : Java.Options) : List String :=
  [banner,
    "",
    "#include \"core_jni_helpers.h\"",
    "#include \"jni.h\"",
    "",
    "namespace android \x7b",
    "",
    "/*",
    " * JNI registration.",
    " */",
    "static const JNINativeMethod gRegisterMethods[] = \x7b",
    "\x7d;",
    "",
    s!"int {registerFunction o}(JNIEnv* env) \x7b",
    "    return RegisterMethodsOrDie(",
    "            env,",
    s!"            \"{classPath o}\",",
    "            gRegisterMethods, NELEM(gRegisterMethods));",
    "\x7d",
    "",
    "\x7d // namespace android"]

def source (o : Java.Options) : String := Text.ofLines (sourceLines o)

end AtomLog.Emit.Jni
