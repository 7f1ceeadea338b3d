import AtomLog.Descriptor.MessageType
/-!
The options that every descriptor set has: those of the messages that options are made of, for sets
that do not declare these messages themselves.
-/
namespace AtomLog.Descriptor.Standard

/-- The full name of a standard message or enum. -/
def name (n : String) : String := "google.protobuf." ++ n

/-- Members of a kind with their numbers. -/
def members (kind : FieldKind) (names : List (Nat × String)) : List Member :=
  names.map (fun (number, name) => { name := name, number := number, kind := kind })

/-- A member with the values of an enum. -/
def choice (number : Nat) (member : String) (enum : String) : Member :=
  { name := member, number := number, kind := .enum, type := some (name enum) }

def file : List Member :=
  members .string [(1, "java_package"), (8, "java_outer_classname"), (11, "go_package"),
    (36, "objc_class_prefix"), (37, "csharp_namespace"), (39, "swift_prefix"),
    (40, "php_class_prefix"), (41, "php_namespace"), (44, "php_metadata_namespace"),
    (45, "ruby_package")] ++
  members .bool [(10, "java_multiple_files"), (16, "cc_generic_services"),
    (17, "java_generic_services"), (18, "py_generic_services"),
    (20, "java_generate_equals_and_hash"), (23, "deprecated"), (27, "java_string_check_utf8"),
    (31, "cc_enable_arenas"), (42, "php_generic_services")] ++
  [choice 9 "optimize_for" "FileOptions.OptimizeMode"]

def message : List Member :=
  members .bool [(1, "message_set_wire_format"), (2, "no_standard_descriptor_accessor"),
    (3, "deprecated"), (7, "map_entry")]

def field : List Member :=
  members .bool [(2, "packed"), (3, "deprecated"), (5, "lazy"), (10, "weak"),
    (15, "unverified_lazy")] ++
  [choice 1 "ctype" "FieldOptions.CType", choice 6 "jstype" "FieldOptions.JSType"]

def method : List Member :=
  members .bool [(33, "deprecated")] ++
  [choice 34 "idempotency_level" "MethodOptions.IdempotencyLevel"]

/-- The options messages by their full names. -/
def messages : List (String × MessageType) :=
  [("FileOptions", file), ("MessageOptions", message), ("FieldOptions", field),
    ("OneofOptions", []), ("ExtensionRangeOptions", []),
    ("EnumOptions", members .bool [(2, "allow_alias"), (3, "deprecated")]),
    ("EnumValueOptions", members .bool [(1, "deprecated")]),
    ("ServiceOptions", members .bool [(33, "deprecated")]), ("MethodOptions", method)].map
    (fun (n, ms) => (name n, { fields := ms }))

def values (names : List (Int × String)) : List EnumValueDecl :=
  names.map (fun (number, name) => { name := name, number := number })

/-- The enums of the options messages by their full names. -/
def enums : List (String × List EnumValueDecl) :=
  [("FileOptions.OptimizeMode", [(1, "SPEED"), (2, "CODE_SIZE"), (3, "LITE_RUNTIME")]),
    ("FieldOptions.CType", [(0, "STRING"), (1, "CORD"), (2, "STRING_PIECE")]),
    ("FieldOptions.JSType", [(0, "JS_NORMAL"), (1, "JS_STRING"), (2, "JS_NUMBER")]),
    ("MethodOptions.IdempotencyLevel",
      [(0, "IDEMPOTENCY_UNKNOWN"), (1, "NO_SIDE_EFFECTS"), (2, "IDEMPOTENT")])].map
    (fun (n, vs) => (name n, values vs))

end AtomLog.Descriptor.Standard
