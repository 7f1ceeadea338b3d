import AtomLog.Text.Upper
/-!
The names of constants and types in the generated code.
-/
namespace AtomLog.Naming

/-- Put capitals for the ASCII letters, with an underscore where a capital follows a small letter;
`afterSmall` tells whether one may be due. Characters that are no letters keep it due, except for an
underscore. -/
def constantChars (afterSmall : Bool) : List Char → List Char
  | [] => []
  | c :: cs =>
    if c.isUpper then (if afterSmall then ['_', c] else [c]) ++ constantChars false cs
    else if c.isLower then c.toUpper :: constantChars true cs
    else c :: constantChars (afterSmall && c != '_') cs

/-- The constant of a name, so that `BleScan` and `ble_scan` both give `BLE_SCAN`. -/
def constant (name : String) : String := String.ofList (constantChars false name.toList)

/-- The constant of one value of an enum field. -/
def enumConstant (atom field value : String) : String :=
  constant atom ++ "__" ++ constant field ++ "__" ++ constant value

/-- Drop hyphens and underscores and put a capital at the start and after each of them. -/
def pascalChars (atStart : Bool) : List Char → List Char
  | [] => []
  | c :: cs =>
    if c == '-' || c == '_' then pascalChars true cs
    else (if atStart then Text.upper c else [c]) ++ pascalChars false cs

def pascalCase (name : String) : String := String.ofList (pascalChars true name.toList)

end AtomLog.Naming
