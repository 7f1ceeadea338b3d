import AtomLog.Generate.Run
/-!
Reports of failed runs: the error, and below it what caused it.
-/
namespace AtomLog

/-- One step in the chain of what caused an error. -/
inductive Cause
  | text (message : String)
  /-- The text of a config or a schema. -/
  | document (format : Format) (misfit : Misfit)
  /-- The bytes of a descriptor set. -/
  | descriptors
  deriving DecidableEq, Repr, Inhabited

namespace SchemaError

/-- The causes from a failed load down. -/
def causes : SchemaError → List Cause
  | .file path e => [.text (readMessage "schema" path e), .text e.message]
  | .document format m => [.document format m]

end SchemaError

namespace Descriptor.LoadError

def causes : LoadError → List Cause
  | .file path e => [.text (readMessage "descriptor set" path e), .text e.message]
  | .invalid => [.descriptors]

end Descriptor.LoadError

namespace RunError

/-- The chain of an error, from the whole run down to the root. -/
def causes : RunError → List Cause
  | .readConfig path e =>
    [.text ("Failed to read config: " ++ Text.quoted path), .text e.message]
  | .parseConfig m => [.text "Failed to parse config", .document .toml m]
  | .invalidConfig e => [.text e.message]
  | .loadSchema path e => .text s!"Failed to load schema: {path}" :: e.causes
  | .loadDescriptors path e => .text s!"Failed to load descriptor set: {path}" :: e.causes
  | .readAtoms container e =>
    [.text s!"Failed to read atoms from {container}", .text e.message]
  | .render e =>
    .text e.message :: match e with
      | .selection m => [.text m.message]
      | .collation _ => []
  | .makeDirectory path e => [.text s!"Failed to create directory: {path}", .text e.message]
  | .writeOutput path e => [.text s!"Failed to write output file: {path}", .text e.message]

end RunError

namespace Report

/-- What is said of a text that is no document of its format. -/
def misfitText : Format → Misfit → String
  | .toml, m => "TOML parse error" ++ (m.message?.map (": " ++ ·)).getD ""
  | .json, m => m.message?.getD "malformed JSON"

/-- The texts of a cause. A document of a schema is named once as such and once by itself. -/
def causeTexts (ofConfig : Bool) : Cause → List String
  | .text message => [message]
  | .document .toml m =>
    if ofConfig then [misfitText .toml m]
    else ["invalid TOML schema: " ++ misfitText .toml m, misfitText .toml m]
  | .document .json m => ["invalid JSON schema: " ++ misfitText .json m, misfitText .json m]
  | .descriptors => ["invalid descriptor set", "malformed descriptor set"]

def texts (e : RunError) : List String :=
  let ofConfig := match e with
    | .parseConfig _ => true
    | _ => false
  e.causes.flatMap (causeTexts ofConfig)

/-- A text of several lines under a heading, with the later lines as far in as the first. -/
def indented (heading space text : String) : String :=
  heading ++ ("\n" ++ space).intercalate (Text.split '\n' text)

/-- The causes below an error, numbered if there are several. -/
def causeLines : List String → List String
  | [] => []
  | [cause] => ["", "Caused by:", indented "    " "    " cause]
  | causes =>
    ["", "Caused by:"] ++ causes.zipIdx.map (fun (cause, n) =>
      let number := toString n
      let padding := String.ofList (List.replicate (5 - number.length) ' ')
      indented (padding ++ number ++ ": ") "       " cause)

/-- The report of a failed run. -/
def text (e : RunError) : String :=
  match texts e with
  | [] => ""
  | error :: causes => Text.ofLines (("Error: " ++ error) :: causeLines causes)

end Report

end AtomLog
