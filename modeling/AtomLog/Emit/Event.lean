import AtomLog.Emit.Context
/-!
How a generated function fills an event, before any language spells it.

A function that atoms share guards what belongs to one of them by the constant of its code.
-/
namespace AtomLog.Emit

inductive Step
  | setAtomId
  | write (position : Nat) (type : FieldType)
  | annotate (a : Annotation)
  /-- Reset the state when the argument at a position has the reset value. -/
  | resetWhen (position : Nat) (reset : StateReset)
  deriving DecidableEq, Repr, Inhabited

/-- A step that every call takes, or steps for the atom of a constant alone. -/
inductive Stmt
  | always (step : Step)
  | whenAtom (constant : String) (steps : List Step)
  deriving DecidableEq, Repr, Inhabited

/-- Whether an annotation is one half of a state reset. -/
def isResetPart (a : Annotation) : Bool := a.id == .defaultState || a.id == .triggerStateReset

/-- The steps for the annotations at a position. The two halves of a state reset become one
condition, which an atom itself has no argument for. -/
def annotationSteps (position : Nat) (set : AnnotationSet) : List Step :=
  (set.toList.filter (fun a => !isResetPart a)).map .annotate ++
    match position, StateReset.of? set with
    | 0, _ => []
    | _, none => []
    | i, some r => [.resetWhen i r]

/-- The annotations of a bucket at a position, atom by atom. -/
def bucketAnnotations (ctx : Context) (b : Bucket) (position : Nat) : List Stmt :=
  ((b.annotations.get? position).getD ∅).entries.map (fun (code, set) =>
    .whenAtom (ctx.atomConstant code) (annotationSteps position set))

/-- The body of the function that the atoms of a signature share. -/
def sharedBody (ctx : Context) (s : Signature) (b : Bucket) : List Stmt :=
  .always .setAtomId :: bucketAnnotations ctx b 0 ++
    (s.types.zipIdx 1).flatMap (fun (t, i) =>
      .always (.write i t) :: bucketAnnotations ctx b i)

def atomBody (a : Atom) : List Step :=
  let at_ (i : Nat) := annotationSteps i ((a.annotationsAt i).getD ∅)
  .setAtomId :: at_ 0 ++
    (a.fields.zipIdx 1).flatMap (fun (f, i) => .write i f.type.wire :: at_ i)

/-- The steps of a shared body that are taken for the atom of a constant. -/
def stepsFor (constant : String) (body : List Stmt) : List Step :=
  body.flatMap (fun
    | .always s => [s]
    | .whenAtom c ss => if c = constant then ss else [])

/-- How a language spells the calls of a shared body. -/
structure Spelling where
  setAtomId : String
  write : Nat → FieldType → String
  annotate : String → AnnotationValue → String

namespace Spelling

def stepLines (p : Spelling) : Step → List String
  | .setAtomId => [p.setAtomId ++ ";"]
  | .write i t => [p.write i t ++ ";"]
  | .annotate a => [p.annotate a.id.constant a.value ++ ";"]
  | .resetWhen i r =>
    [s!"if (arg{i} == {r.resetValue}) \x7b",
      "    " ++ p.annotate AnnotationId.triggerStateReset.constant (.int r.defaultValue) ++ ";",
      "\x7d"]

def stmtLines (p : Spelling) : Stmt → List String
  | .always s => p.stepLines s
  | .whenAtom c ss =>
    s!"if ({c} == code) \x7b" :: (ss.flatMap p.stepLines).map ("    " ++ ·) ++ ["\x7d"]

/-- The lines of a body, indented once. -/
def bodyLines (p : Spelling) (body : List Stmt) : List String :=
  (body.flatMap p.stmtLines).map ("    " ++ ·)

end Spelling

/-- The text of an annotation value in all of the languages. -/
def valueText : AnnotationValue → String
  | .int n => toString n
  | .bool b => if b then "true" else "false"

end AtomLog.Emit
