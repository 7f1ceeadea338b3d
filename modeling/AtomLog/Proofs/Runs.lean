import AtomLog.CommandLine.Run
import AtomLog.Proofs.Rearrangement
import AtomLog.Proofs.Selections
import AtomLog.Proofs.Writes
/-!
What a run leaves on the disk.

All that can fail before the first output is written is over when the outputs are rendered
(`CommandLine.Renders`), and until then the disk is only read. Main statements, whatever the system
is at fault in: what a failed run changes (`CommandLine.failures_leave_disk`), and which outputs of
a finished run are kept (`Config.run_keeps_outputs`).
-/
namespace AtomLog

open Collation (collate)

/-! ### Rendering -/

namespace Plan

variable {p : Plan} {s : Schema} {files : List (String × String)}

/-- Errors of the schema come before the selection. -/
theorem context_eq_error {e : RenderError} : p.context s = .error e ↔
    ((collate .standard s).errors ≠ [] ∧ e = .collation (collate .standard s).errors) ∨
      ((collate .standard s).errors = [] ∧ ∃ cause,
        (collate .standard s).catalog.select p.selection = .error cause ∧ e = .selection cause) := by
  cases herrors : (collate .standard s).errors with
  | nil =>
    simp [context, herrors, bind_eq_error, mapError_eq_error, pure, Except.pure,
      eq_comm (a := e)]
  | cons d ds =>
    simp [context, herrors, bind, Except.bind, throw, throwThe, MonadExceptOf.throw, eq_comm]

theorem render_eq_ok : p.render s = .ok files ↔ ∃ ctx, p.context s = .ok ctx ∧
    files = OutputKind.all.filterMap
      (fun k => (p.outputs.path? k).map (fun path => (path, p.text ctx k))) := by
  simp only [render, bind_eq_ok, pure_eq_ok]

theorem render_eq_error {e : RenderError} : p.render s = .error e ↔ p.context s = .error e := by
  simp only [render, bind_eq_error, pure, Except.pure, reduceCtorEq, and_false, exists_false,
    or_false]

/-- Every output that is asked for is rendered, in one order. -/
theorem paths_of_render (h : p.render s = .ok files) :
    files.map Prod.fst = OutputKind.all.filterMap p.outputs.path? := by
  obtain ⟨ctx, -, rfl⟩ := render_eq_ok.1 h
  rw [List.map_filterMap]
  apply List.filterMap_congr
  intro k _
  cases p.outputs.path? k <;> rfl

/-- Rendering fails on errors of the schema, and on a module that no atom belongs to. -/
theorem render_fails_iff :
    (∃ e, p.render s = .error e) ↔ (collate .standard s).errors ≠ [] ∨
      ∃ m, p.selection = .module m ∧
        ∀ code a, (collate .standard s).catalog.get? code = some a → m ∉ a.modules := by
  have keyed : Catalog.Keyed (collate .standard s).catalog.atoms := Catalog.keyed_ofAtoms _
  rw [← keyed.select_fails_iff]
  simp only [render_eq_error, context_eq_error]
  constructor
  · intro h
    obtain ⟨e, ⟨herrors, -⟩ | ⟨-, cause, hselect, -⟩⟩ := h
    · exact .inl herrors
    · exact .inr ⟨cause, hselect⟩
  · intro h
    by_cases clean : (collate .standard s).errors = []
    · obtain ⟨cause, hselect⟩ := h.resolve_left (not_not_intro clean)
      exact ⟨_, .inr ⟨clean, cause, hselect, rfl⟩⟩
    · exact ⟨_, .inl ⟨clean, rfl⟩⟩

theorem outputTexts_eq_ok {d : Disk} : p.outputTexts d = .ok files ↔
    ∃ s, p.source.load d = .ok s ∧ p.render s = .ok files := by
  simp only [outputTexts, bind_eq_ok, mapError_eq_ok]

end Plan

theorem intercalate_eq_join (sep : String) (xs : List String) (h : xs ≠ []) :
    sep ++ sep.intercalate xs = String.join (xs.map (sep ++ ·)) := by
  induction xs with
  | nil => exact absurd rfl h
  | cons x xs ih =>
    cases xs with
    | nil => simp
    | cons y ys =>
      rw [String.intercalate_cons_cons, List.map_cons, String.join_cons, ← ih (by simp)]
      simp only [String.append_assoc]

/-- The message of a schema with errors counts them, and has a line for each. -/
theorem RenderError.message_collation {errors : List CollationError} (h : errors ≠ []) :
    (RenderError.collation errors).message =
      s!"Schema has {errors.length} error(s):" ++
        String.join (errors.map (fun e => "\n  " ++ e.message)) := by
  have first : " error(s):\n" = " error(s):" ++ "\n" := by decide
  have later : "\n  " = "\n" ++ "  " := by decide
  have lines := intercalate_eq_join "\n" (errors.map (fun e => "  " ++ e.message)) (by simpa)
  simp only [List.map_map, Function.comp_def, ← String.append_assoc, ← later] at lines
  rw [← lines]
  unfold message
  simp only [first, String.append_assoc]
  rfl

/-! ### An empty schema -/

/-- A disk with the empty schema in the directory that runs start in. -/
def workDisk : Disk where
  nodes := .ofList [(["work"], .directory), (["work", "s.toml"], .file [])]
  current := ["work"]

/-- A configuration that asks for a C++ header and source. -/
def nativeConfig (header source : String) : Config where
  input := { schema := some "s.toml" }
  output := { header := some header, cpp := some source }

/-- A header and a source differ in their third lines. -/
theorem Emit.Native.header_ne_source (ctx ctx' : Context) (o o' : Options) :
    header ctx o ≠ source ctx' o' := by
  intro h
  have chars := congrArg String.toList h
  simp only [header, source, headerLines, sourceLines, List.cons_append, List.nil_append,
    Text.ofLines_cons, String.toList_append, List.append_cancel_left_eq] at chars
  have second := congrArg (fun cs => cs[1]?) chars
  simp [toString] at second

theorem workDisk_load : (Source.schema "s.toml").load workDisk = .ok { container := "Atom" } := by
  have hread : workDisk.read "s.toml" = .ok (Text.bytes "") := by with_unfolding_all rfl
  have htext : workDisk.readText "s.toml" = .ok "" := by
    simp [Disk.readText, hread, Text.ofBytes?_bytes, bind, Except.bind]
  have hdoc : Schema.ofToml "" = .ok { container := "Atom" } := rfl
  have hext : Path.hasExtension "json" "s.toml" = false := by decide
  simp [Source.load, Schema.load, htext, hdoc, hext, Except.mapError, bind, Except.bind]

/-- The header and the source of an empty schema are rendered. -/
theorem nativeConfig_renders (header source : String) :
    ∃ p ctx, (nativeConfig header source).plan = .ok p ∧
      p.source.load workDisk = .ok { container := "Atom" } ∧
      p.render { container := "Atom" } =
        .ok [(header, Emit.Native.header ctx p.native), (source, Emit.Native.source ctx p.native)] :=
  ⟨_, _, rfl, workDisk_load,
    Plan.render_eq_ok.2 ⟨_, Plan.context_eq_ok.2 ⟨rfl, _, rfl, rfl⟩, rfl⟩⟩

/-! ### Failed runs -/

namespace CommandLine

variable {a : Arguments} {d d' : Disk} {faults : Faults} {p : Plan}
  {files : List (String × String)}

/-- The plan of a run and its outputs, once the config is read and merged with the flags, the plan
is sound, the schema is loaded and all outputs are rendered. -/
def Renders (a : Arguments) (d : Disk) (p : Plan) (files : List (String × String)) : Prop :=
  ∃ c s, Config.load d (a.value? .config) = .ok c ∧ (c.merge (overrides a.value?)).plan = .ok p ∧
    p.source.load d = .ok s ∧ p.render s = .ok files

/-- Outputs that are rendered are then written. -/
theorem Renders.runArguments_eq (h : Renders a d p files) :
    runArguments a d faults = d.writeOutputs faults files := by
  obtain ⟨c, s, hload, hplan, hsource, hrender⟩ := h
  have htexts : p.outputTexts d = .ok files := Plan.outputTexts_eq_ok.2 ⟨s, hsource, hrender⟩
  simp [runArguments, Config.runFile, Config.run, Plan.run, hload, hplan, htexts]

/-- A run that has not rendered its outputs fails and has only read the disk. -/
theorem runArguments_of_not_renders (h : ∀ p files, ¬ Renders a d p files) :
    ∃ e, runArguments a d faults = (d, .error e) := by
  unfold runArguments Config.runFile
  cases hload : Config.load d (a.value? .config) with
  | error e => exact ⟨e, rfl⟩
  | ok c =>
    simp only [Config.run]
    cases hplan : (c.merge (overrides a.value?)).plan with
    | error e => exact ⟨.invalidConfig e, rfl⟩
    | ok p =>
      simp only [Plan.run]
      cases htexts : p.outputTexts d with
      | error e => exact ⟨e, rfl⟩
      | ok files =>
        obtain ⟨s, hsource, hrender⟩ := Plan.outputTexts_eq_ok.1 htexts
        exact (h p files ⟨c, s, hload, hplan, hsource, hrender⟩).elim

/-- What writing leaves of outputs for different files when it stops at one of them. -/
theorem stopped_leaves {e : RunError}
    (distinct : (files.map Prod.fst).Pairwise (fun path path' => ¬ d.SameFile path path'))
    (h : d.writeOutputs faults files = (d', .error e)) :
    ∃ before f after, files = before ++ f :: after ∧ e.Stops f.1 ∧
      (∀ g ∈ before, d'.readText g.1 = .ok g.2) ∧
      ∀ place, (∀ g ∈ before, d.filePlace? g.1 ≠ some place) →
        (∀ content, d'.at? place = some (.file content) ↔ d.at? place = some (.file content)) ∨
        d.filePlace? f.1 = some place ∧ ∃ written cause,
          faults before.length = some (.writing written cause) ∧
          d'.at? place = some (.file ((Text.bytes f.2).take written)) := by
  obtain ⟨before, f, after, left, rfl, hleft, hwritten, hstops⟩ := Disk.writeOutputs_error h
  have paths : ((Disk.contents before ++ left).map Prod.fst).Sublist
      ((before ++ f :: after).map Prod.fst) := by
    have hleft : (left.map Prod.fst).Sublist (f.1 :: after.map Prod.fst) := by
      cases hleft with
      | nothing => exact List.nil_sublist _
      | part stopped => exact (List.nil_sublist _).cons_cons _
    simpa [Disk.contents, Function.comp_def] using hleft
  refine ⟨before, f, after, rfl, hstops, ?_, ?_⟩
  · intro g hg
    apply Disk.readText_of_read
    exact hwritten.reads_of_pairwise (distinct.sublist paths) (g.1, Text.bytes g.2)
      (List.mem_append_left _ (List.mem_map_of_mem hg))
  · intro place hother
    cases hlast : d.lastText? (Disk.contents before ++ left) place with
    | none => exact .inl (hwritten.others place hlast)
    | some content =>
      obtain ⟨g, hg, hplace, rfl⟩ := Disk.lastText?_eq_some hlast
      rcases List.mem_append.1 hg with hg | hg
      · obtain ⟨g', hg', rfl⟩ := List.mem_map.1 hg
        exact absurd hplace (hother g' hg')
      · cases hleft with
        | nothing => cases hg
        | part stopped =>
          obtain rfl := List.mem_singleton.1 hg
          exact .inr ⟨hplace, _, _, stopped, hwritten.texts place _ hlast⟩

example :
    let full : Faults := fun i =>
      if i = 1 then some (.writing 2 (.system "No space left on device (os error 28)")) else none
    (workDisk.writeOutputs full [("log.h", "one"), ("log.cpp", "two")]).1.at? ["work", "log.cpp"] =
      some (.file (Text.bytes "tw")) := by
  decide +kernel

/-- A run that fails before its outputs are rendered leaves the whole disk as it was. Rendering
fails on a schema with errors, all of which it lists, and on a module that no atom belongs to, and
on nothing else. A run that fails in writing outputs for different files has written those before
the one that stopped it, each with its whole text, and has changed no other file, unless the system
stopped in the middle of that one, which then has as much of its text as was written. -/
theorem failures_leave_disk :
    (∀ a d faults, (∀ p files, ¬ Renders a d p files) →
      ∃ e, runArguments a d faults = (d, .error e)) ∧
    (∀ (p : Plan) (s : Schema),
      ((∃ e, p.render s = .error e) ↔ (collate .standard s).errors ≠ [] ∨
        ∃ m, p.selection = .module m ∧
          ∀ code a, (collate .standard s).catalog.get? code = some a → m ∉ a.modules) ∧
      ((collate .standard s).errors ≠ [] → ∃ e, p.render s = .error e ∧
        e.message = s!"Schema has {(collate .standard s).errors.length} error(s):" ++
          String.join ((collate .standard s).errors.map (fun e => "\n  " ++ e.message)))) ∧
    ∀ a d faults p files d' e, Renders a d p files → runArguments a d faults = (d', .error e) →
      files.map Prod.fst = OutputKind.all.filterMap p.outputs.path? ∧
      ((files.map Prod.fst).Pairwise (fun path path' => ¬ d.SameFile path path') →
        ∃ before f after, files = before ++ f :: after ∧ e.Stops f.1 ∧
          (∀ g ∈ before, d'.readText g.1 = .ok g.2) ∧
          ∀ place, (∀ g ∈ before, d.filePlace? g.1 ≠ some place) →
            (∀ content, d'.at? place = some (.file content) ↔
              d.at? place = some (.file content)) ∨
            d.filePlace? f.1 = some place ∧ ∃ written cause,
              faults before.length = some (.writing written cause) ∧
              d'.at? place = some (.file ((Text.bytes f.2).take written))) := by
  refine ⟨fun a d faults => runArguments_of_not_renders, ?_, ?_⟩
  · intro p s
    refine ⟨Plan.render_fails_iff, ?_⟩
    intro herrors
    refine ⟨_, Plan.render_eq_error.2 (Plan.context_eq_error.2 (.inl ⟨herrors, rfl⟩)), ?_⟩
    exact RenderError.message_collation herrors
  · intro a d faults p files d' e hrenders hrun
    rw [hrenders.runArguments_eq] at hrun
    obtain ⟨c, s, -, -, -, hrender⟩ := hrenders
    exact ⟨Plan.paths_of_render hrender, fun distinct => stopped_leaves distinct hrun⟩

/-- Arguments for a header that stands where the directory of the source should be. -/
def blockedArguments : Arguments where
  values := [(.schema, "s.toml"), (.header, "log.h"), (.cpp, "log.h/log.cpp")]

/-- The header is written and kept when the source cannot be. -/
theorem failures_leave_disk_blocked : ∃ p header source d',
    Renders blockedArguments workDisk p [("log.h", header), ("log.h/log.cpp", source)] ∧
      runArguments blockedArguments workDisk = (d', .error (.makeDirectory "log.h" .exists)) ∧
      d'.readText "log.h" = .ok header := by
  obtain ⟨p, ctx, hplan, hload, hrender⟩ := nativeConfig_renders "log.h" "log.h/log.cpp"
  have hrenders : Renders blockedArguments workDisk p _ := ⟨{}, _, rfl, hplan, hload, hrender⟩
  obtain ⟨d', hrun⟩ : ∃ d', runArguments blockedArguments workDisk =
      (d', .error (.makeDirectory "log.h" .exists)) :=
    ⟨_, hrenders.runArguments_eq.trans (by with_unfolding_all rfl)⟩
  have header_place : workDisk.filePlace? "log.h" = some ["work", "log.h"] := by
    with_unfolding_all rfl
  have source_place : workDisk.filePlace? "log.h/log.cpp" = some ["work", "log.h", "log.cpp"] := by
    with_unfolding_all rfl
  obtain ⟨-, hwritten⟩ := failures_leave_disk.2.2 _ _ _ _ _ _ _ hrenders hrun
  obtain ⟨before, f, after, hfiles, hstops, hreads, -⟩ :=
    hwritten (by simp [Disk.SameFile, header_place, source_place])
  refine ⟨p, _, _, _, hrenders, hrun, ?_⟩
  cases before with
  | nil =>
    obtain ⟨rfl, -⟩ := List.cons.inj hfiles
    exact absurd hstops.directory_eq (show "log.h" ≠ (Path.parent? "log.h").getD "" by decide)
  | cons g before =>
    obtain ⟨rfl, -⟩ := List.cons.inj hfiles
    simpa using hreads _ List.mem_cons_self

end CommandLine

/-! ### Finished runs -/

namespace Config

/-- A finished run has a plan, and has written all that the plan renders. -/
theorem run_eq_ok {c : Config} {d d' : Disk} {faults : Faults}
    (h : c.run d faults = (d', .ok ())) :
    ∃ p s files, c.plan = .ok p ∧ p.source.load d = .ok s ∧ p.render s = .ok files ∧
      d.Written (Disk.contents files) d' := by
  unfold run at h
  split at h
  · rename_i p hplan
    unfold Plan.run at h
    split at h
    · rename_i files htexts
      obtain ⟨s, hsource, hrender⟩ := Plan.outputTexts_eq_ok.1 htexts
      exact ⟨p, s, files, hplan, hsource, hrender, Disk.writeOutputs_ok h⟩
    · cases h
  · cases h

/-- After a finished run, the file of every output that was asked for has the text of the last
output for that file. So every output is kept just when no two outputs for one file differ. -/
theorem run_keeps_outputs {c : Config} {d d' : Disk} {faults : Faults}
    (h : c.run d faults = (d', .ok ())) :
    ∃ p s files, c.plan = .ok p ∧ p.source.load d = .ok s ∧ p.render s = .ok files ∧
      files.map Prod.fst = OutputKind.all.filterMap p.outputs.path? ∧
      (∀ f ∈ files, ∃ place text, d.filePlace? f.1 = some place ∧
        d.lastText? files place = some text ∧ d'.readText f.1 = .ok text) ∧
      ((∀ f ∈ files, d'.readText f.1 = .ok f.2) ↔
        ∀ f ∈ files, ∀ g ∈ files, d.SameFile f.1 g.1 → f.2 = g.2) := by
  obtain ⟨p, s, files, hplan, hsource, hrender, hwritten⟩ := run_eq_ok h
  exact ⟨p, s, files, hplan, hsource, hrender, Plan.paths_of_render hrender,
    fun f hf => hwritten.readText hf, hwritten.reads_iff⟩

theorem run_nativeConfig {header source : String} {p : Plan} {files : List (String × String)}
    (hplan : (nativeConfig header source).plan = .ok p)
    (hload : p.source.load workDisk = .ok { container := "Atom" })
    (hrender : p.render { container := "Atom" } = .ok files) :
    (nativeConfig header source).run workDisk = workDisk.writeOutputs .none files := by
  have htexts : p.outputTexts workDisk = .ok files :=
    Plan.outputTexts_eq_ok.2 ⟨_, hload, hrender⟩
  simp [run, Plan.run, hplan, htexts]

/-- Under paths of their own, a header and a source are both kept. -/
theorem run_keeps_outputs_native : ∃ header source d',
    (nativeConfig "log.h" "log.cpp").run workDisk = (d', .ok ()) ∧
      d'.readText "log.h" = .ok header ∧ d'.readText "log.cpp" = .ok source ∧
      header ≠ source := by
  obtain ⟨p, ctx, hplan, hload, hrender⟩ := nativeConfig_renders "log.h" "log.cpp"
  obtain ⟨d', hrun⟩ : ∃ d', (nativeConfig "log.h" "log.cpp").run workDisk = (d', .ok ()) :=
    ⟨_, (run_nativeConfig hplan hload hrender).trans (by with_unfolding_all rfl)⟩
  obtain ⟨p', s, files, hplan', hload', hrender', -, -, hkept⟩ := run_keeps_outputs hrun
  cases hplan.symm.trans hplan'
  cases hload.symm.trans hload'
  cases hrender.symm.trans hrender'
  have header_place : workDisk.filePlace? "log.h" = some ["work", "log.h"] := by
    with_unfolding_all rfl
  have source_place : workDisk.filePlace? "log.cpp" = some ["work", "log.cpp"] := by
    with_unfolding_all rfl
  have hreads := hkept.2 (by simp [Disk.SameFile, header_place, source_place])
  refine ⟨_, _, d', hrun, ?_, ?_, Emit.Native.header_ne_source ctx ctx p.native p.native⟩
  · simpa using hreads _ List.mem_cons_self
  · simpa using hreads _ (List.mem_cons_of_mem _ List.mem_cons_self)

/-- Under one path, the source replaces the header, and the run finishes all the same. -/
theorem not_run_keeps_outputs : ∃ p s files d', (nativeConfig "log" "log").plan = .ok p ∧
    p.source.load workDisk = .ok s ∧ p.render s = .ok files ∧
    (nativeConfig "log" "log").run workDisk = (d', .ok ()) ∧
    ¬∀ f ∈ files, d'.readText f.1 = .ok f.2 := by
  obtain ⟨p, ctx, hplan, hload, hrender⟩ := nativeConfig_renders "log" "log"
  obtain ⟨d', hrun⟩ : ∃ d', (nativeConfig "log" "log").run workDisk = (d', .ok ()) :=
    ⟨_, (run_nativeConfig hplan hload hrender).trans (by with_unfolding_all rfl)⟩
  refine ⟨p, _, _, d', hplan, hload, hrender, hrun, ?_⟩
  intro hreads
  have header_read := hreads _ List.mem_cons_self
  have source_read := hreads _ (List.mem_cons_of_mem _ List.mem_cons_self)
  apply Emit.Native.header_ne_source ctx ctx p.native p.native
  simpa using header_read.symm.trans source_read

end Config

end AtomLog
