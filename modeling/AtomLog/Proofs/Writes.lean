import AtomLog.Generate.Run
import AtomLog.Proofs.Draft
/-!
What writing outputs leaves on a disk.

A path leads to one place, whatever is there, so files can be told apart by their paths alone.
Writing makes directories where nothing was and touches no other file (`Disk.Written`). Main
statement: whether outputs are all written or writing stops at one of them, every place has the bytes
that were last written to it, or what it had before (`Disk.writeOutputs_ok`,
`Disk.writeOutputs_error`). Of the output where writing stops, that may be a part (`Disk.Left`).
-/
namespace AtomLog

/-- What stops a run at the output with a path: its directory or the file itself. -/
inductive RunError.Stops (path : String) : RunError → Prop
  | directory (cause : FileError) : Stops path (.makeDirectory ((Path.parent? path).getD "") cause)
  | output (cause : FileError) : Stops path (.writeOutput path cause)

theorem RunError.Stops.directory_eq {path directory : String} {cause : FileError}
    (h : Stops path (.makeDirectory directory cause)) :
    directory = (Path.parent? path).getD "" := by
  cases h
  rfl

namespace Path

/-- The place that a name leads to. -/
def step (place : List String) (name : String) : List String :=
  if name = "." then place else if name = ".." then place.dropLast else place ++ [name]

/-- The place that names lead to, if there are directories all the way. -/
def follow (place names : List String) : List String := names.foldl step place

end Path

namespace Disk

/-- The place of the file that a path names, unless the path can only name a directory. -/
def filePlace? (d : Disk) (path : String) : Option (List String) :=
  match (Path.names path).getLast? with
  | none => none
  | some last =>
    if last = "." ∨ last = ".." ∨ endsInSlash path = true then none
    else some (Path.follow (d.start path) (Path.names path))

/-- The text that the last of some outputs has for a place, or its bytes. -/
def lastText? {α : Type} (d : Disk) (files : List (String × α)) (place : List String) : Option α :=
  (files.reverse.find? (fun f => d.filePlace? f.1 = some place)).map Prod.snd

/-- The bytes that outputs are written as. -/
def contents (files : List (String × String)) : List (String × List UInt8) :=
  files.map (fun f => (f.1, Text.bytes f.2))

/-- What is left of an output that was not written: nothing, or as much as was written of it. -/
inductive Left (fault : Option Fault) (f : String × String) : List (String × List UInt8) → Prop
  | nothing : Left fault f []
  | part {written : Nat} {cause : FileError} (stopped : fault = some (.writing written cause)) :
      Left fault f [(f.1, (Text.bytes f.2).take written)]

/-- Whether two paths name one file. -/
def SameFile (d : Disk) (path path' : String) : Prop :=
  ∃ place, d.filePlace? path = some place ∧ d.filePlace? path' = some place

/-- A disk after some files have been written, beside directories that they needed. -/
structure Written (d : Disk) (files : List (String × List UInt8)) (d' : Disk) : Prop where
  current : d'.current = d.current
  directories : ∀ place, d.at? place = some .directory → d'.at? place = some .directory
  named : ∀ f ∈ files, ∃ place, d.filePlace? f.1 = some place ∧
    d'.target f.1 = .ok (.entry place)
  texts : ∀ place content, d.lastText? files place = some content →
    d'.at? place = some (.file content)
  others : ∀ place, d.lastText? files place = none →
    ∀ content, d'.at? place = some (.file content) ↔ d.at? place = some (.file content)

/-! ### Where paths lead -/

section Places

variable {d d' : Disk}

/-- A walk passes the names that stay where they are, those that go up, and directories. -/
theorem walk_cons_eq_ok {place place' names : List String} {name : String} :
    d.walk place (name :: names) = .ok place' ↔
      (name = "." ∨ name = ".." ∨
        name.utf8ByteSize ≤ maxName ∧ d.at? (place ++ [name]) = some .directory) ∧
      d.walk (Path.step place name) names = .ok place' := by
  rw [walk, Path.step]
  by_cases hdot : name = "."
  · simp [hdot]
  · by_cases hup : name = ".."
    · simp [hup]
    · by_cases hlong : maxName < name.utf8ByteSize
      · simp [hdot, hup, hlong, Nat.not_le.2 hlong]
      · simp only [beq_iff_eq, hdot, hup, hlong, if_false, false_or, Nat.not_lt.1 hlong, true_and]
        split <;> simp_all

theorem walk_eq_ok {place place' names : List String} (h : d.walk place names = .ok place') :
    place' = Path.follow place names := by
  induction names generalizing place with
  | nil =>
    cases h
    rfl
  | cons name names ih => exact ih (walk_cons_eq_ok.1 h).2

/-- Where a path ends whose names but the last lead to a place. -/
def endAt (place : List String) (last : String) : Except FileError Target :=
  if last == "." then .ok (.directory place)
  else if last == ".." then .ok (.directory place.dropLast)
  else if maxName < last.utf8ByteSize then .error .nameTooLong
  else .ok (.entry (place ++ [last]))

/-- A path leads somewhere when it is a path, and all names but the last can be walked. -/
theorem target_eq_ok {path : String} {t : Target} : d.target path = .ok t ↔
    (path.toList.contains '\x00' = false ∧ path.utf8ByteSize ≤ maxPath ∧ path.isEmpty = false) ∧
    match (Path.names path).getLast? with
    | none => t = .directory (d.start path)
    | some last => ∃ place, d.walk (d.start path) (Path.names path).dropLast = .ok place ∧
      endAt place last = .ok t := by
  rw [target, ite_error_eq_ok, ite_error_eq_ok, ite_error_eq_ok]
  simp only [Bool.not_eq_true, Nat.not_lt, and_assoc]
  refine and_congr_right (fun _ => and_congr_right (fun _ => and_congr_right (fun _ => ?_)))
  cases (Path.names path).getLast? with
  | none => simp [eq_comm]
  | some last => exact bind_eq_ok

theorem endAt_eq_entry {place place' : List String} {last : String}
    (h : endAt place last = .ok (.entry place')) :
    last ≠ "." ∧ last ≠ ".." ∧ place' = place ++ [last] := by
  unfold endAt at h
  split at h
  · cases h
  · split at h
    · cases h
    · split at h
      · cases h
      · cases h
        simp_all

/-- A path that ends at a name ends where its names lead. -/
theorem target_eq_entry {path : String} {place : List String}
    (h : d.target path = .ok (.entry place)) :
    place ≠ [] ∧ (endsInSlash path = false → d.filePlace? path = some place) := by
  obtain ⟨-, h⟩ := target_eq_ok.1 h
  split at h
  · cases h
  · rename_i last hlast
    obtain ⟨before, hwalk, hend⟩ := h
    obtain ⟨hdot, hup, rfl⟩ := endAt_eq_entry hend
    refine ⟨by simp, ?_⟩
    intro hslash
    obtain ⟨names, hnames⟩ := List.getLast?_eq_some_iff.1 hlast
    rw [hnames, List.dropLast_concat] at hwalk
    rw [walk_eq_ok hwalk]
    simp [filePlace?, hnames, hdot, hup, hslash, Path.follow, Path.step]

theorem filePlace?_congr (h : d'.current = d.current) : d'.filePlace? = d.filePlace? := by
  funext path
  simp only [filePlace?, start, h]

theorem lastText?_congr {α : Type} (h : d'.current = d.current) :
    @lastText? α d' = @lastText? α d := by
  funext files place
  simp only [lastText?, filePlace?_congr h]

theorem endsInSlash_of_filePlace? {path : String} {place : List String}
    (h : d.filePlace? path = some place) : endsInSlash path = false := by
  unfold filePlace? at h
  split at h
  · cases h
  · split at h
    · cases h
    · simp_all

section Mono

variable (directories : ∀ place, d.at? place = some .directory → d'.at? place = some .directory)
include directories

/-- More directories keep no names from being walked. -/
theorem walk_mono {place place' names : List String} (h : d.walk place names = .ok place') :
    d'.walk place names = .ok place' := by
  induction names generalizing place with
  | nil => exact h
  | cons name names ih =>
    obtain ⟨hpass, hwalk⟩ := walk_cons_eq_ok.1 h
    refine walk_cons_eq_ok.2 ⟨?_, ih hwalk⟩
    exact hpass.imp_right (Or.imp_right (And.imp_right (directories _)))

theorem target_mono (current : d'.current = d.current) {path : String} {t : Target}
    (h : d.target path = .ok t) : d'.target path = .ok t := by
  have hstart : d'.start path = d.start path := by simp only [start, current]
  obtain ⟨hpath, h⟩ := target_eq_ok.1 h
  refine target_eq_ok.2 ⟨hpath, ?_⟩
  rw [hstart]
  split at h
  · exact h
  · obtain ⟨before, hwalk, hend⟩ := h
    exact ⟨before, walk_mono directories hwalk, hend⟩

end Mono

theorem at?_put {place : List String} (hne : place ≠ []) (n : Node) (place' : List String) :
    (d.put place n).at? place' = if place' = place then some n else d.at? place' := by
  unfold at? put
  by_cases hempty : place'.isEmpty = true
  · have hne' : place' ≠ place := by
      intro heq
      rw [heq] at hempty
      exact hne (List.isEmpty_iff.1 hempty)
    simp [hempty, hne']
  · simp [hempty, SortedMap.get?_insert]

end Places

/-! ### One operation after the other -/

section Written

variable {d d' d₁ : Disk}

theorem Written.refl (d : Disk) : d.Written [] d where
  current := rfl
  directories := fun _ h => h
  named := by simp
  texts := by simp [lastText?]
  others := fun _ _ _ => Iff.rfl

theorem lastText?_append {α : Type} (fs gs : List (String × α)) (place : List String) :
    d.lastText? (fs ++ gs) place = (d.lastText? gs place).or (d.lastText? fs place) := by
  simp only [lastText?, List.reverse_append, List.find?_append]
  cases gs.reverse.find? (fun f => decide (d.filePlace? f.1 = some place)) <;> rfl

theorem Written.append {fs gs : List (String × List UInt8)} (h : d.Written fs d₁)
    (h' : d₁.Written gs d') : d.Written (fs ++ gs) d' where
  current := h'.current.trans h.current
  directories := fun place hd => h'.directories place (h.directories place hd)
  named := by
    intro f hf
    rcases List.mem_append.1 hf with hf | hf
    · obtain ⟨place, hplace, htarget⟩ := h.named f hf
      exact ⟨place, hplace, target_mono h'.directories h'.current htarget⟩
    · rw [← filePlace?_congr h.current]
      exact h'.named f hf
  texts := by
    intro place content htext
    rw [lastText?_append, ← lastText?_congr h.current] at htext
    cases hlater : d₁.lastText? gs place with
    | none =>
      rw [hlater, Option.none_or, lastText?_congr h.current] at htext
      exact (h'.others place hlater _).2 (h.texts place content htext)
    | some content' =>
      rw [hlater, Option.some_or] at htext
      cases htext
      exact h'.texts place content hlater
  others := by
    intro place hnone content
    rw [lastText?_append, Option.or_eq_none_iff, ← lastText?_congr h.current] at hnone
    obtain ⟨hlater, hbefore⟩ := hnone
    rw [lastText?_congr h.current] at hbefore
    rw [h'.others place hlater, h.others place hbefore]

theorem Written.makeDirectory {fault : Option Fault} {path : String}
    (h : d.makeDirectory fault path = .ok d') : d.Written [] d' := by
  obtain ⟨t, htarget, h⟩ := bind_eq_ok.1 h
  cases t with
  | directory place => cases h
  | entry place =>
    obtain ⟨hne, -⟩ := target_eq_entry htarget
    dsimp only at h
    split at h
    · cases h
    · rename_i hnone
      split at h
      · cases h
      · cases h
        rw [Bool.not_eq_true, Option.isSome_eq_false_iff, Option.isNone_iff_eq_none] at hnone
        refine ⟨rfl, ?_, by simp, by simp [lastText?], ?_⟩
        · intro place' hd
          rw [at?_put hne]
          split
          · rfl
          · exact hd
        · intro place' _ content
          rw [at?_put hne]
          by_cases hplace : place' = place
          · simp [hplace, hnone]
          · simp [hplace]

theorem Written.ensureDirectory (d : Disk) (fault : Option Fault) (path : String) :
    d.Written [] (d.ensureDirectory fault path).1 := by
  unfold Disk.ensureDirectory
  split
  · rename_i hmade
    exact .makeDirectory hmade
  · split <;> exact .refl d

theorem Written.makeDirectories (d : Disk) (fault : Option Fault) (paths : List String) :
    d.Written [] (d.makeDirectories fault paths).1 := by
  induction paths generalizing d with
  | nil => exact .refl d
  | cons path parents ih =>
    have first := Written.ensureDirectory d fault path
    unfold Disk.makeDirectories
    split
    · rename_i d₁ hensure
      rw [hensure] at first
      have before := first.append (ih d₁)
      split
      · rename_i d₂ hparents
        rw [hparents] at before
        exact before.append (.ensureDirectory d₂ fault path)
      · rename_i d₂ e hparents
        rw [hparents] at before
        exact before
    · exact first

/-- A file that is put where no directory is, is all that changes. -/
theorem Written.put {path : String} {place : List String} {content : List UInt8}
    (htarget : d.target path = .ok (.entry place)) (hslash : endsInSlash path = false)
    (hfree : d.at? place ≠ some .directory) :
    d.Written [(path, content)] (d.put place (.file content)) := by
  obtain ⟨hne, hplace⟩ := target_eq_entry htarget
  have hplace := hplace hslash
  have directories : ∀ place', d.at? place' = some .directory →
      (d.put place (.file content)).at? place' = some .directory := by
    intro place' hd
    rw [at?_put hne, if_neg]
    · exact hd
    · intro heq
      rw [heq] at hd
      exact hfree hd
  have hlast : ∀ place', d.lastText? [(path, content)] place' =
      if place = place' then some content else none := by
    intro place'
    by_cases heq : place = place' <;> simp [lastText?, hplace, heq]
  refine ⟨rfl, directories, ?_, ?_, ?_⟩
  · intro f hf
    obtain rfl := List.mem_singleton.1 hf
    exact ⟨place, hplace, target_mono directories rfl htarget⟩
  · intro place' content' hcontent
    rw [hlast] at hcontent
    split at hcontent
    · rename_i heq
      cases hcontent
      rw [at?_put hne, if_pos heq.symm]
    · cases hcontent
  · intro place' hnone content'
    rw [hlast] at hnone
    split at hnone
    · cases hnone
    · rename_i hother
      rw [at?_put hne, if_neg (Ne.symm hother)]

theorem Written.write {fault : Option Fault} {path text : String}
    {r : Except FileError Unit} (h : d.write fault path (Text.bytes text) = (d', r)) :
    (r = .ok () ∧ d.Written (contents [(path, text)]) d') ∨
      ∃ cause left, r = .error cause ∧ Left fault (path, text) left ∧ d.Written left d' := by
  unfold Disk.write at h
  split at h
  · cases h
    exact .inr ⟨_, _, rfl, .nothing, .refl d⟩
  · cases h
    exact .inr ⟨_, _, rfl, .nothing, .refl d⟩
  · rename_i place htarget
    split at h
    · cases h
      exact .inr ⟨_, _, rfl, .nothing, .refl d⟩
    · rename_i hfree
      simp only [Bool.or_eq_true, beq_iff_eq, not_or, Bool.not_eq_true] at hfree
      obtain ⟨hslash, hfree⟩ := hfree
      split at h
      · cases h
        exact .inr ⟨_, _, rfl, .nothing, .refl d⟩
      · cases h
        exact .inr ⟨_, _, rfl, .part rfl, .put htarget hslash hfree⟩
      · cases h
        exact .inl ⟨rfl, .put htarget hslash hfree⟩
      · cases h
        exact .inl ⟨rfl, .put htarget hslash hfree⟩

/-- An output that is written leaves nothing behind but itself and directories. -/
theorem writeOutput_ok {fault : Option Fault} {path text : String}
    (h : d.writeOutput fault path text = (d', .ok ())) :
    d.Written (contents [(path, text)]) d' := by
  have made := Written.makeDirectories d fault
    (Path.ancestors (((Path.parent? path).getD "").length + 1) ((Path.parent? path).getD ""))
  simp only [writeOutput] at h
  split at h
  · cases h
  · rename_i d₁ hmade
    rw [hmade] at made
    split at h
    · rename_i hwrite
      cases h
      obtain ⟨-, written⟩ | ⟨cause, left, hcause, -⟩ := Written.write hwrite
      · exact made.append written
      · cases hcause
    · cases h

/-- An output that is not written leaves directories behind, and no more of itself than was
written. -/
theorem writeOutput_error {fault : Option Fault} {path text : String} {e : RunError}
    (h : d.writeOutput fault path text = (d', .error e)) :
    ∃ left, Left fault (path, text) left ∧ d.Written left d' ∧ e.Stops path := by
  have made := Written.makeDirectories d fault
    (Path.ancestors (((Path.parent? path).getD "").length + 1) ((Path.parent? path).getD ""))
  simp only [writeOutput] at h
  split at h
  · rename_i d₁ cause hmade
    rw [hmade] at made
    cases h
    exact ⟨[], .nothing, made, .directory cause⟩
  · rename_i d₁ hmade
    rw [hmade] at made
    split at h
    · cases h
    · rename_i cause hwrite
      cases h
      obtain ⟨hcause, -⟩ | ⟨cause, left, -, hleft, written⟩ := Written.write hwrite
      · cases hcause
      · exact ⟨left, hleft, made.append written, .output _⟩

theorem writeOutputs_ok {files : List (String × String)} {faults : Faults}
    (h : d.writeOutputs faults files = (d', .ok ())) : d.Written (contents files) d' := by
  induction files generalizing d faults with
  | nil =>
    cases h
    exact .refl _
  | cons f files ih =>
    simp only [writeOutputs] at h
    split at h
    · rename_i d₁ hfirst
      exact (writeOutput_ok hfirst).append (ih h)
    · rename_i hfailed
      exact (hfailed d' h).elim

/-- Writing stops at the first output that cannot be written, after all that stand before it. -/
theorem writeOutputs_error {files : List (String × String)} {faults : Faults} {e : RunError}
    (h : d.writeOutputs faults files = (d', .error e)) :
    ∃ before f after left, files = before ++ f :: after ∧ Left (faults before.length) f left ∧
      d.Written (contents before ++ left) d' ∧ e.Stops f.1 := by
  induction files generalizing d faults with
  | nil => cases h
  | cons f files ih =>
    simp only [writeOutputs] at h
    split at h
    · rename_i d₁ hfirst
      obtain ⟨before, g, after, left, rfl, hleft, hwritten, hstops⟩ := ih h
      exact ⟨f :: before, g, after, left, rfl, hleft, (writeOutput_ok hfirst).append hwritten,
        hstops⟩
    · obtain ⟨left, hleft, hwritten, hstops⟩ := writeOutput_error h
      exact ⟨[], f, files, left, rfl, hleft, hwritten, hstops⟩

end Written

/-! ### Reading outputs back -/

section Readback

variable {α : Type} {d d' : Disk}

theorem lastText?_eq_some {files : List (String × α)} {place : List String} {text : α}
    (h : d.lastText? files place = some text) :
    ∃ f ∈ files, d.filePlace? f.1 = some place ∧ f.2 = text := by
  obtain ⟨f, hfind, rfl⟩ := Option.map_eq_some_iff.1 h
  exact ⟨f, List.mem_reverse.1 (List.mem_of_find?_eq_some hfind),
    by simpa using List.find?_some hfind, rfl⟩

theorem lastText?_isSome {files : List (String × α)} {f : String × α} (hf : f ∈ files)
    {place : List String} (hplace : d.filePlace? f.1 = some place) :
    ∃ text, d.lastText? files place = some text := by
  rw [← Option.isSome_iff_exists, lastText?, Option.isSome_map, List.find?_isSome]
  exact ⟨f, List.mem_reverse.2 hf, by simpa using hplace⟩

theorem lastText?_contents (files : List (String × String)) (place : List String) :
    d.lastText? (contents files) place = (d.lastText? files place).map Text.bytes := by
  simp only [lastText?, contents, ← List.map_reverse, List.find?_map, Option.map_map,
    Function.comp_def]

theorem SameFile.symm {path path' : String} (h : d.SameFile path path') : d.SameFile path' path := by
  obtain ⟨place, hpath, hpath'⟩ := h
  exact ⟨place, hpath', hpath⟩

/-- The file that a written path names has what was last written to it. -/
theorem Written.read {files : List (String × List UInt8)} (h : d.Written files d')
    {f : String × List UInt8} (hf : f ∈ files) :
    ∃ place content, d.filePlace? f.1 = some place ∧ d.lastText? files place = some content ∧
      d'.read f.1 = .ok content := by
  obtain ⟨place, hplace, htarget⟩ := h.named f hf
  obtain ⟨content, hcontent⟩ := lastText?_isSome hf hplace
  refine ⟨place, content, hplace, hcontent, ?_⟩
  simp [Disk.read, htarget, h.texts place content hcontent, endsInSlash_of_filePlace? hplace, bind,
    Except.bind]

/-- Different files all have what was written to them. -/
theorem Written.reads_of_pairwise {files : List (String × List UInt8)} (h : d.Written files d')
    (distinct : (files.map Prod.fst).Pairwise (fun path path' => ¬ d.SameFile path path')) :
    ∀ f ∈ files, d'.read f.1 = .ok f.2 := by
  rw [List.pairwise_map] at distinct
  have agree : files.Pairwise (fun f g => d.SameFile f.1 g.1 → f.2 = g.2) :=
    distinct.imp (fun hne hsame => (hne hsame).elim)
  have agree' : files.Pairwise (fun f g => d.SameFile g.1 f.1 → g.2 = f.2) :=
    distinct.imp (fun hne hsame => (hne hsame.symm).elim)
  intro f hf
  obtain ⟨place, content, hplace, hcontent, hread⟩ := h.read hf
  obtain ⟨g, hg, hgplace, rfl⟩ := lastText?_eq_some hcontent
  rw [hread, agree.forall_of_forall_of_flip (fun _ _ _ => rfl) agree' hf hg ⟨place, hplace, hgplace⟩]

theorem readText_of_read {path text : String} (h : d.read path = .ok (Text.bytes text)) :
    d.readText path = .ok text := by
  simp [readText, h, Text.ofBytes?_bytes, bind, Except.bind]

variable {files : List (String × String)}

/-- The file that a written output names has the text of the last output that names it. -/
theorem Written.readText (h : d.Written (contents files) d') {f : String × String}
    (hf : f ∈ files) :
    ∃ place text, d.filePlace? f.1 = some place ∧ d.lastText? files place = some text ∧
      d'.readText f.1 = .ok text := by
  obtain ⟨place, content, hplace, hcontent, hread⟩ := h.read (List.mem_map_of_mem hf)
  rw [lastText?_contents] at hcontent
  obtain ⟨text, htext, rfl⟩ := Option.map_eq_some_iff.1 hcontent
  exact ⟨place, text, hplace, htext, readText_of_read hread⟩

/-- Every output reads back as itself when no two for one file differ, and only then. -/
theorem Written.reads_iff (h : d.Written (contents files) d') :
    (∀ f ∈ files, d'.readText f.1 = .ok f.2) ↔
      ∀ f ∈ files, ∀ g ∈ files, d.SameFile f.1 g.1 → f.2 = g.2 := by
  constructor
  · intro hreads f hf g hg hsame
    obtain ⟨place, hfplace, hgplace⟩ := hsame
    obtain ⟨place₁, text₁, hplace₁, htext₁, hread₁⟩ := h.readText hf
    obtain ⟨place₂, text₂, hplace₂, htext₂, hread₂⟩ := h.readText hg
    cases hfplace.symm.trans hplace₁
    cases hgplace.symm.trans hplace₂
    cases htext₁.symm.trans htext₂
    exact Except.ok.inj ((hreads f hf).symm.trans (hread₁.trans (hread₂.symm.trans (hreads g hg))))
  · intro hagree f hf
    obtain ⟨place, text, hplace, htext, hread⟩ := h.readText hf
    obtain ⟨g, hg, hgplace, rfl⟩ := lastText?_eq_some htext
    rw [hread, hagree f hf g hg ⟨place, hplace, hgplace⟩]

end Readback

end Disk

end AtomLog
