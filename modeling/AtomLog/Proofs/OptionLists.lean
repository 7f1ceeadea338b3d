import AtomLog.Proofs.Rearrangement
/-!
What a list of options says, by what its parts say.

Main statement: the reading of two lists in a row is merged from the readings of both, options that
mean nothing at their place may be left out, and the spelling, the order and the number of the
others do not matter, except that of several log modes the last counts (`Registry.read_merges`).
-/
namespace AtomLog

/-- The elements of two sets. -/
def SortedSet.union {α : Type} [Ord α] [Std.TransOrd α] (s t : SortedSet α) : SortedSet α :=
  t.toList.foldl insert s

theorem SortedSet.mem_union {α : Type} [Ord α] [Std.TransOrd α] [Std.LawfulEqOrd α]
    (s t : SortedSet α) (x : α) : x ∈ s.union t ↔ x ∈ s ∨ x ∈ t := by
  have hinsert : ∀ (s : SortedSet α) (y : α), x ∈ s.insert y ↔ x ∈ s ∨ x = y := by
    intro s y
    rw [mem_insert, or_comm]
  refine (foldl_gathers (fun s => x ∈ s) hinsert t.toList s).trans ?_
  simp [mem_toList]

theorem SortedSet.insert_ne_empty {α : Type} [Ord α] [Std.TransOrd α] [Std.LawfulEqOrd α]
    (s : SortedSet α) (x : α) : s.insert x ≠ ∅ := by
  intro h
  have hx : x ∈ s.insert x := (mem_insert s x x).2 (.inl rfl)
  rw [h] at hx
  exact not_mem_empty x hx

/-- What two lists of options say of a field. -/
def FieldOptions.merge (o p : FieldOptions) : FieldOptions where
  annotations := o.annotations.union p.annotations
  attributionTag := o.attributionTag || p.attributionTag
  logMode := p.logMode.or o.logMode

/-- What two lists of options say of an atom. -/
def AtomOptions.merge (o p : AtomOptions) : AtomOptions where
  annotations := o.annotations.union p.annotations
  modules := o.modules.union p.modules
  allowFromAnyUid := o.allowFromAnyUid || p.allowFromAnyUid

/-- Whether two lists of options can stand for each other, whatever stands around them. -/
def Interchangeable {σ : Type} (read : List RawOption → σ) (os os' : List RawOption) : Prop :=
  ∀ xs ys, read (xs ++ os ++ ys) = read (xs ++ os' ++ ys)

/-- Whether values of a kind serve an option with a target at a place. -/
def OptionTarget.serves : OptionTarget → OptionScope → ValueKind → Bool
  | .annotate _, _, .bool | .annotate _, _, .int => true
  | .attributionTag, .field, .bool | .logMode, .field, .int => true
  | .allowFromAnyUid, .atom, .bool | .module, .atom, .str => true
  | _, _, _ => false

namespace Registry

/-- The options that mean nothing at a place: unknown ones, those of the other place, values of
another kind, false marks, numbers beyond 32 bits, and options that are known for a target which
values of their kind do not serve. -/
inductive Ignores (r : Registry) (scope : OptionScope) (o : RawOption) : Prop
  | unknown (h : r.find? o.key = none)
  | elsewhere {known} (h : r.find? o.key = some known) (other : known.scope ≠ scope)
  | mistyped {known} (h : r.find? o.key = some known) (other : known.kind ≠ o.value.kind)
  | unmarked (h : o.value = .bool false)
  | beyond {known id n} (h : r.find? o.key = some known) (annotates : known.target = .annotate id)
    (number : o.value = .int n) (out : n < -2147483648 ∨ 2147483647 < n)
  | useless {known} (h : r.find? o.key = some known)
    (useless : known.target.serves scope known.kind = false)

/-- Two options with one value, whose keys stand for options that differ in their names and numbers
alone. -/
def Alike (r : Registry) (o o' : RawOption) : Prop :=
  o.value = o'.value ∧ ∃ known known', r.find? o.key = some known ∧ r.find? o'.key = some known' ∧
    known.scope = known'.scope ∧ known.kind = known'.kind ∧ known.target = known'.target

/-- Whether an option sets the log mode of a field. -/
def SetsMode (r : Registry) (o : RawOption) (mode : Int) : Prop :=
  ∃ known, r.find? o.key = some known ∧ known.scope = .field ∧ known.kind = .int ∧
    known.target = .logMode ∧ o.value = .int mode

end Registry

/-! ### What one option means -/

/-- Whether a meaning counts at a place. -/
def Meaning.countsAt : Meaning → OptionScope → Bool
  | .annotate _, _ => true
  | .attributionTag, .field | .logMode _, .field => true
  | .module _, .atom | .allowFromAnyUid, .atom => true
  | _, _ => false

theorem Bits.isSigned_32_iff {n : Int} :
    isSigned 32 n = true ↔ ¬(n < -2147483648 ∨ 2147483647 < n) := by
  have hvalues : values (32 - 1) = 2147483648 := rfl
  simp only [isSigned, hvalues, Bool.and_eq_true, decide_eq_true_eq]
  omega

/-- What a value means for a target counts at a place just when its kind serves the target there
and it is neither a false mark nor a number out of range. -/
theorem OptionTarget.exists_counting_iff (t : OptionTarget) (scope : OptionScope)
    (value : OptionValue) : (∃ m, t.meaning? value = some m ∧ m.countsAt scope = true) ↔
      t.serves scope value.kind = true ∧ value ≠ .bool false ∧
        ∀ id n, t = .annotate id → value = .int n → ¬(n < -2147483648 ∨ 2147483647 < n) := by
  cases value with
  | bool b =>
    cases b <;> cases t <;> cases scope <;>
      simp [meaning?, serves, OptionValue.kind, Meaning.countsAt]
  | int n =>
    cases t with
    | annotate id =>
      have hrange : (∃ m, (annotate id).meaning? (.int n) = some m ∧ m.countsAt scope = true) ↔
          Bits.isSigned 32 n = true := by
        by_cases h : Bits.isSigned 32 n = true <;> simp [meaning?, Meaning.countsAt, h]
      rw [hrange, Bits.isSigned_32_iff]
      simp [serves, OptionValue.kind]
    | _ => cases scope <;> simp [meaning?, serves, OptionValue.kind, Meaning.countsAt]
  | str s =>
    cases t <;> cases scope <;> simp [meaning?, serves, OptionValue.kind, Meaning.countsAt]

namespace Registry

variable {r : Registry}

theorem ignores_iff (scope : OptionScope) (o : RawOption) :
    r.Ignores scope o ↔ ∀ m, r.meaning? scope o = some m → m.countsAt scope = false := by
  constructor
  · intro h m hm
    obtain ⟨known, hfind, hscope, hkind, hmeaning⟩ := meaning?_eq_some.1 hm
    refine Bool.eq_false_iff.2 (fun hcounts => ?_)
    obtain ⟨hserves, hmark, hrange⟩ :=
      (OptionTarget.exists_counting_iff known.target scope o.value).1 ⟨m, hmeaning, hcounts⟩
    cases h with
    | unknown h => simp [h] at hfind
    | elsewhere h other =>
      obtain rfl := Option.some.inj (hfind.symm.trans h)
      exact other hscope
    | mistyped h other =>
      obtain rfl := Option.some.inj (hfind.symm.trans h)
      exact other hkind
    | unmarked h => exact hmark h
    | beyond h annotates number out =>
      obtain rfl := Option.some.inj (hfind.symm.trans h)
      exact hrange _ _ annotates number out
    | useless h useless =>
      obtain rfl := Option.some.inj (hfind.symm.trans h)
      rw [hkind, hserves] at useless
      cases useless
  · intro h
    cases hfind : r.find? o.key with
    | none => exact .unknown hfind
    | some known =>
      by_cases hscope : known.scope = scope
      swap
      · exact .elsewhere hfind hscope
      by_cases hkind : known.kind = o.value.kind
      swap
      · exact .mistyped hfind hkind
      by_cases hmark : o.value = .bool false
      · exact .unmarked hmark
      by_cases hserves : known.target.serves scope known.kind = true
      swap
      · exact .useless hfind (Bool.eq_false_iff.2 hserves)
      -- the option would count, if its number were not out of range
      have hrange : ∃ id n, known.target = .annotate id ∧ o.value = .int n ∧
          (n < -2147483648 ∨ 2147483647 < n) := by
        by_contra hnone
        obtain ⟨m, hm, hcounts⟩ := (OptionTarget.exists_counting_iff known.target scope o.value).2
          ⟨hkind ▸ hserves, hmark, fun id n htarget hn hout => hnone ⟨id, n, htarget, hn, hout⟩⟩
        rw [h m (meaning?_eq_some.2 ⟨known, hfind, hscope, hkind, hm⟩)] at hcounts
        cases hcounts
      obtain ⟨id, n, htarget, hn, hout⟩ := hrange
      exact .beyond hfind htarget hn hout

theorem Alike.meaning?_eq {o o' : RawOption} (h : r.Alike o o') (scope : OptionScope) :
    r.meaning? scope o = r.meaning? scope o' := by
  obtain ⟨hvalue, known, known', hfind, hfind', hscope, hkind, htarget⟩ := h
  simp only [meaning?, hfind, hfind', hvalue, hscope, hkind, htarget]

theorem meaning?_eq_logMode {o : RawOption} {mode : Int} :
    r.meaning? .field o = some (.logMode mode) ↔ r.SetsMode o mode := by
  simp only [meaning?_eq_some, OptionTarget.meaning?_eq_logMode]
  constructor
  · intro h
    obtain ⟨known, hfind, hscope, hkind, htarget, hvalue⟩ := h
    exact ⟨known, hfind, hscope, by rw [hkind, hvalue]; rfl, htarget, hvalue⟩
  · intro h
    obtain ⟨known, hfind, hscope, hkind, htarget, hvalue⟩ := h
    exact ⟨known, hfind, hscope, by rw [hkind, hvalue]; rfl, htarget, hvalue⟩

/-- The log mode that an option sets. -/
def setMode? (r : Registry) (o : RawOption) : Option Int :=
  match r.meaning? .field o with
  | some (.logMode mode) => some mode
  | _ => none

theorem setMode?_eq_some {o : RawOption} {mode : Int} :
    r.setMode? o = some mode ↔ r.SetsMode o mode := by
  rw [← meaning?_eq_logMode, setMode?]
  split <;> simp_all

/-- Only two keys stand for the log mode, and neither has a dot. -/
theorem key_of_setMode? {o : RawOption} {mode : Int}
    (h : standard.setMode? o = some mode) :
    o.key = .number 50002 ∨ o.key = .name "log_mode" := by
  have hstandard : ∀ known ∈ standard.options, known.target = .logMode →
      known.number = 50002 ∧ known.field = none ∧ known.name = "log_mode" := by decide
  obtain ⟨known, hfind, -, -, htarget, -⟩ := setMode?_eq_some.1 h
  obtain ⟨hnumber, hfield, hname⟩ := hstandard known (List.mem_of_find?_eq_some hfind) htarget
  have hkey := List.find?_some hfind
  cases hk : o.key with
  | number n =>
    obtain rfl : 50002 = n := by simpa [hk, KnownOption.hasKey, hnumber, hfield] using hkey
    exact .inl rfl
  | nested e f => simp [hk, KnownOption.hasKey, hfield] at hkey
  | name name =>
    obtain rfl : "log_mode" = name := by simpa [hk, KnownOption.hasKey, hname] using hkey
    exact .inr rfl

end Registry

/-! ### Lists of options -/

theorem logModes_eq (r : Registry) (os : List RawOption) :
    logModes r os = os.filterMap r.setMode? := by
  rw [logModes, List.filterMap_filterMap]
  congr 1
  funext o
  rw [Registry.setMode?]
  cases r.meaning? .field o with
  | none => rfl
  | some m => cases m <;> rfl

/-- Where readings are merged, lists that are read alike can stand for each other. -/
theorem interchangeable_iff {σ : Type} {read : List RawOption → σ} {merge : σ → σ → σ}
    (append : ∀ xs ys, read (xs ++ ys) = merge (read xs) (read ys)) (os os' : List RawOption) :
    Interchangeable read os os' ↔ read os = read os' := by
  constructor
  · intro h
    simpa using h [] []
  · intro h xs ys
    rw [append, append, append, append, h]

namespace FieldOptions

variable {r : Registry}

theorem ext_mem {o p : FieldOptions} (annotations : ∀ n, n ∈ o.annotations ↔ n ∈ p.annotations)
    (tag : o.attributionTag = true ↔ p.attributionTag = true) (mode : o.logMode = p.logMode) :
    o = p := by
  have hannotations := SortedSet.ext_mem annotations
  have htag := Bool.eq_iff_iff.2 tag
  cases o
  cases p
  simp_all

theorem attributionTag_read {os : List RawOption} : (read r os).attributionTag = true ↔
    ∃ o ∈ os, r.meaning? .field o = some .attributionTag := by
  rw [read, attributionTag_foldl, List.mem_filterMap]
  simp

theorem logMode_read (os : List RawOption) : (read r os).logMode = (logModes r os).getLast? := by
  rw [read, logMode_foldl]
  exact Option.or_none

theorem read_append (xs ys : List RawOption) :
    read r (xs ++ ys) = (read r xs).merge (read r ys) := by
  apply ext_mem
  · intro n
    simp only [merge, SortedSet.mem_union, mem_read, List.mem_append, or_and_right, exists_or]
  · simp only [merge, Bool.or_eq_true, attributionTag_read, List.mem_append, or_and_right,
      exists_or]
  · simp only [merge, logMode_read, logModes, List.filterMap_append, List.getLast?_append]

theorem read_singleton_iff (o : RawOption) : read r [o] = read r [] ↔ r.Ignores .field o := by
  rw [Registry.ignores_iff]
  cases hm : r.meaning? .field o with
  | none => simp [read, hm]
  | some m =>
    have hread : read r [o] = ({} : FieldOptions).add m := by simp [read, hm]
    have hnone : read r [] = {} := rfl
    rw [hread, hnone]
    cases m <;> simp [add, Meaning.countsAt, SortedSet.insert_ne_empty]

/-- Of a field it matters which options there are and which log mode counts, but neither the order
nor the number of the others. -/
theorem read_of_mem_iff {xs ys : List RawOption} (same : ∀ o, o ∈ xs ↔ o ∈ ys) :
    read r ys = { read r xs with logMode := (read r ys).logMode } := by
  apply ext_mem
  · intro n
    simp only [mem_read, same]
  · simp only [attributionTag_read, same]
  · rfl

/-- Of the options that set a log mode the last counts. -/
theorem logMode_read_eq_some {os : List RawOption} {mode : Int} :
    (read r os).logMode = some mode ↔ ∃ xs o ys, os = xs ++ o :: ys ∧ r.SetsMode o mode ∧
      ∀ p ∈ ys, ∀ other, ¬r.SetsMode p other := by
  rw [logMode_read, logModes_eq, getLast?_filterMap_eq_some]
  simp only [Option.eq_none_iff_forall_ne_some, ne_eq, Registry.setMode?_eq_some]

end FieldOptions

namespace AtomOptions

variable {r : Registry}

theorem ext_mem {o p : AtomOptions} (annotations : ∀ n, n ∈ o.annotations ↔ n ∈ p.annotations)
    (modules : ∀ m, m ∈ o.modules ↔ m ∈ p.modules)
    (allow : o.allowFromAnyUid = true ↔ p.allowFromAnyUid = true) : o = p := by
  have hannotations := SortedSet.ext_mem annotations
  have hmodules := SortedSet.ext_mem modules
  have hallow := Bool.eq_iff_iff.2 allow
  cases o
  cases p
  simp_all

theorem mem_modules_read {os : List RawOption} {name : String} :
    name ∈ (read r os).modules ↔ ∃ o ∈ os, r.meaning? .atom o = some (.module name) := by
  have hadd : ∀ (o : AtomOptions) (m : Meaning),
      name ∈ (o.add m).modules ↔ name ∈ o.modules ∨ Meaning.module name = m := by
    intro o m
    cases m <;> simp [add, SortedSet.mem_insert, or_comm]
  refine (foldl_gathers (fun o : AtomOptions => name ∈ o.modules) hadd _ _).trans ?_
  simp [List.mem_filterMap]

theorem allowFromAnyUid_read {os : List RawOption} : (read r os).allowFromAnyUid = true ↔
    ∃ o ∈ os, r.meaning? .atom o = some .allowFromAnyUid := by
  have hadd : ∀ (o : AtomOptions) (m : Meaning),
      (o.add m).allowFromAnyUid = true ↔
        o.allowFromAnyUid = true ∨ Meaning.allowFromAnyUid = m := by
    intro o m
    cases m <;> simp [add]
  refine (foldl_gathers (fun o : AtomOptions => o.allowFromAnyUid = true) hadd _ _).trans ?_
  simp [List.mem_filterMap]

theorem read_append (xs ys : List RawOption) :
    read r (xs ++ ys) = (read r xs).merge (read r ys) := by
  apply ext_mem
  · intro n
    simp only [merge, SortedSet.mem_union, mem_read, List.mem_append, or_and_right, exists_or]
  · intro name
    simp only [merge, SortedSet.mem_union, mem_modules_read, List.mem_append, or_and_right,
      exists_or]
  · simp only [merge, Bool.or_eq_true, allowFromAnyUid_read, List.mem_append, or_and_right,
      exists_or]

theorem read_singleton_iff (o : RawOption) : read r [o] = read r [] ↔ r.Ignores .atom o := by
  rw [Registry.ignores_iff]
  cases hm : r.meaning? .atom o with
  | none => simp [read, hm]
  | some m =>
    have hread : read r [o] = ({} : AtomOptions).add m := by simp [read, hm]
    have hnone : read r [] = {} := rfl
    rw [hread, hnone]
    cases m <;> simp [add, Meaning.countsAt, SortedSet.insert_ne_empty]

theorem read_of_mem_iff {xs ys : List RawOption} (same : ∀ o, o ∈ xs ↔ o ∈ ys) :
    read r xs = read r ys := by
  apply ext_mem
  · intro n
    simp only [mem_read, same]
  · intro name
    simp only [mem_modules_read, same]
  · simp only [allowFromAnyUid_read, same]

end AtomOptions

namespace Registry

/-- Options are read part by part. What is ignored at a place may be left out there and options that
are alike may stand for each other; beyond that it matters which options there are, but neither
their order nor their number, except that the last option that sets a log mode counts. -/
theorem read_merges (r : Registry) :
    (∀ xs ys, FieldOptions.read r (xs ++ ys) =
      (FieldOptions.read r xs).merge (FieldOptions.read r ys)) ∧
    (∀ xs ys, AtomOptions.read r (xs ++ ys) =
      (AtomOptions.read r xs).merge (AtomOptions.read r ys)) ∧
    (∀ o, Interchangeable (FieldOptions.read r) [o] [] ↔ r.Ignores .field o) ∧
    (∀ o, Interchangeable (AtomOptions.read r) [o] [] ↔ r.Ignores .atom o) ∧
    (∀ o o', r.Alike o o' → Interchangeable (FieldOptions.read r) [o] [o'] ∧
      Interchangeable (AtomOptions.read r) [o] [o']) ∧
    (∀ xs ys, (∀ o, o ∈ xs ↔ o ∈ ys) → AtomOptions.read r xs = AtomOptions.read r ys ∧
      FieldOptions.read r ys = { FieldOptions.read r xs with
        logMode := (FieldOptions.read r ys).logMode }) ∧
    (∀ os mode, (FieldOptions.read r os).logMode = some mode ↔
      ∃ xs o ys, os = xs ++ o :: ys ∧ r.SetsMode o mode ∧
        ∀ p ∈ ys, ∀ other, ¬r.SetsMode p other) := by
  refine ⟨FieldOptions.read_append, AtomOptions.read_append, ?_, ?_, ?_, ?_,
    fun _ _ => FieldOptions.logMode_read_eq_some⟩
  · intro o
    rw [interchangeable_iff FieldOptions.read_append, FieldOptions.read_singleton_iff]
  · intro o
    rw [interchangeable_iff AtomOptions.read_append, AtomOptions.read_singleton_iff]
  · intro o o' h
    rw [interchangeable_iff FieldOptions.read_append, interchangeable_iff AtomOptions.read_append]
    simp only [FieldOptions.read, AtomOptions.read, List.filterMap_cons, h.meaning?_eq, and_self]
  · intro xs ys same
    exact ⟨AtomOptions.read_of_mem_iff same, FieldOptions.read_of_mem_iff same⟩

/-- A state default may be given by name or as a field of the state options, and a module twice or
once, before a mark or after it. -/
theorem read_merges_default :
    let flat : RawOption := ⟨.name "state_field_default", .int 0⟩
    let nested : RawOption := ⟨.nested 50000 4, .int 0⟩
    let home : RawOption := ⟨.number 500004, .str "home"⟩
    let any : RawOption := ⟨.name "allow_from_any_uid", .bool true⟩
    standard.Alike nested flat ∧ Interchangeable (FieldOptions.read standard) [nested] [flat] ∧
      (∀ o, o ∈ [home, any, home] ↔ o ∈ [any, home]) ∧
      AtomOptions.read standard [home, any, home] = AtomOptions.read standard [any, home] := by
  intro flat nested home any
  obtain ⟨-, -, -, -, alike, same, -⟩ := read_merges standard
  have hspelled : standard.Alike nested flat := ⟨rfl, _, _, rfl, rfl, rfl, rfl, rfl⟩
  have hmembers : ∀ o, o ∈ [home, any, home] ↔ o ∈ [any, home] := by
    intro o
    simp only [List.mem_cons, List.not_mem_nil, or_false]
    tauto
  exact ⟨hspelled, (alike nested flat hspelled).1, hmembers, (same _ _ hmembers).1⟩

end Registry

end AtomLog
