import AtomLog.Proofs.FlatCalls
/-!
What the flat functions hand over to.

Each output leaves out what its language cannot express, and asks that of a flat signature, of the
signature with a chain, and of an atom with its enums. Main statement: the answers coincide, so what
a flat function calls is there, and so are the classes that it names (`flat_delegates`).
-/
namespace AtomLog

namespace Signature

/-- A uid and a tag before other types. -/
def flat (ts : List FieldType) : Signature := ⟨.int32 :: .string :: ts⟩

/-- A chain before other types. -/
def withChain (ts : List FieldType) : Signature := ⟨.attributionChain :: ts⟩

theorem flat_injective {ts us : List FieldType} (h : flat ts = flat us) : ts = us := by
  injection h with h
  injection h with _ h
  injection h

end Signature

namespace Atom.Flat

variable {a : Atom} {uid tag : AtomField} {rest : List AtomField} (flat : a.Flat uid tag rest)
include flat

theorem signature_eq : a.signature = .flat (wireTypes rest) :=
  congrArg Signature.mk flat.signature_types

theorem chained_signature_eq : a.chained.signature = .withChain (wireTypes rest) :=
  congrArg Signature.mk flat.chained_signature_types

end Atom.Flat

namespace Collation

section SelectAll

variable {r : Registry} {s : Schema} {sels : List Selection} {c : Catalog}
  (selected : sels.foldlM Catalog.select (collate r s).catalog = .ok c)
include selected

/-- Under a flat signature stand atoms that begin with a uid and a tag. -/
theorem flat_of_holds {sig : Signature} {code : Int} (held : c.nonChained.Holds sig code) :
    ∃ a uid tag rest, c.get? code = some a ∧ a.Flat uid tag rest ∧
      sig = .flat (wireTypes rest) := by
  obtain ⟨a, found, hflat, rfl⟩ := ((describes_of_selectAll selected).holds_flat_iff sig code).1 held
  obtain ⟨e, -, he⟩ := exists_entry_of_selectAll selected found
  obtain ⟨uid, tag, rest, flat⟩ := collateEntry_flat he hflat
  exact ⟨a, uid, tag, rest, found, flat, flat.signature_eq⟩

/-- An atom under a flat signature stands under the signature with a chain as well. -/
theorem pushed_holds_of_flat {ts : List FieldType} {code : Int}
    (held : c.nonChained.Holds (.flat ts) code) : c.pushed.Holds (.withChain ts) code := by
  obtain ⟨a, uid, tag, rest, found, flat, hsig⟩ := flat_of_holds selected held
  obtain rfl := Signature.flat_injective hsig
  exact ((describes_of_selectAll selected).holds_ofKind_iff .pushed _ code).2
    ⟨a, found, flat.pushed, flat.chained_signature_eq⟩

/-- The bucket of a flat signature is part of the bucket with a chain. -/
theorem exists_pushed_bucket {sig : Signature} {b : Bucket}
    (hb : c.nonChained.get? sig = some b) :
    ∃ ts b', sig = .flat ts ∧ c.pushed.get? (.withChain ts) = some b' ∧
      ∀ code ∈ b.codes, code ∈ b'.codes := by
  have describes := describes_of_selectAll selected
  obtain ⟨code, hcode⟩ := SortedSet.isEmpty_eq_false_iff.1 (describes.flat.inhabited sig b hb)
  obtain ⟨a, uid, tag, rest, -, -, rfl⟩ := flat_of_holds selected ⟨b, hb, hcode⟩
  obtain ⟨b', hb', -⟩ := pushed_holds_of_flat selected ⟨b, hb, hcode⟩
  refine ⟨_, b', rfl, hb', ?_⟩
  intro code hcode
  obtain ⟨b'', hb'', hcode'⟩ := pushed_holds_of_flat selected ⟨b, hb, hcode⟩
  rw [hb'] at hb''
  cases hb''
  exact hcode'

end SelectAll

end Collation

namespace Emit

/-- The languages of the outputs. -/
def languages : List Target := [Native.target, Java.target, Rust.target]

/-- A language that takes an enum for its number, and has chains and what stands for one. -/
structure Target.Uniform (t : Target) : Prop where
  wire : ∀ type, t.supports type.wire = t.supports type
  chain : t.supports .attributionChain = true
  uid : t.supports .int32 = true
  tag : t.supports .string = true

theorem uniform_of_mem_languages {t : Target} (h : t ∈ languages) : t.Uniform := by
  simp only [languages, List.mem_cons, List.not_mem_nil, or_false] at h
  rcases h with rfl | rfl | rfl
  · exact ⟨Native.supports_wire, rfl, rfl, rfl⟩
  · exact ⟨Java.supports_wire, rfl, rfl, rfl⟩
  · exact ⟨Rust.supports_wire, rfl, rfl, rfl⟩

namespace Target.Uniform

variable {t : Target} (uniform : t.Uniform)
include uniform

theorem supportsAtom_eq (a : Atom) : t.supportsAtom a = t.supportsSignature a.signature :=
  (supportsSignature_eq uniform.wire a).symm

/-- A chain is no obstacle, and neither are a uid and a tag. -/
theorem supportsSignature_flat (ts : List FieldType) :
    t.supportsSignature (.flat ts) = t.supportsSignature (.withChain ts) := by
  simp only [supportsSignature, Signature.flat, Signature.withChain, List.all_cons, uniform.uid,
    uniform.tag, uniform.chain, Bool.true_and]

theorem supportsSignature_chained {a : Atom}
    (flat : a.nonChained = true → ∃ uid tag rest, a.Flat uid tag rest) :
    t.supportsSignature a.signature = t.supportsSignature a.chained.signature := by
  cases hflat : a.nonChained with
  | false => simp [Atom.chained, hflat]
  | true =>
    obtain ⟨uid, tag, rest, flat⟩ := flat hflat
    rw [flat.signature_eq, flat.chained_signature_eq]
    exact uniform.supportsSignature_flat _

end Target.Uniform

namespace Java

/-- The lines that import the maps of key-value pairs. -/
def pairImports : List String :=
  ["import android.util.SparseArray;", "import android.util.SparseIntArray;",
    "import android.util.SparseLongArray;"]

/-- Maps are arguments for key-value pairs alone. -/
theorem eq_keyValuePairs_of_param {ctx : Context} {i : Nat} {t : FieldType} {p : Param}
    (hp : p ∈ argParams ctx i t) (map : p.type ∈ pairMaps.map Prod.fst) : t = .keyValuePairs := by
  cases t with
  | keyValuePairs => rfl
  | attributionChain =>
    simp only [argParams, List.mem_cons, List.not_mem_nil, or_false] at hp
    rcases hp with rfl | rfl <;> simp [pairMaps] at map
  | _ =>
    simp only [argParams, List.mem_singleton] at hp
    subst hp
    simp [pairMaps, type?] at map

theorem keyValuePairs_mem_of_param {ctx : Context} {s : Signature} {p : Param}
    (hp : p ∈ params ctx s) (map : p.type ∈ pairMaps.map Prod.fst) :
    .keyValuePairs ∈ s.types := by
  rcases List.mem_cons.1 hp with rfl | hp
  · exact absurd map (by decide)
  · obtain ⟨⟨t, i⟩, hmem, hp⟩ := List.mem_flatMap.1 hp
    obtain rfl := eq_keyValuePairs_of_param hp map
    exact List.fst_mem_of_mem_zipIdx hmem

/-- A method for key-value pairs comes with the imports. -/
theorem mem_classLines_of_pairs {ctx : Context} {kind : AtomKind} {s : Signature} {b : Bucket}
    (h : (s, b) ∈ overloads ctx kind) (pairs : .keyValuePairs ∈ s.types) (o : Options)
    {line : String} (hline : line ∈ pairImports) : line ∈ classLines ctx o := by
  have huses : usesPairs ctx = true := by
    refine List.any_eq_true.2 ⟨(s, b), ?_, List.contains_iff_mem.2 pairs⟩
    cases kind with
    | pushed => exact List.mem_append_left _ h
    | pulled => exact List.mem_append_right _ h
  have himport : line ∈ importLines ctx := by
    rw [importLines, if_pos huses]
    exact List.mem_append_right _ hline
  unfold classLines
  iterate 7 apply List.mem_append_left
  exact List.mem_append_right _ himport

end Java

/-- Every flat signature has its atoms under a signature with a chain too, which each language has
functions of just when it has flat ones. Each language can express an atom just when it can its
signature, flat or with a chain. So the maps that a flat Java method takes are imported, though the
imports ask for methods with a chain alone. -/
theorem flat_delegates {r : Registry} {s : Schema} {sels : List Selection} {c : Catalog}
    (selected : sels.foldlM Catalog.select (Collation.collate r s).catalog = .ok c) :
    (∀ sig b, c.nonChained.get? sig = some b →
      ∃ ts b', sig = .flat ts ∧ c.pushed.get? (.withChain ts) = some b' ∧
        (∀ code ∈ b.codes, code ∈ b'.codes) ∧
        ∀ t ∈ languages, t.supportsSignature (.flat ts) = true ↔
          t.supportsSignature (.withChain ts) = true) ∧
    (∀ code a, c.get? code = some a → ∀ t ∈ languages,
      (t.supportsAtom a = true ↔ t.supportsSignature a.signature = true) ∧
      (t.supportsSignature a.signature = true ↔ t.supportsSignature a.chained.signature = true)) ∧
    ∀ (node : Atom) (sel : Selection) (o : Java.Options) (sig : Signature) (b : Bucket) (p : Param),
      (sig, b) ∈ Java.nonChained ⟨c, node, sel⟩ → p ∈ Java.params ⟨c, node, sel⟩ sig →
      p.type ∈ Java.pairMaps.map Prod.fst →
      ∀ line ∈ Java.pairImports, line ∈ Java.classLines ⟨c, node, sel⟩ o := by
  refine ⟨?_, ?_, ?_⟩
  · intro sig b hb
    obtain ⟨ts, b', rfl, hb', hcodes⟩ := Collation.exists_pushed_bucket selected hb
    refine ⟨ts, b', rfl, hb', hcodes, ?_⟩
    intro t ht
    rw [(uniform_of_mem_languages ht).supportsSignature_flat]
  · intro code a found t ht
    obtain ⟨e, -, he⟩ := Collation.exists_entry_of_selectAll selected found
    have uniform := uniform_of_mem_languages ht
    rw [uniform.supportsAtom_eq, uniform.supportsSignature_chained (Collation.collateEntry_flat he)]
    exact ⟨Iff.rfl, Iff.rfl⟩
  · intro node sel o sig b p hsig hp map line hline
    obtain ⟨hb, hsupports⟩ := Target.mem_supported.1 hsig
    obtain ⟨ts, b', rfl, hb', -⟩ := Collation.exists_pushed_bucket selected hb
    have hjava : Java.target ∈ languages := by simp [languages]
    rw [(uniform_of_mem_languages hjava).supportsSignature_flat] at hsupports
    have hpushed : (Signature.withChain ts, b') ∈ Java.overloads ⟨c, node, sel⟩ .pushed :=
      Target.mem_supported.2 ⟨hb', hsupports⟩
    have hpairs : .keyValuePairs ∈ (Signature.withChain ts).types := by
      have hmem := Java.keyValuePairs_mem_of_param hp map
      simpa [Signature.flat, Signature.withChain] using hmem
    exact Java.mem_classLines_of_pairs hpushed hpairs o hline

/-- A parcel with contents that only Java can express. -/
def parcelMessage : Message where
  name := "Parcel"
  fields :=
    [{ name := "uid", number := 1, kind := .int32, options := [⟨.number 50001, .bool true⟩] },
      { name := "tag", number := 2, kind := .string, options := [⟨.number 50016, .bool true⟩] },
      { name := "contents", number := 3, kind := .message, messageType := some "KeyValuePair" }]

def parcelEntry : Entry where
  name := "parcel"
  code := 60
  message := "Parcel"

def parcelSchema : Schema where
  container := "Atom"
  entries := [parcelEntry]
  messages := .ofList [("Parcel", parcelMessage)]

def parcelContext : Context :=
  let c := Collation.collate .standard parcelSchema
  ⟨c.catalog, c.attribution, .all⟩

theorem parcel_collated : ∃ a, parcelContext.catalog.get? 60 = some a ∧ a.nonChained = true ∧
    a.signature = .flat [.keyValuePairs] := by
  have hm : parcelSchema.message? parcelEntry.message = some parcelMessage := by decide +kernel
  obtain ⟨-, a, hcolumns, get?_iff⟩ := Collation.collate_of_fields .standard parcelSchema rfl hm
    (by decide) rfl (p := fun a => a.nonChained = true ∧ a.signature = .flat [.keyValuePairs])
    (by decide +kernel)
  exact ⟨a, (get?_iff _ _).2 ⟨rfl, rfl⟩, hcolumns⟩

theorem flat_delegates_parcel :
    parcelContext.catalog.nonChained.Holds (.flat [.keyValuePairs]) 60 ∧
    parcelContext.catalog.pushed.Holds (.withChain [.keyValuePairs]) 60 ∧
    Native.target.supportsSignature (.withChain [.keyValuePairs]) = false ∧
    Java.target.supportsSignature (.withChain [.keyValuePairs]) = true ∧
    ∀ line ∈ Java.pairImports,
      line ∈ Java.classLines parcelContext ⟨"android.util", "StatsLog"⟩ := by
  have selected : [].foldlM Catalog.select (Collation.collate .standard parcelSchema).catalog =
      .ok parcelContext.catalog := Collation.foldlM_select_nil .standard parcelSchema
  obtain ⟨a, found, flat, hsig⟩ := parcel_collated
  have held : parcelContext.catalog.nonChained.Holds (.flat [.keyValuePairs]) 60 :=
    ((Collation.describes_of_selectAll selected).holds_flat_iff _ 60).2 ⟨a, found, flat, hsig⟩
  obtain ⟨b, hb, hcode⟩ := held
  obtain ⟨hbuckets, -, himports⟩ := flat_delegates selected
  obtain ⟨ts, b', hts, hb', hcodes, hsupports⟩ := hbuckets _ b hb
  obtain rfl := Signature.flat_injective hts
  have hjava : (Signature.flat [.keyValuePairs], b) ∈ Java.nonChained parcelContext :=
    Target.mem_supported.2 ⟨hb, rfl⟩
  refine ⟨⟨b, hb, hcode⟩, ⟨b', hb', hcodes 60 hcode⟩, rfl, rfl, ?_⟩
  have hparam : ⟨"SparseIntArray", "arg3_int"⟩ ∈ Java.params parcelContext
      (.flat [.keyValuePairs]) := by decide +kernel
  exact himports _ _ _ _ b _ hjava hparam (by decide)

end Emit

end AtomLog
