import AtomLog.Collation.Basic
import AtomLog.Emit.Java
import AtomLog.Emit.Native
import AtomLog.Proofs.Constants
/-!
Where the comments over the constants of atoms end.

The documentation of an atom is cut into lines, trimmed and put into a comment as it is. Cutting and
trimming take away line ends and blanks alone, so the comment is ended by all that ends one in the
documentation. Main statement: the block of an atom holds the end of a comment once more than its
documentation does (`Emit.docComment_ends`).
-/
namespace AtomLog

namespace Text

section Lines

variable {c d : Char} (hc : isBlank c = false) (hd : isBlank d = false)
include hc hd

theorem ne_of_isBlank {x : Char} (hx : isBlank x = true) : x ≠ c ∧ x ≠ d := by
  constructor
  · rintro rfl
    simp [hx] at hc
  · rintro rfl
    simp [hx] at hd

/-- Blanks before a text make no pairs, nor do blanks behind it. -/
theorem pairCount_append_blanks {bs : List Char} (blank : ∀ x ∈ bs, isBlank x = true)
    (cs : List Char) :
    pairCount c d (bs ++ cs) = pairCount c d cs ∧ pairCount c d (cs ++ bs) = pairCount c d cs := by
  have hnone : c ∉ bs ∧ d ∉ bs :=
    ⟨fun h => (ne_of_isBlank hc hd (blank c h)).1 rfl,
      fun h => (ne_of_isBlank hc hd (blank d h)).2 rfl⟩
  have hzero : pairCount c d bs = 0 := pairCount_eq_zero_of_not_mem hnone.2
  constructor
  · rw [pairCount_append_of_getLast? (fun h => hnone.1 (List.mem_of_getLast? h)), hzero,
      Nat.zero_add]
  · rw [pairCount_append_of_head? (fun h => hnone.2 (List.mem_of_head? h)), hzero, Nat.add_zero]

theorem pairCount_trimStart (cs : List Char) : pairCount c d (trimStart cs) = pairCount c d cs := by
  have hblank : ∀ x ∈ cs.takeWhile isBlank, isBlank x = true := fun x => List.mem_takeWhile_imp
  conv => rhs; rw [← List.takeWhile_append_dropWhile (p := isBlank) (l := cs)]
  exact (pairCount_append_blanks hc hd hblank _).1.symm

theorem pairCount_trimEnd (cs : List Char) : pairCount c d (trimEnd cs) = pairCount c d cs := by
  have hblank : ∀ x ∈ cs.rtakeWhile isBlank, isBlank x = true := fun x => List.mem_rtakeWhile_imp
  have hcs : trimEnd cs ++ cs.rtakeWhile isBlank = cs := List.rdropWhile_append_rtakeWhile
  conv => rhs; rw [← hcs]
  exact (pairCount_append_blanks hc hd hblank _).2.symm

theorem pairCount_trim (s : String) :
    pairCount c d (trim s).toList = pairCount c d s.toList := by
  rw [trim, String.toList_ofList, pairCount_trimEnd hc hd, pairCount_trimStart hc hd]

theorem pairCount_append_newline (xs ys : List Char) :
    pairCount c d (xs ++ '\n' :: ys) = pairCount c d xs + pairCount c d ys := by
  obtain ⟨hnc, hnd⟩ := ne_of_isBlank hc hd (x := '\n') (by decide)
  rw [pairCount_append_of_head? (by simpa using hnd), pairCount_cons_of_ne hnc]

theorem pairCount_linesFrom (line cs : List Char) :
    ((linesFrom line cs).map (pairCount c d)).sum = pairCount c d (line.reverse ++ cs) := by
  fun_induction linesFrom line cs with
  | case1 line h => simp [List.isEmpty_iff.1 h, pairCount]
  | case2 line h => simp
  | case3 line cs ih =>
    rw [List.map_cons, List.sum_cons, ih, pairCount_append_newline hc hd, List.reverse_nil,
      List.nil_append]
    congr 1
    split
    · have hreturn : ∀ x ∈ ['\r'], isBlank x = true := List.forall_mem_singleton.2 (by decide)
      rw [List.reverse_cons]
      exact (pairCount_append_blanks hc hd hreturn _).2.symm
    · rfl
  | case4 line c cs _ ih => simpa using ih

theorem pairCount_ofLines (ls : List String) :
    pairCount c d (ofLines ls).toList = (ls.map (fun l => pairCount c d l.toList)).sum := by
  induction ls with
  | nil => rfl
  | cons l ls ih =>
    have hlist : (ofLines (l :: ls)).toList = l.toList ++ '\n' :: (ofLines ls).toList := by
      simp [ofLines_cons]
    rw [hlist, pairCount_append_newline hc hd, ih, List.map_cons, List.sum_cons]

omit hc hd in
theorem sum_dropWhile_isEmpty (ls : List (List Char)) :
    ((ls.dropWhile List.isEmpty).map (pairCount c d)).sum = (ls.map (pairCount c d)).sum := by
  induction ls with
  | nil => rfl
  | cons l ls ih => cases l <;> simp [pairCount, ih]

/-- What is taken away from a comment text leaves its pairs in its lines. -/
theorem pairCount_docLines (doc : String) :
    ((docLines doc).map (fun l => pairCount c d l.toList)).sum = pairCount c d doc.toList := by
  have hchars : (docLines doc).map (fun l => pairCount c d l.toList) =
      (stripEmpty ((linesFrom [] doc.toList).map trimEnd)).map (pairCount c d) := by
    rw [docLines, List.map_map]
    exact List.map_congr_left (fun l _ => by rw [Function.comp_apply, String.toList_ofList])
  have htrim : ((linesFrom [] doc.toList).map trimEnd).map (pairCount c d) =
      (linesFrom [] doc.toList).map (pairCount c d) := by
    rw [List.map_map]
    exact List.map_congr_left (fun l _ => pairCount_trimEnd hc hd l)
  rw [hchars, stripEmpty, List.map_reverse, List.sum_reverse, sum_dropWhile_isEmpty,
    List.map_reverse, List.sum_reverse, sum_dropWhile_isEmpty, htrim, pairCount_linesFrom hc hd]
  rfl

end Lines

end Text

namespace Emit

/-- How often a text ends a comment. -/
def commentEnds (text : String) : Nat := Text.pairCount '*' '/' text.toList

theorem commentEnds_eq_zero {s : String} (h : '/' ∉ s.toList) : commentEnds s = 0 :=
  Text.pairCount_eq_zero_of_not_mem h

theorem commentEnds_ofLines (ls : List String) :
    commentEnds (Text.ofLines ls) = (ls.map commentEnds).sum :=
  Text.pairCount_ofLines (by decide) (by decide) ls

theorem commentEnds_docLine (l : String) :
    commentEnds ("     * " ++ Text.trim l) = commentEnds l := by
  have hopen : Text.pairCount '*' '/' "     * ".toList = 0 := by decide
  rw [commentEnds, String.toList_append, Text.pairCount_append_of_getLast? (by decide), hopen,
    Nat.zero_add, Text.pairCount_trim (by decide) (by decide), commentEnds]

/-- The lines of a documentation in a comment end it as often as the documentation does. -/
theorem commentEnds_docLines (doc : String) :
    (((Text.docLines doc).map (fun l => "     * " ++ Text.trim l)).map commentEnds).sum =
      commentEnds doc := by
  have hlines : ((Text.docLines doc).map (fun l => "     * " ++ Text.trim l)).map commentEnds =
      (Text.docLines doc).map (fun l => Text.pairCount '*' '/' l.toList) := by
    rw [List.map_map]
    refine List.map_congr_left (fun l _ => ?_)
    rw [Function.comp_apply, commentEnds_docLine, commentEnds]
  rw [hlines, Text.pairCount_docLines (by decide) (by decide), commentEnds]

/-- A block of a documentation and of lines that end no comment. -/
theorem commentEnds_block (doc : String) {more : List String}
    (hmore : ∀ l ∈ more, commentEnds l = 0) :
    commentEnds (Text.ofLines (["    /**"] ++
      (Text.docLines doc).map (fun l => "     * " ++ Text.trim l) ++ (more ++ ["     */"]))) =
        commentEnds doc + 1 := by
  have hopen : commentEnds "    /**" = 0 := by decide
  have hclose : commentEnds "     */" = 1 := by decide
  have hnone : (more.map commentEnds).sum = 0 := by
    rw [List.sum_eq_zero_iff, List.forall_mem_map]
    exact hmore
  simp only [commentEnds_ofLines, List.map_append, List.sum_append, commentEnds_docLines, hnone]
  simp [hopen, hclose]

/-- Names of an atom and of the fields of a node that hold no slash, as no identifier does. -/
structure Slashless (ctx : Context) (a : Atom) : Prop where
  name : '/' ∉ a.name.toList
  fields : ∀ f ∈ a.fields, '/' ∉ f.name.toList
  node : ∀ f ∈ ctx.attribution.fields, '/' ∉ f.name.toList

namespace Native

variable {ctx : Context} {a : Atom}

theorem slash_not_mem_intercalate {ss : List String} (h : ∀ s ∈ ss, '/' ∉ s.toList) :
    '/' ∉ (String.intercalate ", " ss).toList := by
  induction ss with
  | nil => simp
  | cons s ss ih =>
    obtain ⟨hs, hss⟩ := List.forall_mem_cons.1 h
    cases ss with
    | nil => simpa using hs
    | cons s' ss =>
      rw [String.intercalate_cons_cons, String.toList_append, String.toList_append,
        List.mem_append, List.mem_append, not_or, not_or]
      exact ⟨⟨hs, by decide⟩, ih hss⟩

theorem slash_not_mem_paramText {type name : String} (htype : '/' ∉ type.toList)
    (hname : '/' ∉ name.toList) : '/' ∉ (paramText ⟨type, name⟩).toList := by
  simp [paramText, htype, hname]

theorem slash_not_mem_type (t : FieldType) :
    '/' ∉ ((type? t).getD s!"<unsupported {t.name}>").toList ∧
      '/' ∉ ((type? t).getD "int32_t").toList := by
  cases t <;> decide

theorem slash_not_mem_usage (h : Slashless ctx a) : '/' ∉ (usage ctx a).toList := by
  have hconstant : '/' ∉ (Naming.constant a.name).toList := by
    rw [Naming.toList_constant]
    exact fun hmem => h.name (Naming.mem_of_mem_constantChars (by decide) (by decide) hmem)
  have hchain : ∀ p ∈ chainParams ctx, '/' ∉ (paramText p).toList := by
    simp only [chainParams, List.forall_mem_flatMap]
    intro f hf
    have hname := h.node f hf
    split
    · exact List.forall_mem_singleton.2 (slash_not_mem_paramText (by decide) hname)
    · refine List.forall_mem_cons.2 ⟨slash_not_mem_paramText ?_ hname,
        List.forall_mem_singleton.2 (slash_not_mem_paramText (by decide) ?_)⟩
      · simp [(slash_not_mem_type f.type).2]
      · simp [hname]
  have hfield : ∀ f ∈ a.chained.fields, '/' ∉ f.name.toList := by
    unfold Atom.chained
    split
    · exact List.forall_mem_cons.2 ⟨by decide, fun f hf => h.fields f (List.mem_of_mem_drop hf)⟩
    · exact h.fields
  have hargs : '/' ∉ (String.intercalate ", " (Naming.constant a.name ::
      (a.chained.fields.flatMap (usageParams ctx)).map paramText)).toList := by
    refine slash_not_mem_intercalate (List.forall_mem_cons.2 ⟨hconstant, ?_⟩)
    rw [List.forall_mem_map, List.forall_mem_flatMap]
    intro f hf
    unfold usageParams
    split
    · exact hchain
    · exact List.forall_mem_singleton.2
        (slash_not_mem_paramText (slash_not_mem_type f.type).1 (hfield f hf))
  simp only [usage]
  generalize String.intercalate ", " _ = args at hargs ⊢
  split <;> simp [hargs, toString]

theorem commentEnds_docComment (h : Slashless ctx a) :
    commentEnds (Text.ofLines (docComment ctx a)) = commentEnds a.doc + 1 := by
  have husage : '/' ∉ s!"     * Usage: {usage ctx a}".toList := by
    simp [slash_not_mem_usage h, toString]
  have hblock : docComment ctx a = ["    /**"] ++
      (Text.docLines a.doc).map (fun l => "     * " ++ Text.trim l) ++
        ([s!"     * Usage: {usage ctx a}"] ++ ["     */"]) := rfl
  rw [hblock, commentEnds_block a.doc (List.forall_mem_singleton.2 (commentEnds_eq_zero husage))]

end Native

namespace Java

variable {a : Atom}

theorem docComment_eq (h : docComment a ≠ []) : docComment a =
    ["    /**"] ++ (Text.docLines a.doc).map (fun l => "     * " ++ Text.trim l) ++ ["     */"] := by
  unfold docComment at h ⊢
  split at h
  · exact absurd rfl h
  · rfl

theorem commentEnds_docComment (h : docComment a ≠ []) :
    commentEnds (Text.ofLines (docComment a)) = commentEnds a.doc + 1 := by
  rw [docComment_eq h, ← List.nil_append ["     */"],
    commentEnds_block a.doc (List.forall_mem_nil _)]

end Java

/-- The block over the constant of an atom in the header, and the one in the class where there is
one, end in the end of a comment and hold it as often besides as the documentation does. -/
theorem docComment_ends {ctx : Context} {a : Atom} (slashless : Slashless ctx a) :
    ((Native.docComment ctx a).getLast? = some "     */" ∧
      commentEnds (Text.ofLines (Native.docComment ctx a)) = commentEnds a.doc + 1) ∧
    (Java.docComment a ≠ [] →
      (Java.docComment a).getLast? = some "     */" ∧
      commentEnds (Text.ofLines (Java.docComment a)) = commentEnds a.doc + 1) ∧
    (commentEnds a.doc = 0 ↔ ¬['*', '/'] <:+: a.doc.toList) := by
  refine ⟨⟨?_, Native.commentEnds_docComment slashless⟩, ?_, Text.pairCount_eq_zero_iff⟩
  · rw [Native.docComment, List.getLast?_append]
    rfl
  · intro h
    refine ⟨?_, Java.commentEnds_docComment h⟩
    rw [Java.docComment_eq h, List.getLast?_concat]

/-- An atom with a documentation. -/
def documentedAtom (doc : String) : Atom where
  code := 90
  name := "cpu_time"
  doc := doc
  fields := [⟨"millis", .int64, ∅⟩]

def documentedContext (doc : String) : Context :=
  ⟨.ofAtoms [documentedAtom doc], Collation.builtinAttribution, .all⟩

theorem documented_slashless (doc : String) :
    Slashless (documentedContext doc) (documentedAtom doc) where
  name := by simp [documentedAtom]
  fields := by simp [documentedAtom]
  node := by simp [documentedContext, Collation.builtinAttribution]

theorem docComment_ends_stat :
    let doc := "Read from /proc/stat. **\n/ is no end. "
    Slashless (documentedContext doc) (documentedAtom doc) ∧
    Java.docComment (documentedAtom doc) ≠ [] ∧
    commentEnds (Text.ofLines (Native.docComment (documentedContext doc) (documentedAtom doc))) = 1 ∧
    commentEnds (Text.ofLines (Java.docComment (documentedAtom doc))) = 1 := by
  intro doc
  have slashless := documented_slashless doc
  have commented : Java.docComment (documentedAtom doc) ≠ [] := by decide +kernel
  have hdoc : commentEnds (documentedAtom doc).doc = 0 := by decide +kernel
  obtain ⟨⟨-, header⟩, java, -⟩ := docComment_ends slashless
  refine ⟨slashless, commented, ?_, ?_⟩
  · rw [header, hdoc]
  · rw [(java commented).2, hdoc]

/-- A path with a star for one of its parts ends the comment. -/
theorem not_docComment_ends :
    let doc := "Read from /proc/*/stat."
    Slashless (documentedContext doc) (documentedAtom doc) ∧
    commentEnds (Text.ofLines (Native.docComment (documentedContext doc) (documentedAtom doc))) = 2 ∧
    commentEnds (Text.ofLines (Java.docComment (documentedAtom doc))) = 2 := by
  intro doc
  refine ⟨documented_slashless doc, ?_⟩
  decide +kernel

end Emit

end AtomLog
