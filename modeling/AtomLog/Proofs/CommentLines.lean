import AtomLog.Text.Lines
import Mathlib.Data.List.DropRight
import Mathlib.Data.List.Forall2
/-!
The lines of a comment.

What a line is and what a comment keeps of it are said apart from the functions that cut and trim.
Main statement: a comment has the lines of its text, trimmed at their ends, from the first one to the
last one that is more than blanks, and its lines are those of the text that they make up
(`Text.docLines_trims`).
-/
namespace AtomLog.Text

/-- Whether a text is cut into these lines. A line feed ends a line, with the return before it if
there is one, and the end of the text ends a line that is not empty. -/
inductive CutInto : List Char → List (List Char) → Prop
  | none : CutInto [] []
  | last {l : List Char} (nonempty : l ≠ []) (hl : '\n' ∉ l) : CutInto l [l]
  | feed {l cs : List Char} {ls : List (List Char)} (hl : '\n' ∉ l) (bare : l.getLast? ≠ some '\r')
      (rest : CutInto cs ls) : CutInto (l ++ '\n' :: cs) (l :: ls)
  | returned {l cs : List Char} {ls : List (List Char)} (hl : '\n' ∉ l) (rest : CutInto cs ls) :
      CutInto (l ++ '\r' :: '\n' :: cs) (l :: ls)

def isBlankLine (line : String) : Bool := line.toList.all isBlank

/-- Whether what is kept of a line is all but the blanks at its end. -/
def TrimsTo (line kept : String) : Prop :=
  ∃ blanks, line = kept ++ blanks ∧ isBlankLine blanks = true ∧
    ∀ c, kept.toList.getLast? = some c → isBlank c = false

/-- Whether what is kept of lines is all, each trimmed at its end, but the blank ones at both
ends. -/
structure Trims (ls kept : List String) : Prop where
  edges : ∃ before inner after, ls = before ++ inner ++ after ∧
    (∀ l ∈ before, isBlankLine l = true) ∧ (∀ l ∈ after, isBlankLine l = true) ∧
    List.Forall₂ TrimsTo inner kept
  starts : ∀ l, kept.head? = some l → isBlankLine l = false
  ends : ∀ l, kept.getLast? = some l → isBlankLine l = false

/-! ### Cutting -/

section Lines

variable {l cs line : List Char} {ls : List (List Char)}

/-- What has no line feed goes on with the current line. -/
theorem linesFrom_append (h : '\n' ∉ l) (line cs : List Char) :
    linesFrom line (l ++ cs) = linesFrom (l.reverse ++ line) cs := by
  induction l generalizing line with
  | nil => rfl
  | cons c l ih =>
    rw [List.mem_cons, not_or] at h
    rw [List.cons_append, linesFrom, ih h.2, List.reverse_cons, List.append_assoc,
      List.singleton_append]
    exact fun hc => h.1 hc.symm

theorem linesFrom_feed (bare : line.head? ≠ some '\r') (cs : List Char) :
    linesFrom line ('\n' :: cs) = line.reverse :: linesFrom [] cs := by
  rw [linesFrom]
  rintro l rfl
  exact bare rfl

theorem cutInto_linesFrom (h : '\n' ∉ line) (cs : List Char) :
    CutInto (line.reverse ++ cs) (linesFrom line cs) := by
  fun_induction linesFrom line cs with
  | case1 line empty =>
    obtain rfl := List.isEmpty_iff.1 empty
    exact .none
  | case2 line nonempty =>
    rw [List.append_nil]
    exact .last (by simpa using nonempty) (by simpa using h)
  | case3 line cs ih =>
    have rest : CutInto cs (linesFrom [] cs) := ih List.not_mem_nil
    -- The current line is read backwards, so a return at its end comes first.
    split
    · next l =>
      rw [List.reverse_cons, List.append_assoc]
      exact .returned (fun hl => h (by simpa using hl)) rest
    · next bare =>
      refine .feed (by simpa using h) ?_ rest
      rw [List.getLast?_reverse]
      exact fun hreturn => (List.head?_eq_some_iff.1 hreturn).elim bare
  | case4 line c cs hc ih =>
    have hline : '\n' ∉ c :: line := fun hmem =>
      (List.mem_cons.1 hmem).elim (fun hnew => hc hnew.symm) h
    simpa using ih hline

theorem CutInto.linesFrom_eq (h : CutInto cs ls) : linesFrom [] cs = ls := by
  induction h with
  | none => rfl
  | @last l nonempty hl =>
    rw [← List.append_nil l, linesFrom_append hl, List.append_nil, linesFrom, if_neg (by simpa),
      List.reverse_reverse, List.append_nil]
  | feed hl bare rest ih =>
    rw [linesFrom_append hl, List.append_nil, linesFrom_feed (by simpa using bare),
      List.reverse_reverse, ih]
  | @returned l cs ls hl rest ih =>
    have hreturn : '\n' ∉ l ++ ['\r'] := by simpa using hl
    rw [List.append_cons, linesFrom_append hreturn, List.append_nil, List.reverse_concat, linesFrom,
      List.reverse_reverse, ih]

theorem CutInto.newline_not_mem (h : CutInto cs ls) : ∀ l ∈ ls, '\n' ∉ l := by
  induction h with
  | none => simp
  | last nonempty hl => simpa using hl
  | feed hl bare rest ih => exact List.forall_mem_cons.2 ⟨hl, ih⟩
  | returned hl rest ih => exact List.forall_mem_cons.2 ⟨hl, ih⟩

/-- Lines that no return ends are those of the text that joins them, if the last one is not empty. -/
theorem cutInto_intercalate (hls : ∀ l ∈ ls, '\n' ∉ l ∧ l.getLast? ≠ some '\r')
    (hlast : ls.getLast? ≠ some []) : CutInto (['\n'].intercalate ls) ls := by
  induction ls with
  | nil => exact .none
  | cons l ls ih =>
    obtain ⟨⟨hl, bare⟩, hls⟩ := List.forall_mem_cons.1 hls
    cases ls with
    | nil =>
      rw [List.intercalate_singleton]
      exact .last (by simpa using hlast) hl
    | cons l' ls =>
      rw [List.intercalate_cons_cons, List.append_assoc, List.singleton_append]
      exact .feed hl bare (ih hls (by simpa using hlast))

end Lines

/-! ### Trimming -/

section Trimming

variable {cs : List Char} {ls : List (List Char)}

theorem trimEnd_eq (cs : List Char) : trimEnd cs = cs.rdropWhile isBlank := rfl

theorem stripEmpty_eq (ls : List (List Char)) :
    stripEmpty ls = (ls.dropWhile List.isEmpty).rdropWhile List.isEmpty := rfl

theorem not_of_head?_dropWhile {α : Type} {p : α → Bool} {xs : List α} {x : α}
    (h : (xs.dropWhile p).head? = some x) : p x = false := by
  have hnot := List.head?_dropWhile_not p xs
  rwa [h] at hnot

theorem not_of_getLast?_rdropWhile {α : Type} {p : α → Bool} {xs : List α} {x : α}
    (h : (xs.rdropWhile p).getLast? = some x) : p x = false := by
  rw [List.rdropWhile, List.getLast?_reverse] at h
  exact not_of_head?_dropWhile h

theorem trimEnd_trimEnd (cs : List Char) : trimEnd (trimEnd cs) = trimEnd cs :=
  List.rdropWhile_idempotent _ _

theorem trimEnd_eq_nil_iff : trimEnd cs = [] ↔ cs.all isBlank = true := by
  rw [trimEnd_eq, List.rdropWhile_eq_nil_iff, List.all_eq_true]

theorem stripEmpty_edges (ls : List (List Char)) : ∃ before after,
    ls = before ++ stripEmpty ls ++ after ∧ (∀ l ∈ before, l = []) ∧ ∀ l ∈ after, l = [] := by
  refine ⟨ls.takeWhile List.isEmpty, (ls.dropWhile List.isEmpty).rtakeWhile List.isEmpty, ?_, ?_, ?_⟩
  · rw [stripEmpty_eq, List.append_assoc, List.rdropWhile_append_rtakeWhile,
      List.takeWhile_append_dropWhile]
  · exact fun l hl => List.isEmpty_iff.1 (List.mem_takeWhile_imp hl)
  · exact fun l hl => List.isEmpty_iff.1 (List.mem_rtakeWhile_imp hl)

theorem head?_stripEmpty (ls : List (List Char)) : (stripEmpty ls).head? ≠ some [] := by
  intro h
  have hprefix : [[]] <+: ls.dropWhile List.isEmpty :=
    (List.singleton_prefix_iff_head?_eq_some.2 h).trans (List.rdropWhile_prefix _ _)
  exact absurd (not_of_head?_dropWhile (List.singleton_prefix_iff_head?_eq_some.1 hprefix)) (by simp)

theorem getLast?_stripEmpty (ls : List (List Char)) : (stripEmpty ls).getLast? ≠ some [] :=
  fun h => absurd (not_of_getLast?_rdropWhile h) (by simp)

/-- Lines without empty ones at their ends are left as they are. -/
theorem stripEmpty_eq_self (hhead : ls.head? ≠ some []) (hlast : ls.getLast? ≠ some []) :
    stripEmpty ls = ls := by
  have hdrop : ls.dropWhile List.isEmpty = ls := by
    cases ls with
    | nil => rfl
    | cons l ls => exact List.dropWhile_cons_of_neg (by simpa using hhead)
  rw [stripEmpty_eq, hdrop, List.rdropWhile_eq_self_iff]
  intro hne hempty
  exact hlast ((List.getLast_eq_iff_getLast?_eq_some hne).1 (List.isEmpty_iff.1 hempty))

end Trimming

/-! ### What is kept -/

section Kept

variable {line kept : String} {ls ks : List String}

theorem isBlankLine_ofList (l : List Char) : isBlankLine (String.ofList l) = l.all isBlank := by
  rw [isBlankLine, String.toList_ofList]

theorem trimsTo_trimEnd (l : List Char) :
    TrimsTo (String.ofList l) (String.ofList (trimEnd l)) := by
  refine ⟨String.ofList (l.rtakeWhile isBlank), ?_, ?_, ?_⟩
  · rw [← String.ofList_append, trimEnd_eq, List.rdropWhile_append_rtakeWhile]
  · rw [isBlankLine_ofList, List.all_eq_true]
    exact fun c hc => List.mem_rtakeWhile_imp hc
  · intro c hc
    rw [String.toList_ofList] at hc
    exact not_of_getLast?_rdropWhile hc

theorem TrimsTo.isBlankLine_eq (h : TrimsTo line kept) : isBlankLine line = isBlankLine kept := by
  obtain ⟨blanks, rfl, hblanks, -⟩ := h
  rw [isBlankLine, String.toList_append, List.all_append, ← isBlankLine, ← isBlankLine, hblanks,
    Bool.and_true]

theorem TrimsTo.eq_empty (h : TrimsTo line kept) (blank : isBlankLine kept = true) : kept = "" := by
  obtain ⟨-, -, -, hlast⟩ := h
  rw [← String.toList_eq_nil_iff, ← List.getLast?_eq_none_iff, Option.eq_none_iff_forall_ne_some]
  intro c hc
  have hblank := List.all_eq_true.1 blank c (List.mem_of_getLast? hc)
  simp [hlast c hc] at hblank

theorem exists_of_trimsTo (h : List.Forall₂ TrimsTo ls ks) : ∀ k ∈ ks, ∃ l ∈ ls, TrimsTo l k := by
  induction h with
  | nil => simp
  | cons hk _ ih =>
    refine List.forall_mem_cons.2 ⟨⟨_, List.mem_cons_self, hk⟩, fun k hmem => ?_⟩
    obtain ⟨l, hl, htrims⟩ := ih k hmem
    exact ⟨l, List.mem_cons_of_mem _ hl, htrims⟩

theorem filter_isBlankLine_eq_nil_iff :
    ls.filter (fun l => !isBlankLine l) = [] ↔ ∀ l ∈ ls, isBlankLine l = true := by
  simp [List.filter_eq_nil_iff]

namespace Trims

theorem filter (h : Trims ls ks) : List.Forall₂ TrimsTo
    (ls.filter (fun l => !isBlankLine l)) (ks.filter (fun k => !isBlankLine k)) := by
  obtain ⟨before, inner, after, rfl, hbefore, hafter, hinner⟩ := h.edges
  rw [List.filter_append, List.filter_append, filter_isBlankLine_eq_nil_iff.2 hbefore,
    filter_isBlankLine_eq_nil_iff.2 hafter, List.nil_append, List.append_nil]
  refine List.rel_filter ?_ hinner
  intro l k hk
  simp only [hk.isBlankLine_eq]

theorem eq_nil_iff (h : Trims ls ks) : ks = [] ↔ ∀ l ∈ ls, isBlankLine l = true := by
  have hfilter := h.filter
  constructor
  · rintro rfl
    rw [List.filter_nil, List.forall₂_nil_right_iff] at hfilter
    exact filter_isBlankLine_eq_nil_iff.1 hfilter
  · intro blank
    rw [filter_isBlankLine_eq_nil_iff.2 blank, List.forall₂_nil_left_iff,
      filter_isBlankLine_eq_nil_iff] at hfilter
    cases ks with
    | nil => rfl
    | cons k ks =>
      have hk : isBlankLine k = true := hfilter k List.mem_cons_self
      rw [h.starts k rfl] at hk
      cases hk

theorem eq_empty (h : Trims ls ks) : ∀ k ∈ ks, isBlankLine k = true → k = "" := by
  obtain ⟨before, inner, after, -, -, -, hinner⟩ := h.edges
  intro k hk
  obtain ⟨l, -, htrims⟩ := exists_of_trimsTo hinner k hk
  exact htrims.eq_empty

end Trims

end Kept

/-- The lines of a comment as characters. -/
def keptLines (cs : List Char) : List (List Char) := stripEmpty ((linesFrom [] cs).map trimEnd)

section KeptLines

variable {cs l : List Char}

theorem docLines_eq (doc : String) : docLines doc = (keptLines doc.toList).map String.ofList := rfl

theorem exists_of_mem_keptLines (h : l ∈ keptLines cs) : ∃ l' ∈ linesFrom [] cs, trimEnd l' = l := by
  obtain ⟨before, after, hedges, -⟩ := stripEmpty_edges ((linesFrom [] cs).map trimEnd)
  rw [← List.mem_map, hedges]
  exact List.mem_append_left _ (List.mem_append_right _ h)

theorem trimEnd_of_mem_keptLines (h : l ∈ keptLines cs) : trimEnd l = l := by
  obtain ⟨l', -, rfl⟩ := exists_of_mem_keptLines h
  exact trimEnd_trimEnd l'

theorem newline_not_mem_keptLines (h : l ∈ keptLines cs) : '\n' ∉ l := by
  obtain ⟨l', hl', rfl⟩ := exists_of_mem_keptLines h
  have cut : CutInto cs (linesFrom [] cs) := cutInto_linesFrom List.not_mem_nil cs
  exact fun hmem => cut.newline_not_mem l' hl' ((List.rdropWhile_prefix _ _).subset hmem)

theorem getLast?_of_mem_keptLines (h : l ∈ keptLines cs) : l.getLast? ≠ some '\r' := by
  rw [← trimEnd_of_mem_keptLines h]
  exact fun hreturn => absurd (not_of_getLast?_rdropWhile hreturn) (by decide)

theorem isBlankLine_of_mem_keptLines (h : l ∈ keptLines cs) (hne : l ≠ []) :
    isBlankLine (String.ofList l) = false := by
  rw [isBlankLine_ofList, Bool.eq_false_iff, ne_eq, ← trimEnd_eq_nil_iff, trimEnd_of_mem_keptLines h]
  exact hne

/-- The lines of a comment are neither cut nor trimmed again. -/
theorem keptLines_intercalate (cs : List Char) :
    keptLines (['\n'].intercalate (keptLines cs)) = keptLines cs := by
  have cut : CutInto (['\n'].intercalate (keptLines cs)) (keptLines cs) :=
    cutInto_intercalate
      (fun l hl => ⟨newline_not_mem_keptLines hl, getLast?_of_mem_keptLines hl⟩)
      (getLast?_stripEmpty _)
  have trimmed : (keptLines cs).map trimEnd = keptLines cs :=
    (List.map_congr_left (fun _ hl => trimEnd_of_mem_keptLines hl)).trans (List.map_id _)
  rw [keptLines, cut.linesFrom_eq, trimmed]
  exact stripEmpty_eq_self (head?_stripEmpty _) (getLast?_stripEmpty _)

end KeptLines

theorem trims_docLines (doc : String) : Trims (lines doc) (docLines doc) where
  edges := by
    obtain ⟨before, after, hedges, hbefore, hafter⟩ :=
      stripEmpty_edges ((linesFrom [] doc.toList).map trimEnd)
    obtain ⟨front, after, hlines, hfront, rfl⟩ := List.map_eq_append_iff.1 hedges
    obtain ⟨before, inner, rfl, rfl, hinner⟩ := List.map_eq_append_iff.1 hfront
    have blank : ∀ ls : List (List Char), (∀ l ∈ ls.map trimEnd, l = []) →
        ∀ l ∈ ls.map String.ofList, isBlankLine l = true := by
      intro ls hls
      rw [List.forall_mem_map]
      intro l hl
      rw [isBlankLine_ofList, ← trimEnd_eq_nil_iff]
      exact hls _ (List.mem_map_of_mem hl)
    refine ⟨before.map String.ofList, inner.map String.ofList, after.map String.ofList, ?_,
      blank before hbefore, blank after hafter, ?_⟩
    · rw [lines, hlines, List.map_append, List.map_append]
    · rw [docLines, ← hinner, List.map_map, List.forall₂_map_left_iff, List.forall₂_map_right_iff,
        List.forall₂_same]
      exact fun l _ => trimsTo_trimEnd l
  starts := by
    intro k hk
    rw [docLines_eq, List.head?_map, Option.map_eq_some_iff] at hk
    obtain ⟨l, hl, rfl⟩ := hk
    refine isBlankLine_of_mem_keptLines (List.mem_of_head? hl) ?_
    rintro rfl
    exact head?_stripEmpty _ hl
  ends := by
    intro k hk
    rw [docLines_eq, List.getLast?_map, Option.map_eq_some_iff] at hk
    obtain ⟨l, hl, rfl⟩ := hk
    refine isBlankLine_of_mem_keptLines (List.mem_of_getLast? hl) ?_
    rintro rfl
    exact getLast?_stripEmpty _ hl

theorem docLines_intercalate (doc : String) :
    docLines (String.intercalate "\n" (docLines doc)) = docLines doc := by
  have hchars : (docLines doc).map String.toList = keptLines doc.toList := by
    rw [docLines_eq, List.map_map]
    exact List.map_id'' (fun _ => String.toList_ofList) _
  have hjoin : (String.intercalate "\n" (docLines doc)).toList =
      ['\n'].intercalate (keptLines doc.toList) := by
    rw [String.toList_intercalate, hchars]
    rfl
  rw [docLines_eq, hjoin, keptLines_intercalate, ← docLines_eq]

/-- A text is cut into its lines, and a comment has all of them, trimmed, but the blank ones before
and after all others. So it has none just when they are all blank, it has the others in their order
with an empty line for each blank one between them, and its lines are those of the text that joins
them. -/
theorem docLines_trims (doc : String) :
    CutInto doc.toList ((lines doc).map String.toList) ∧
    Trims (lines doc) (docLines doc) ∧
    (docLines doc = [] ↔ ∀ l ∈ lines doc, isBlankLine l = true) ∧
    List.Forall₂ TrimsTo ((lines doc).filter (fun l => !isBlankLine l))
      ((docLines doc).filter (fun l => !isBlankLine l)) ∧
    (∀ l ∈ docLines doc, isBlankLine l = true → l = "") ∧
    docLines (String.intercalate "\n" (docLines doc)) = docLines doc := by
  have trims : Trims (lines doc) (docLines doc) := trims_docLines doc
  refine ⟨?_, trims, trims.eq_nil_iff, trims.filter, trims.eq_empty, docLines_intercalate doc⟩
  have hchars : (lines doc).map String.toList = linesFrom [] doc.toList := by
    rw [lines, List.map_map]
    exact List.map_id'' (fun _ => String.toList_ofList) _
  rw [hchars]
  exact cutInto_linesFrom List.not_mem_nil doc.toList

example : docLines " \r\n  first\t\r\n\r\n  second\n\n" = ["  first", "", "  second"] := by
  decide +kernel

end AtomLog.Text
