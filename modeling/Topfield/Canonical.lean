import Topfield.PathBuffer

/-!
# Canonical path names

`tf_makename` with no file name is to canonicalise a directory name: its result is to stay as it is when it
is made again, and to end with no slash. The function skips one slash at the start of a path and removes one
at its end, and an empty piece between two adjacent slashes is a component to it. So a path that ends in such
a piece keeps a slash, and loses it the next time.
-/

namespace Topfield

open Lib Lib.Path

def madeName (dir : CString) (filename : Option CString) : CString :=
  ⟨tfMakename dir filename, nulFree_tfMakename dir filename⟩

/-- Made again, the name is the same, and it does not end with a slash unless it is the root's. -/
structure Canonical (dir : CString) (filename : Option CString) : Prop where
  again : tfMakename (madeName dir filename) none = tfMakename dir filename
  trailing : (tfMakename dir filename).getLast? = some slash → tfMakename dir filename = [slash]

/-- An empty piece stands behind another one and at the end, pieces that `..` takes back left out. -/
def TrailsEmpty (names : List (List UInt8)) : Prop :=
  ∃ before c between after, names = before ++ c :: between ++ [] :: after ∧ c ≠ dotDot ∧
    Balanced dotDot between ∧ Balanced dotDot after

theorem trailsEmpty_iff {names : List (List UInt8)} :
    TrailsEmpty names ↔ ∃ stack c, resolve dotDot [] names = stack ++ [c] ++ [[]] := by
  constructor
  · rintro ⟨before, c, between, after, rfl, hc, hbetween, hafter⟩
    have hempty : [] ≠ dotDot := by decide
    refine ⟨resolve dotDot [] before, c, resolve_eq_concat_iff.mpr ?_⟩
    refine ⟨before ++ c :: between, after, rfl, hempty, resolve_eq_concat_iff.mpr ?_, hafter⟩
    exact ⟨before, between, rfl, hc, rfl, hbetween⟩
  · rintro ⟨stack, c, hstack⟩
    obtain ⟨before, after, rfl, -, hbefore, hafter⟩ := resolve_eq_concat_iff.mp hstack
    obtain ⟨before, between, rfl, hc, -, hbetween⟩ := resolve_eq_concat_iff.mp hbefore
    exact ⟨before, c, between, after, rfl, hc, hbetween, hafter⟩

/-- The name made again: its stack has lost an empty piece on top. -/
theorem tfMakename_again (dir : CString) (filename : Option CString) :
    let stack := resolvedPieces dir filename
    tfMakename (madeName dir filename) none =
      absolute slash (if stack.getLast? = some [] then stack.dropLast else stack) := by
  intro stack
  have hstack : ∀ c ∈ stack, slash ∉ c ∧ c ≠ dotDot := plain_resolvedPieces dir filename
  have hpieces : pathPieces (madeName dir filename) none =
      if stack.getLast? = some [] then stack.dropLast else stack := by
    have hskip : skipSlash (absolute slash stack) = [slash].intercalate stack := if_pos rfl
    show pieces slash (skipSlash (tfMakename dir filename)) ++ [] = _
    rw [List.append_nil, tfMakename_eq, hskip, pieces_intercalate fun c hc => (hstack c hc).1]
  have hup : dotDot ∉ if stack.getLast? = some [] then stack.dropLast else stack := by
    intro h
    split at h
    · exact (hstack _ (List.mem_of_mem_dropLast h)).2 rfl
    · exact (hstack _ h).2 rfl
  rw [tfMakename_eq, resolvedPieces, hpieces, resolve_of_notMem hup, List.nil_append]

/-- **Canonical names.** A name is canonical exactly if its pieces do not trail an empty one. -/
theorem canonical_iff (dir : CString) (filename : Option CString) :
    Canonical dir filename ↔ ¬ TrailsEmpty (pathPieces dir filename) := by
  have hplain : ∀ c ∈ resolvedPieces dir filename, slash ∉ c :=
    fun c hc => (plain_resolvedPieces dir filename c hc).1
  have hagain := tfMakename_again dir filename
  have hlast := getLast?_absolute_iff hplain
  rw [trailsEmpty_iff, ← resolvedPieces]
  constructor
  · rintro ⟨-, htrailing⟩ ⟨stack, c, hstack⟩
    rw [tfMakename_eq] at htrailing
    have hroot := htrailing (hlast.mpr (.inr (by rw [hstack, List.getLast?_concat])))
    have hlong := one_lt_length_render (List.append_ne_nil_of_right_ne_nil stack (List.cons_ne_nil c []))
    rw [hstack, absolute_concat, List.append_nil] at hroot
    rw [hroot] at hlong
    exact absurd hlong (by decide)
  · intro h
    by_cases hempty : (resolvedPieces dir filename).getLast? = some []
    · -- the empty piece is all that is left
      have hstack : resolvedPieces dir filename = [[]] := by
        obtain ⟨stack, hstack⟩ := List.getLast?_eq_some_iff.mp hempty
        obtain rfl | ⟨stack, c, rfl⟩ := stack.eq_nil_or_concat'
        · exact hstack
        · exact absurd ⟨stack, c, hstack⟩ h
      refine ⟨?_, fun _ => ?_⟩
      · rw [hagain, tfMakename_eq, hstack]
        rfl
      · rw [tfMakename_eq, hstack]
        rfl
    · refine ⟨?_, fun htrailing => ?_⟩
      · rw [hagain, tfMakename_eq, if_neg hempty]
      · rw [tfMakename_eq] at htrailing ⊢
        rw [(hlast.mp htrailing).resolve_right hempty]
        rfl

/-- `tf_makename("a//", NULL)` is `/a/`. -/
theorem not_canonical_adjacent : ¬ Canonical ⟨[0x61, 0x2F, 0x2F], by decide⟩ none := by
  intro h
  have hname := h.trailing (by decide)
  exact absurd hname (by decide)

end Topfield
