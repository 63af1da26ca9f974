import Mathlib.Logic.Function.Basic
import Mathlib.Tactic.ByContra
import Mathlib.Tactic.SplitIfs

/-!
# Resources that are in use

A table of the resources that are in use, each with what is known of it, is taken apart: into what a party has
and the rest, or into what was there before and what each of any number of parties has. No two have the same
resource.
-/

namespace Lib

universe u v w

variable {R : Type u} {V : Type v} {H : Type w}

def nothing : R → Option V := fun _ => none

section Single

variable [DecidableEq R]

def single (r : R) (v : V) : R → Option V := Function.update nothing r (some v)

theorem single_self (r : R) (v : V) : single r v r = some v := by
  rw [single, Function.update_self]

theorem single_of_ne {r s : R} (h : s ≠ r) (v : V) : single r v s = none := by
  rw [single, Function.update_of_ne h, nothing]

theorem update_single (r : R) (v v' : V) : Function.update (single r v) r (some v') = single r v' := by
  rw [single, Function.update_idem, single]

theorem update_single_none (r : R) (v : V) : Function.update (single r v) r none = nothing := by
  rw [single, Function.update_idem]
  exact Function.update_eq_self r nothing

end Single

/-- What is in use is the rest and a part that has nothing in common with it. -/
structure Parts (rest part whole : R → Option V) : Prop where
  apart : ∀ r, part r ≠ none → rest r = none
  whole_eq : ∀ r, whole r = (part r).or (rest r)

namespace Parts

variable {rest part whole : R → Option V} {r : R}

theorem empty (whole : R → Option V) : Parts whole nothing whole where
  apart _ h := absurd rfl h
  whole_eq _ := rfl

theorem of_part (h : Parts rest part whole) {v : V} (hr : part r = some v) : whole r = some v := by
  rw [h.whole_eq, hr, Option.some_or]

theorem in_use (h : Parts rest part whole) {v : V} (hr : part r = some v) : whole r ≠ none := by
  rw [h.of_part hr]
  exact Option.some_ne_none v

theorem not_rest (h : Parts rest part whole) {v : V} (hr : part r = some v) : rest r = none :=
  h.apart r (by rw [hr]; exact Option.some_ne_none v)

theorem not_part (h : Parts rest part whole) {v : V} (hr : rest r = some v) : part r = none := by
  by_contra hpart
  rw [h.apart r hpart] at hr
  cases hr

theorem of_rest (h : Parts rest part whole) {v : V} (hr : rest r = some v) : whole r = some v := by
  rw [h.whole_eq, h.not_part hr, Option.none_or, hr]

theorem free (h : Parts rest part whole) (hr : whole r = none) : part r = none ∧ rest r = none := by
  rw [h.whole_eq, Option.or_eq_none_iff] at hr
  exact hr

/-- A change to a resource that is not one of the rest is a change to the part. -/
theorem update [DecidableEq R] (h : Parts rest part whole) (hr : rest r = none) (x : Option V) :
    Parts rest (Function.update part r x) (Function.update whole r x) where
  apart s hs := by
    by_cases hsr : s = r
    · rw [hsr, hr]
    · rw [Function.update_of_ne hsr] at hs
      exact h.apart s hs
  whole_eq s := by
    by_cases hsr : s = r
    · rw [hsr, Function.update_self, Function.update_self, hr, Option.or_none]
    · rw [Function.update_of_ne hsr, Function.update_of_ne hsr, h.whole_eq]

/-- When nothing of the part is left, the rest is all there is. -/
theorem eq_rest (h : Parts rest part whole) (hpart : ∀ r, part r = none) : whole = rest := by
  funext r
  rw [h.whole_eq, hpart, Option.none_or]

theorem trans {new mid : R → Option V} (h : Parts rest part mid) (hnew : Parts mid new whole) :
    Parts rest (fun r => (new r).or (part r)) whole where
  apart r hr := by
    cases hboth : new r with
    | none => exact h.apart r (by rwa [hboth, Option.none_or] at hr)
    | some v => exact (h.free (hnew.apart r (by rw [hboth]; exact Option.some_ne_none v))).2
  whole_eq r := by rw [hnew.whole_eq, h.whole_eq, Option.or_assoc]

section Removal

variable (removed : R → Prop) [DecidablePred removed]

theorem of_removed (whole : R → Option V) :
    Parts (fun r => if removed r then none else whole r) (fun r => if removed r then whole r else none) whole where
  apart r hr := by
    split_ifs at hr ⊢ with h
    · rfl
    · exact absurd rfl hr
  whole_eq r := by
    split_ifs
    · rw [Option.or_none]
    · rw [Option.none_or]

theorem remove (h : Parts rest part whole) (hremoved : ∀ r, removed r → rest r = none) :
    Parts rest (fun r => if removed r then none else part r) (fun r => if removed r then none else whole r) where
  apart r hr := by
    split_ifs at hr
    · exact absurd rfl hr
    · exact h.apart r hr
  whole_eq r := by
    split_ifs with hr
    · rw [hremoved r hr, Option.or_none]
    · exact h.whole_eq r

end Removal

theorem rest_eq (h : Parts rest part whole) (r : R) : rest r = if part r = none then whole r else none := by
  split_ifs with hr
  · rw [h.whole_eq, hr, Option.none_or]
  · exact h.apart r hr

end Parts

/-- What is in use is what was at the start and what the parties have. -/
structure Divided (start whole : R → Option V) (has : H → R → Option V) : Prop where
  held : ∀ {p r v}, has p r = some v → whole r = some v
  apart : ∀ {p q r}, has p r ≠ none → has q r ≠ none → p = q
  fresh : ∀ {p r}, has p r ≠ none → start r = none
  others : ∀ {r}, (∀ p, has p r = none) → whole r = start r

namespace Divided

variable {start whole whole' : R → Option V} {has : H → R → Option V} {p : H}

theorem start_nothing (start : R → Option V) : Divided start start (fun _ : H => nothing) where
  held h := nomatch h
  apart h _ := absurd rfl h
  fresh h := absurd rfl h
  others _ := rfl

theorem eq_start (h : Divided start whole has) (hhas : ∀ p, has p = nothing) : whole = start := by
  funext r
  exact h.others fun p => by rw [hhas p]; rfl

theorem parts (h : Divided start whole has) (p : H) :
    Parts (fun r => if has p r = none then whole r else none) (has p) whole where
  apart _ hr := if_neg hr
  whole_eq r := by
    cases hhas : has p r with
    | none => simp
    | some v => rw [h.held hhas, Option.some_or]

/-- What another party has is in the rest. -/
theorem rest_of_ne {rest : R → Option V} (h : Divided start whole has) (hp : Parts rest (has p) whole) {q : H}
    (hq : q ≠ p) {r : R} {v : V} (hr : has q r = some v) : rest r = some v := by
  rw [hp.rest_eq, if_pos, h.held hr]
  by_contra hpr
  exact hq (h.apart (by rw [hr]; exact Option.some_ne_none v) hpr)

/-- A party changes what it has, and the rest stays as it was. -/
theorem exchange [DecidableEq H] {rest new : R → Option V} (h : Divided start whole has)
    (hbefore : Parts rest (has p) whole) (hafter : Parts rest new whole') :
    Divided start whole' (Function.update has p new) := by
  have hother : ∀ {q r}, q ≠ p → has q r ≠ none → new r = none := by
    intro q r hq hr
    obtain ⟨v, hv⟩ := Option.ne_none_iff_exists'.mp hr
    by_contra hnew
    cases (h.rest_of_ne hbefore hq hv).symm.trans (hafter.apart r hnew)
  constructor
  case held =>
    intro q r v hr
    by_cases hq : q = p
    · subst hq
      rw [Function.update_self] at hr
      exact hafter.of_part hr
    · rw [Function.update_of_ne hq] at hr
      exact hafter.of_rest (h.rest_of_ne hbefore hq hr)
  case apart =>
    intro q q' r hr hr'
    by_cases hq : q = p
    · by_cases hq' : q' = p
      · rw [hq, hq']
      · rw [hq, Function.update_self] at hr
        rw [Function.update_of_ne hq'] at hr'
        exact absurd (hother hq' hr') hr
    · rw [Function.update_of_ne hq] at hr
      by_cases hq' : q' = p
      · rw [hq', Function.update_self] at hr'
        exact absurd (hother hq hr) hr'
      · rw [Function.update_of_ne hq'] at hr'
        exact h.apart hr hr'
  case fresh =>
    intro q r hr
    by_cases hq : q = p
    · rw [hq, Function.update_self] at hr
      by_cases hhad : has p r = none
      · have hwhole : whole r = none := by rw [hbefore.whole_eq, hhad, Option.none_or, hafter.apart r hr]
        rw [← h.others, hwhole]
        intro q
        by_contra hq
        obtain ⟨v, hv⟩ := Option.ne_none_iff_exists'.mp hq
        cases hwhole.symm.trans (h.held hv)
      · exact h.fresh hhad
    · rw [Function.update_of_ne hq] at hr
      exact h.fresh hr
  case others =>
    intro r hr
    have hnew : new r = none := by
      have hself := hr p
      rwa [Function.update_self] at hself
    rw [hafter.whole_eq, hnew, Option.none_or]
    by_cases hhad : has p r = none
    · rw [hbefore.rest_eq, if_pos hhad]
      refine h.others fun q => ?_
      by_cases hq : q = p
      · rw [hq, hhad]
      · have hself := hr q
        rwa [Function.update_of_ne hq] at hself
    · rw [hbefore.apart r hhad, h.fresh hhad]

end Divided

end Lib
