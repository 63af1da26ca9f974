import Mathlib.Data.List.DropRight
import Mathlib.Data.List.Infix

/-!
# Paths

A path is a list over any alphabet, and its components are what stands between the separators. A directory
is named by the stack of components that leads to it from the root: following the component `up` pops the
stack, and following any other pushes it.
-/

namespace Lib

namespace Path

variable {α : Type} {sep : α}

/-- The pieces between the separators, less the empty ones. -/
def components [DecidableEq α] (sep : α) (s : List α) : List (List α) := (s.splitOn sep).filter (· ≠ [])

/-- The pieces between the separators, less an empty last one. -/
def pieces [DecidableEq α] (sep : α) (s : List α) : List (List α) :=
  if (s.splitOn sep).getLast? = some [] then (s.splitOn sep).dropLast else s.splitOn sep

/-- What may stand between two separators. -/
structure Component (sep : α) (c : List α) : Prop where
  nonempty : c ≠ []
  plain : sep ∉ c

/-- A path that does not begin with a separator, and its components. -/
inductive Relative (sep : α) : List α → List (List α) → Prop
  | empty : Relative sep [] []
  | last {c : List α} (hc : Component sep c) : Relative sep c [c]
  | step {c s : List α} {cs : List (List α)} (hc : Component sep c) (rest : Relative sep s cs) :
    Relative sep (c ++ sep :: s) (c :: cs)

/-- The directory reached from the directory `stack` by the component `c`; the root is its own parent. -/
def follow [DecidableEq α] (up : List α) (stack : List (List α)) (c : List α) : List (List α) :=
  if c = up then stack.dropLast else stack ++ [c]

def resolve [DecidableEq α] (up : List α) (stack cs : List (List α)) : List (List α) :=
  cs.foldl (follow up) stack

/-- Components of which every one is taken back by an `up` behind it. -/
inductive Balanced (up : List α) : List (List α) → Prop
  | nil : Balanced up []
  | pair {c : List α} {cs cs' : List (List α)} (hc : c ≠ up) (inner : Balanced up cs)
    (rest : Balanced up cs') : Balanced up (c :: cs ++ up :: cs')

/-- The name of a directory, with a separator behind every component. -/
def render (sep : α) (stack : List (List α)) : List α := sep :: stack.flatMap fun c => c ++ [sep]

/-- The name of a directory. -/
def absolute (sep : α) (stack : List (List α)) : List α := sep :: [sep].intercalate stack

/-! ### Names of directories -/

theorem render_nil (sep : α) : render sep [] = [sep] := rfl

theorem render_append (stack : List (List α)) (c : List α) :
    render sep (stack ++ [c]) = render sep stack ++ (c ++ [sep]) := by
  simp only [render, List.flatMap_append, List.flatMap_cons, List.flatMap_nil, List.append_nil,
    List.cons_append]

theorem render_eq_append (sep : α) (stack : List (List α)) : ∃ s, render sep stack = s ++ [sep] := by
  obtain rfl | ⟨stack, c, rfl⟩ := stack.eq_nil_or_concat'
  · exact ⟨[], rfl⟩
  · rw [render_append, ← List.append_assoc]
    exact ⟨_, rfl⟩

theorem getLast?_render (stack : List (List α)) : (render sep stack).getLast? = some sep := by
  obtain ⟨s, hs⟩ := render_eq_append sep stack
  rw [hs, List.getLast?_concat]

theorem dropLast_render (stack : List (List α)) (hstack : stack ≠ []) :
    (render sep stack).dropLast = absolute sep stack := by
  obtain rfl | ⟨stack, c, rfl⟩ := stack.eq_nil_or_concat'
  · exact absurd rfl hstack
  rw [render_append, ← List.append_assoc, List.dropLast_concat]
  clear hstack
  rw [absolute, render, List.cons_append]
  congr 1
  induction stack with
  | nil => exact List.intercalate_singleton.symm
  | cons d stack ih =>
    rw [List.flatMap_cons, List.append_assoc, ih, List.cons_append,
      List.intercalate_cons_of_ne_nil (List.append_ne_nil_of_right_ne_nil stack (List.cons_ne_nil c []))]

theorem absolute_concat (stack : List (List α)) (c : List α) :
    absolute sep (stack ++ [c]) = render sep stack ++ c := by
  rw [← dropLast_render (stack ++ [c]) (List.append_ne_nil_of_right_ne_nil stack (List.cons_ne_nil c [])),
    render_append, ← List.append_assoc, List.dropLast_concat]

/-- A name ends with a separator if it is the root's, or if its last component is empty. -/
theorem getLast?_absolute_iff {stack : List (List α)} (hstack : ∀ c ∈ stack, sep ∉ c) :
    (absolute sep stack).getLast? = some sep ↔ stack = [] ∨ stack.getLast? = some [] := by
  obtain rfl | ⟨stack, c, rfl⟩ := stack.eq_nil_or_concat'
  · exact iff_of_true rfl (.inl rfl)
  have hc := hstack c (List.mem_append_right stack List.mem_cons_self)
  rw [absolute_concat, List.getLast?_concat, Option.some.injEq]
  by_cases hempty : c = []
  · subst hempty
    rw [List.append_nil]
    exact iff_of_true (getLast?_render stack) (.inr rfl)
  · rw [List.getLast?_append_of_ne_nil _ hempty]
    refine iff_of_false (fun h => hc (List.mem_of_getLast? h)) ?_
    rintro (h | h)
    · exact List.append_ne_nil_of_right_ne_nil stack (List.cons_ne_nil c []) h
    · exact hempty h

/-! ### Components -/

theorem component_of_first {s : List α} (hs : s ≠ []) (hhead : s.head? ≠ some sep) {c rest : List α}
    (h : s = c ++ rest) (hplain : sep ∉ c) (hrest : ∀ b ∈ rest.head?, b = sep) : Component sep c := by
  refine ⟨?_, hplain⟩
  rintro rfl
  rw [List.nil_append] at h
  subst h
  cases s with
  | nil => exact hs rfl
  | cons b s => exact hhead (congrArg some (hrest b rfl))

theorem Balanced.append {up : List α} {cs cs' : List (List α)} (h : Balanced up cs) (h' : Balanced up cs') :
    Balanced up (cs ++ cs') := by
  induction h with
  | nil => exact h'
  | @pair c cs ds hc hcs _ _ ih =>
    rw [List.append_assoc, List.cons_append]
    exact .pair hc hcs ih

variable [DecidableEq α]

theorem components_sep (s : List α) : components sep (sep :: s) = components sep s := by
  have hsplit := List.splitOn_append_cons_self ([] : List α) s (a := sep)
  rw [List.nil_append, List.splitOn_nil] at hsplit
  rw [components, hsplit, List.filter_append]
  rfl

theorem components_component {c : List α} (hc : Component sep c) : components sep c = [c] := by
  rw [components, List.splitOn_eq_singleton hc.plain, List.filter_cons_of_pos (by simpa using hc.nonempty),
    List.filter_nil]

theorem components_append {c : List α} (hc : Component sep c) (s : List α) :
    components sep (c ++ sep :: s) = c :: components sep s := by
  rw [components, List.splitOn_append_cons_self, List.filter_append]
  exact congrArg (· ++ components sep s) (components_component hc)

theorem relative_components {s : List α} (hhead : s.head? ≠ some sep) (hsingle : ¬ [sep, sep] <:+: s) :
    Relative sep s (components sep s) := by
  induction hn : s.length using Nat.strong_induction_on generalizing s with
  | _ n ih =>
    by_cases hs : s = []
    · subst hs
      exact .empty
    by_cases hsep : sep ∈ s
    · obtain ⟨c, rest, rfl, hplain⟩ := List.eq_append_cons_of_mem hsep
      have hc := component_of_first hs hhead rfl hplain fun b hb => (Option.some.inj hb).symm
      have hnext : rest.head? ≠ some sep := by
        intro hrest
        obtain ⟨rest, rfl⟩ := List.head?_eq_some_iff.mp hrest
        exact hsingle ⟨c, rest, by simp⟩
      have hinfix : rest <:+: c ++ sep :: rest := ⟨c ++ [sep], [], by simp⟩
      rw [components_append hc]
      refine .step hc (ih rest.length ?_ hnext (fun h => hsingle (h.trans hinfix)) rfl)
      rw [← hn, List.length_append, List.length_cons]
      omega
    · have hc := component_of_first hs hhead (List.append_nil s).symm hsep fun b hb => nomatch hb
      rw [components_component hc]
      exact .last hc

/-! ### Pieces -/

/-- Along the separators of a path: what is behind the last one, and a piece before a separator. -/
@[elab_as_elim]
theorem pieces_induction (sep : α) {P : List α → Prop} (last : ∀ c, sep ∉ c → P c)
    (step : ∀ c s, sep ∉ c → P s → P (c ++ sep :: s)) (s : List α) : P s := by
  induction hn : s.length using Nat.strong_induction_on generalizing s with
  | _ n ih =>
    by_cases hsep : sep ∈ s
    · obtain ⟨c, rest, rfl, hplain⟩ := List.eq_append_cons_of_mem hsep
      refine step c rest hplain (ih rest.length ?_ rest rfl)
      rw [← hn, List.length_append, List.length_cons]
      omega
    · exact last s hsep

theorem pieces_nil (sep : α) : pieces sep [] = [] := by
  rw [pieces, List.splitOn_nil]
  rfl

theorem pieces_last {c : List α} (hc : c ≠ []) (hplain : sep ∉ c) : pieces sep c = [c] := by
  rw [pieces, List.splitOn_eq_singleton hplain]
  exact if_neg fun h => hc (Option.some.inj h)

theorem pieces_append {c : List α} (hplain : sep ∉ c) (s : List α) :
    pieces sep (c ++ sep :: s) = c :: pieces sep s := by
  obtain ⟨d, ds, hds⟩ := List.exists_cons_of_ne_nil (List.splitOn_ne_nil sep s)
  rw [pieces, pieces, List.splitOn_append_cons_self_of_not_mem hplain, hds, List.getLast?_cons_cons,
    List.dropLast_cons_cons]
  split
  · rfl
  · rfl

theorem mem_splitOn_absolute {stack : List (List α)} (hstack : ∀ c ∈ stack, sep ∉ c) {c : List α}
    (hc : c ∈ (absolute sep stack).splitOn sep) : c = [] ∨ c ∈ stack := by
  have hsplit := List.splitOn_append_cons_self ([] : List α) ([sep].intercalate stack) (a := sep)
  rw [List.nil_append, List.splitOn_nil] at hsplit
  rw [absolute, hsplit] at hc
  by_cases hempty : stack = []
  · subst hempty
    simpa using hc
  · rw [List.splitOn_intercalate sep hstack hempty] at hc
    exact List.mem_cons.mp hc

theorem pieces_plain (s : List α) : ∀ c ∈ pieces sep s, sep ∉ c := by
  induction s using pieces_induction sep with
  | last c hplain =>
    intro d hd
    by_cases hc : c = []
    · rw [hc, pieces_nil] at hd
      exact absurd hd List.not_mem_nil
    · rw [pieces_last hc hplain] at hd
      rwa [List.mem_singleton.mp hd]
  | step c s hplain ih =>
    intro d hd
    rw [pieces_append hplain] at hd
    rcases List.mem_cons.mp hd with rfl | hd
    · exact hplain
    · exact ih d hd

theorem pieces_intercalate {stack : List (List α)} (hstack : ∀ c ∈ stack, sep ∉ c) :
    pieces sep ([sep].intercalate stack) = if stack.getLast? = some [] then stack.dropLast else stack := by
  by_cases hempty : stack = []
  · subst hempty
    exact pieces_nil sep
  · rw [pieces, List.splitOn_intercalate sep hstack hempty]

theorem Relative.pieces_eq {s : List α} {cs : List (List α)} (h : Relative sep s cs) : pieces sep s = cs := by
  induction h with
  | empty => exact pieces_nil sep
  | last hc => exact pieces_last hc.nonempty hc.plain
  | step hc _ ih => rw [pieces_append hc.plain, ih]

/-! ### Directories -/

theorem follow_up (up : List α) (stack : List (List α)) : follow up stack up = stack.dropLast := if_pos rfl

theorem follow_of_ne {up c : List α} (h : c ≠ up) (stack : List (List α)) :
    follow up stack c = stack ++ [c] :=
  if_neg h

theorem resolve_append (up : List α) (stack cs cs' : List (List α)) :
    resolve up stack (cs ++ cs') = resolve up (resolve up stack cs) cs' :=
  List.foldl_append

theorem mem_resolve {up : List α} {stack cs : List (List α)} {c : List α} (h : c ∈ resolve up stack cs) :
    c ∈ stack ∨ c ∈ cs ∧ c ≠ up := by
  induction cs generalizing stack with
  | nil => exact .inl h
  | cons d cs ih =>
    rcases ih h with hc | ⟨hc, hup⟩
    · unfold follow at hc
      split at hc
      · exact .inl (List.mem_of_mem_dropLast hc)
      · rename_i hd
        rcases List.mem_append.mp hc with hc | hc
        · exact .inl hc
        · obtain rfl := List.mem_singleton.mp hc
          exact .inr ⟨List.mem_cons_self, hd⟩
    · exact .inr ⟨List.mem_cons_of_mem d hc, hup⟩

theorem resolve_of_notMem {up : List α} {cs : List (List α)} (h : up ∉ cs) (stack : List (List α)) :
    resolve up stack cs = stack ++ cs := by
  induction cs generalizing stack with
  | nil => exact (List.append_nil stack).symm
  | cons c cs ih =>
    have hc : c ≠ up := fun hup => h (hup ▸ List.mem_cons_self)
    show resolve up (follow up stack c) cs = _
    rw [follow_of_ne hc, ih fun hmem => h (List.mem_cons_of_mem c hmem), List.append_assoc,
      List.singleton_append]

/-- Balanced components lead back to where they started. -/
theorem resolve_balanced {up : List α} {cs : List (List α)} (h : Balanced up cs) (stack : List (List α)) :
    resolve up stack cs = stack := by
  induction h generalizing stack with
  | nil => rfl
  | @pair c cs cs' hc _ _ ih ih' =>
    rw [resolve_append]
    show resolve up (follow up (resolve up (follow up stack c) cs) up) cs' = stack
    rw [follow_of_ne hc, ih, follow_up, List.dropLast_concat, ih']

/-- The top of the stack is the last component that is not taken back. -/
theorem resolve_eq_concat_iff {up c : List α} {stack cs : List (List α)} :
    resolve up [] cs = stack ++ [c] ↔
      ∃ before after, cs = before ++ c :: after ∧ c ≠ up ∧ resolve up [] before = stack ∧
        Balanced up after := by
  constructor
  · intro h
    induction hn : cs.length using Nat.strong_induction_on generalizing cs stack c with
    | _ n ih =>
      obtain rfl | ⟨cs, d, rfl⟩ := cs.eq_nil_or_concat'
      · exact absurd h.symm (List.append_ne_nil_of_right_ne_nil stack (List.cons_ne_nil c []))
      rw [List.length_append, List.length_singleton] at hn
      rw [resolve_append] at h
      replace h : follow up (resolve up [] cs) d = stack ++ [c] := h
      by_cases hd : d = up
      · -- `d` takes back the component that was on top of `c`
        subst hd
        rw [follow_up] at h
        obtain hnil | ⟨stack', top, htop⟩ := (resolve d [] cs).eq_nil_or_concat'
        · rw [hnil] at h
          exact absurd h.symm (List.append_ne_nil_of_right_ne_nil stack (List.cons_ne_nil c []))
        rw [htop, List.dropLast_concat] at h
        subst h
        obtain ⟨before, after, rfl, htop', hbefore, hafter⟩ := ih cs.length (by omega) htop rfl
        rw [List.length_append] at hn
        obtain ⟨before, between, rfl, hc, hstack, hbetween⟩ := ih before.length (by omega) hbefore rfl
        refine ⟨before, between ++ (top :: after ++ d :: []), ?_, hc, hstack,
          hbetween.append (.pair htop' hafter .nil)⟩
        simp
      · rw [follow_of_ne hd] at h
        obtain ⟨hstack, hdc⟩ := List.append_inj' h rfl
        obtain rfl : d = c := by simpa using hdc
        exact ⟨cs, [], rfl, hd, hstack, .nil⟩
  · rintro ⟨before, after, rfl, hc, rfl, hafter⟩
    rw [resolve_append]
    show resolve up (follow up (resolve up [] before) c) after = _
    rw [follow_of_ne hc, resolve_balanced hafter]

theorem rdropWhile_append (s : List α) {c : List α} (hc : sep ∉ c) :
    (s ++ sep :: c).rdropWhile (· ≠ sep) = s ++ [sep] := by
  have hplain : ∀ b ∈ c.reverse, decide (b ≠ sep) = true := by
    intro b hb
    refine decide_eq_true ?_
    rintro rfl
    exact hc (List.mem_reverse.mp hb)
  rw [← List.singleton_append, ← List.append_assoc, List.rdropWhile, List.reverse_append,
    List.dropWhile_append_of_pos hplain]
  exact List.rdropWhile_concat_neg _ s sep (by simp)

theorem rdropWhile_render (stack : List (List α)) {c : List α} (hc : sep ∉ c) :
    (render sep stack ++ c).rdropWhile (· ≠ sep) = render sep stack := by
  obtain ⟨s, hs⟩ := render_eq_append sep stack
  rw [hs, List.append_assoc, List.singleton_append]
  exact rdropWhile_append s hc

end Path

end Lib
