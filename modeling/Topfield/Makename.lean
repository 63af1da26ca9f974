import Topfield.Packet
import Topfield.Lib.Path

/-!
# Path names

`tf_makename` builds an absolute path in one buffer: it copies the directory and then the file name behind
each other and backs up over the last component when it meets a `..`. The buffer up to `pt` is the list
`out`, and a path holds no zero byte, so that `strrchr` stops at the zero it has just been given.
-/

namespace Topfield

open Lib Lib.Path

abbrev slash : UInt8 := 0x2F
abbrev dot : UInt8 := 0x2E

abbrev dotDot : List UInt8 := [dot, dot]

/-- Back up a directory: to behind the last slash before `pt[-1]`, and not beyond the leading one. -/
def backUp (out : List UInt8) : List UInt8 :=
  if 1 < out.length then out.dropLast.rdropWhile (· ≠ slash) else out.take 1

/-- The loop that copies a path behind `out`. `tf_makename` has it twice, for `dir` and for `filename`. -/
def copyPath (out : List UInt8) : List UInt8 → List UInt8
  | c :: d :: s :: rest =>
    if out.getLast? = some slash ∧ c = dot ∧ d = dot ∧ s = slash then
      copyPath (backUp out) rest
    else
      copyPath (out ++ [c]) (d :: s :: rest)
  | [c, d] =>
    if out.getLast? = some slash ∧ c = dot ∧ d = dot then backUp out else copyPath (out ++ [c]) [d]
  | [c] => out ++ [c]
  | [] => out

def skipSlash (path : List UInt8) : List UInt8 := if path.head? = some slash then path.tail else path

def separate (out : List UInt8) : List UInt8 := if out.getLast? = some slash then out else out ++ [slash]

/-- Remove a trailing slash, unless all we have is a slash. -/
def trimSlash (out : List UInt8) : List UInt8 :=
  if 1 < out.length ∧ out.getLast? = some slash then out.dropLast else out

/-- `filename && *filename == '/'` -/
def isAbsolute : Option CString → Bool
  | none => false
  | some name => name.bytes.head? = some slash

/-- The part of the path that `filename` adds behind a separator. -/
def addFilename (out : List UInt8) : Option CString → List UInt8
  | none => out
  | some name => copyPath (separate out) (skipSlash name.bytes)

/-- The string in the static buffer. An absolute `filename` takes the place of `dir`. -/
def tfMakename (dir : CString) (filename : Option CString) : List UInt8 :=
  let absoluteName := isAbsolute filename
  let dir := if absoluteName then filename.getD dir else dir
  let filename := if absoluteName then none else filename
  trimSlash (addFilename (copyPath [slash] (skipSlash dir.bytes)) filename)

/-! ### The loop -/

theorem copyPath_cons {out : List UInt8} {c : UInt8} (h : ¬ (out.getLast? = some slash ∧ c = dot))
    (src : List UInt8) : copyPath out (c :: src) = copyPath (out ++ [c]) src := by
  match src with
  | [] => rfl
  | [d] => exact if_neg fun hup => h ⟨hup.1, hup.2.1⟩
  | d :: s :: rest => exact if_neg fun hup => h ⟨hup.1, hup.2.1⟩

theorem copyPath_append_of_open {out c : List UInt8} (hout : out.getLast? ≠ some slash) (hc : slash ∉ c)
    (rest : List UInt8) : copyPath out (c ++ rest) = copyPath (out ++ c) rest := by
  induction c generalizing out with
  | nil => rw [List.append_nil, List.nil_append]
  | cons b c ih =>
    have hb : (out ++ [b]).getLast? ≠ some slash := by
      rw [List.getLast?_concat]
      rintro ⟨⟩
      exact hc List.mem_cons_self
    rw [List.cons_append, copyPath_cons fun h => hout h.1,
      ih hb fun h => hc (List.mem_cons_of_mem b h), List.append_assoc, List.singleton_append]

theorem copyPath_append {c : List UInt8} (hc : Component slash c) (hup : c ≠ dotDot) (out : List UInt8)
    {rest : List UInt8} (hrest : ∀ b ∈ rest.head?, b = slash) :
    copyPath out (c ++ rest) = copyPath (out ++ c) rest := by
  obtain ⟨b, c, rfl⟩ := List.exists_cons_of_ne_nil hc.nonempty
  have hb : b ≠ slash := fun h => hc.plain (h ▸ List.mem_cons_self)
  have hopen : (out ++ [b]).getLast? ≠ some slash := by
    rw [List.getLast?_concat]
    exact fun h => hb (Option.some.inj h)
  have hstep : copyPath out (b :: (c ++ rest)) = copyPath (out ++ [b]) (c ++ rest) := by
    match c, rest, hrest with
    | [], [], _ => rfl
    | [], [s], hrest =>
      refine if_neg fun h => ?_
      exact absurd ((hrest s rfl).symm.trans h.2.2) (by decide)
    | [], s :: t :: rest, hrest =>
      refine if_neg fun h => ?_
      exact absurd ((hrest s rfl).symm.trans h.2.2.1) (by decide)
    | [d], [], _ => exact if_neg fun h => hup (by rw [h.2.1, h.2.2])
    | [d], s :: rest, _ => exact if_neg fun h => hup (by rw [h.2.1, h.2.2.1])
    | d :: s :: c, rest, _ =>
      refine if_neg fun h => hc.plain ?_
      rw [h.2.2.2]
      exact List.mem_cons_of_mem b (List.mem_cons_of_mem d List.mem_cons_self)
  have hplain : slash ∉ c := fun h => hc.plain (List.mem_cons_of_mem b h)
  rw [List.cons_append, hstep, copyPath_append_of_open hopen hplain, List.append_assoc,
    List.singleton_append]

theorem copyPath_slash (out rest : List UInt8) :
    copyPath out (slash :: rest) = copyPath (out ++ [slash]) rest :=
  copyPath_cons (fun h => absurd h.2 (by decide)) rest

theorem copyPath_dotDot {out : List UInt8} (hout : out.getLast? = some slash) :
    copyPath out dotDot = backUp out :=
  if_pos ⟨hout, rfl, rfl⟩

theorem copyPath_dotDot_slash {out : List UInt8} (hout : out.getLast? = some slash) (rest : List UInt8) :
    copyPath out (dotDot ++ slash :: rest) = copyPath (backUp out) rest :=
  if_pos ⟨hout, rfl, rfl, rfl⟩

/-! ### The loop on a directory -/

/-- The buffer holds the name of a directory, with or without the separator behind it. -/
structure Names (stack : List (List UInt8)) (out : List UInt8) : Prop where
  nonempty : out ≠ []
  separated : separate out = render slash stack

theorem one_lt_length_render {stack : List (List UInt8)} (hstack : stack ≠ []) :
    1 < (render slash stack).length := by
  obtain rfl | ⟨stack, c, rfl⟩ := stack.eq_nil_or_concat'
  · exact absurd rfl hstack
  rw [render_append, render, List.length_append, List.length_append]
  simp only [List.length_cons]
  omega

theorem backUp_render {stack : List (List UInt8)} (hstack : ∀ c ∈ stack, slash ∉ c) :
    backUp (render slash stack) = render slash stack.dropLast := by
  obtain rfl | ⟨stack, c, rfl⟩ := stack.eq_nil_or_concat'
  · rfl
  have hc := hstack c (List.mem_append_right stack List.mem_cons_self)
  have hlong := one_lt_length_render (List.append_ne_nil_of_right_ne_nil stack (List.cons_ne_nil c []))
  rw [backUp, if_pos hlong, render_append, ← List.append_assoc, List.dropLast_concat, List.dropLast_concat]
  exact rdropWhile_render stack hc

theorem separate_render (stack : List (List UInt8)) : separate (render slash stack) = render slash stack :=
  if_pos (getLast?_render stack)

theorem names_render (stack : List (List UInt8)) : Names stack (render slash stack) :=
  ⟨List.cons_ne_nil _ _, separate_render stack⟩

theorem names_copyPath_last {c : List UInt8} (hc : slash ∉ c) {stack : List (List UInt8)}
    (hstack : ∀ d ∈ stack, slash ∉ d) :
    Names (resolve dotDot stack (pieces slash c)) (copyPath (render slash stack) c) := by
  by_cases hempty : c = []
  · subst hempty
    exact names_render stack
  rw [pieces_last hempty hc]
  show Names (follow dotDot stack c) _
  by_cases hup : c = dotDot
  · subst hup
    rw [copyPath_dotDot (getLast?_render stack), backUp_render hstack, follow_up]
    exact names_render _
  · have hend : ∀ b ∈ ([] : List UInt8).head?, b = slash := fun b hb => nomatch hb
    have hcopy := copyPath_append ⟨hempty, hc⟩ hup (render slash stack) hend
    have hopen : (render slash stack ++ c).getLast? ≠ some slash := by
      rw [List.getLast?_append_of_ne_nil _ hempty]
      exact fun h => hc (List.mem_of_getLast? h)
    rw [List.append_nil] at hcopy
    rw [hcopy, follow_of_ne hup]
    refine ⟨List.append_ne_nil_of_right_ne_nil _ hempty, ?_⟩
    show separate (render slash stack ++ c) = _
    rw [separate, if_neg hopen, render_append, List.append_assoc]

theorem copyPath_piece {c : List UInt8} (hc : slash ∉ c) {stack : List (List UInt8)}
    (hstack : ∀ d ∈ stack, slash ∉ d) (src : List UInt8) :
    copyPath (render slash stack) (c ++ slash :: src) =
      copyPath (render slash (follow dotDot stack c)) src := by
  by_cases hup : c = dotDot
  · subst hup
    rw [copyPath_dotDot_slash (getLast?_render stack), backUp_render hstack, follow_up]
  · rw [follow_of_ne hup, render_append]
    by_cases hempty : c = []
    · subst hempty
      exact copyPath_slash _ src
    · have hnext : ∀ b ∈ (slash :: src).head?, b = slash := fun b hb => (Option.some.inj hb).symm
      rw [copyPath_append ⟨hempty, hc⟩ hup _ hnext, copyPath_slash, List.append_assoc]

/-- Copying a path behind the name of a directory follows all of its pieces. -/
theorem names_copyPath (src : List UInt8) {stack : List (List UInt8)} (hstack : ∀ c ∈ stack, slash ∉ c) :
    Names (resolve dotDot stack (pieces slash src)) (copyPath (render slash stack) src) := by
  induction src using pieces_induction slash generalizing stack with
  | last c hc => exact names_copyPath_last hc hstack
  | step c src hc ih =>
    rw [pieces_append hc, copyPath_piece hc hstack]
    refine ih fun d hd => ?_
    have hfollow : d ∈ resolve dotDot stack [c] := hd
    rcases mem_resolve hfollow with hd | ⟨hd, -⟩
    · exact hstack d hd
    · rwa [List.mem_singleton.mp hd]

theorem Names.trimmed {stack : List (List UInt8)} {out : List UInt8} (h : Names stack out) :
    trimSlash out = absolute slash stack := by
  obtain ⟨hout, hnamed⟩ := h
  by_cases hslash : out.getLast? = some slash
  · rw [separate, if_pos hslash] at hnamed
    subst hnamed
    by_cases hstack : stack = []
    · subst hstack
      rfl
    · rw [trimSlash, if_pos ⟨one_lt_length_render hstack, hslash⟩, dropLast_render stack hstack]
  · have hstack : stack ≠ [] := by
      rintro rfl
      rw [separate, if_neg hslash, render_nil] at hnamed
      exact hout (List.append_left_eq_self.mp hnamed)
    rw [separate, if_neg hslash] at hnamed
    rw [trimSlash, if_neg fun h => hslash h.2, ← dropLast_render stack hstack, ← hnamed,
      List.dropLast_concat]

/-! ### The path name -/

/-- The final stack of `dir` and `filename`. -/
def resolved (dir : CString) (filename : Option CString) : List (List UInt8) :=
  let names := components slash ((filename.map CString.bytes).getD [])
  if isAbsolute filename then resolve dotDot [] names
  else resolve dotDot [] (components slash dir.bytes ++ names)

/-- No two slashes are adjacent. -/
abbrev SingleSlashes (path : CString) : Prop := ¬ [slash, slash] <:+: path.bytes

/-- The pieces of a path behind its first slash. Adjacent slashes have empty ones between them. -/
def piecesOf (path : CString) : List (List UInt8) := pieces slash (skipSlash path.bytes)

def pathPieces (dir : CString) (filename : Option CString) : List (List UInt8) :=
  let names := (filename.map piecesOf).getD []
  if isAbsolute filename then names else piecesOf dir ++ names

/-- The final stack where empty pieces count too: they are pushed, and `..` pops them. -/
def resolvedPieces (dir : CString) (filename : Option CString) : List (List UInt8) :=
  resolve dotDot [] (pathPieces dir filename)

theorem piecesOf_plain (path : CString) : ∀ c ∈ piecesOf path, slash ∉ c := pieces_plain _

theorem plain_pathPieces (dir : CString) (filename : Option CString) :
    ∀ c ∈ pathPieces dir filename, slash ∉ c := by
  have hnames : ∀ c ∈ (filename.map piecesOf).getD [], slash ∉ c := by
    cases filename with
    | none => exact fun c hc => absurd hc List.not_mem_nil
    | some name => exact piecesOf_plain name
  intro c hc
  unfold pathPieces at hc
  split at hc
  · exact hnames c hc
  · rcases List.mem_append.mp hc with hc | hc
    · exact piecesOf_plain dir c hc
    · exact hnames c hc

theorem plain_resolvedPieces (dir : CString) (filename : Option CString) :
    ∀ c ∈ resolvedPieces dir filename, slash ∉ c ∧ c ≠ dotDot := by
  intro c hc
  obtain hc | ⟨hc, hup⟩ := mem_resolve hc
  · exact absurd hc List.not_mem_nil
  · exact ⟨plain_pathPieces dir filename c hc, hup⟩

/-- What is copied for `dir` and `filename` names the directory that their pieces lead to. -/
theorem tfMakename_eq (dir : CString) (filename : Option CString) :
    tfMakename dir filename = absolute slash (resolvedPieces dir filename) := by
  have hroot : ∀ c ∈ ([] : List (List UInt8)), slash ∉ c := fun c hc => absurd hc List.not_mem_nil
  have hdir := names_copyPath (skipSlash dir.bytes) hroot
  cases filename with
  | none =>
    have hpieces : resolvedPieces dir none = resolve dotDot [] (piecesOf dir) :=
      congrArg (resolve dotDot []) (List.append_nil _)
    rw [hpieces]
    exact hdir.trimmed
  | some name =>
    simp only [tfMakename, resolvedPieces, pathPieces]
    by_cases habsolute : isAbsolute (some name)
    · rw [if_pos habsolute, if_pos habsolute, if_pos habsolute]
      exact (names_copyPath (skipSlash name.bytes) hroot).trimmed
    · rw [if_neg habsolute, if_neg habsolute, if_neg habsolute, resolve_append]
      have hstack : ∀ c ∈ resolve dotDot [] (piecesOf dir), slash ∉ c := by
        intro c hc
        obtain hc | ⟨hc, -⟩ := mem_resolve hc
        · exact absurd hc List.not_mem_nil
        · exact piecesOf_plain dir c hc
      show trimSlash (copyPath (separate (copyPath (render slash []) (skipSlash dir.bytes))) _) = _
      rw [hdir.separated]
      exact (names_copyPath (skipSlash name.bytes) hstack).trimmed

theorem components_skipSlash (path : List UInt8) :
    components slash (skipSlash path) = components slash path := by
  unfold skipSlash
  split
  · rename_i hhead
    obtain ⟨rest, rfl⟩ := List.head?_eq_some_iff.mp hhead
    exact (components_sep rest).symm
  · rfl

/-- Without adjacent slashes the pieces are the components. -/
theorem piecesOf_eq_components {path : CString} (hpath : SingleSlashes path) :
    piecesOf path = components slash path.bytes := by
  rw [← components_skipSlash]
  refine Relative.pieces_eq ?_
  unfold skipSlash
  split
  · rename_i hhead
    obtain ⟨rest, hrest⟩ := List.head?_eq_some_iff.mp hhead
    rw [hrest, List.tail_cons]
    refine relative_components (fun hnext => ?_) fun h => ?_
    · obtain ⟨more, rfl⟩ := List.head?_eq_some_iff.mp hnext
      exact hpath (hrest ▸ ⟨[], more, rfl⟩)
    · exact hpath (hrest ▸ h.trans (List.suffix_cons slash rest).isInfix)
  · rename_i hhead
    exact relative_components hhead hpath

/-- **Path resolution.** A path name is the final stack of the components of its directory and its file
name. -/
theorem tfMakename_resolved (dir : CString) (filename : Option CString) (hdir : SingleSlashes dir)
    (hfilename : ∀ name ∈ filename, SingleSlashes name) :
    tfMakename dir filename = absolute slash (resolved dir filename) := by
  rw [tfMakename_eq, resolvedPieces, pathPieces, resolved, piecesOf_eq_components hdir]
  cases filename with
  | none => rfl
  | some name =>
    have hname : (Option.map piecesOf (some name)).getD [] = components slash name.bytes :=
      piecesOf_eq_components (hfilename name rfl)
    rw [hname]
    by_cases habsolute : isAbsolute (some name)
    · simp only [if_pos habsolute]
      rfl
    · simp only [if_neg habsolute]
      rfl

/-- `tf_makename("/a/b", "../c")` is `/a/c`. -/
theorem tfMakename_resolved_parent :
    let dir : CString := ⟨[0x2F, 0x61, 0x2F, 0x62], by decide⟩
    let name : CString := ⟨[0x2E, 0x2E, 0x2F, 0x63], by decide⟩
    tfMakename dir (some name) = absolute slash (resolved dir (some name)) ∧
      tfMakename dir (some name) = [0x2F, 0x61, 0x2F, 0x63] :=
  ⟨tfMakename_resolved _ _ (by decide) (by decide), by decide⟩

end Topfield
