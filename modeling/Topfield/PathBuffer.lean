import Topfield.Commands
import Topfield.Lib.Loop
import Topfield.Lib.Strings
import Topfield.Makename

/-!
# The buffer of a path name

`tf_makename` allocates its buffer for the longest result there can be and keeps the position `pt` in it.
Copying moves `pt` on; a `..` moves it back, behind a slash that `strrchr` finds in what has been written.
Here the function takes its turns on that buffer, one by one, and in every state between two of them `pt` is
inside the buffer, behind the leading slash.
-/

namespace Topfield

open Lib Lib.Path

/-! ### The turns -/

/-- `s[i]` for a string of which `src` is left. -/
def charAt (src : List UInt8) (i : Nat) : UInt8 := src.getD i 0

/-- Where the function is: in the loop over `dir`, in the loop over `filename` or at its end. It is lost if
`strrchr` has found no slash. -/
inductive Phase
  | dir
  | filename
  | done
  | lost
deriving DecidableEq

structure Writer where
  phase : Phase
  buf : Mem
  pt : Nat
  src : List UInt8

/-- A turn of a loop, in a buffer of `size` bytes. -/
def copyTurn (size : Nat) (w : Writer) : Writer :=
  if w.buf (w.pt - 1) = slash ∧ charAt w.src 0 = dot ∧ charAt w.src 1 = dot ∧
      (charAt w.src 2 = slash ∨ charAt w.src 2 = 0) then
    let src := w.src.drop 2
    let src := if charAt src 0 ≠ 0 then src.drop 1 else src
    if 1 < w.pt then
      let buf := w.buf.set (w.pt - 1) 0
      match strrchr (cString buf 0 size) slash with
      | some i => { w with buf, src, pt := i + 1 }
      | none => { w with buf, src, phase := .lost }
    else
      { w with src, pt := 1 }
  else
    { w with buf := w.buf.set w.pt (charAt w.src 0), pt := w.pt + 1, src := w.src.drop 1 }

/-- Between the loops: the separator is added, and a slash before the name skipped. -/
def startFilename (w : Writer) (name : CString) : Writer :=
  if w.buf (w.pt - 1) ≠ slash then
    ⟨.filename, w.buf.set w.pt slash, w.pt + 1, skipSlash name.bytes⟩
  else
    ⟨.filename, w.buf, w.pt, skipSlash name.bytes⟩

/-- Behind the loops: a trailing slash is removed, and the string ends. -/
def finish (w : Writer) : Writer :=
  let pt := if 1 < w.pt ∧ w.buf (w.pt - 1) = slash then w.pt - 1 else w.pt
  { w with phase := .done, buf := w.buf.set pt 0, pt }

def makenameStep (size : Nat) (filename : Option CString) (w : Writer) : Writer :=
  match w.phase with
  | .dir =>
    if charAt w.src 0 ≠ 0 then copyTurn size w
    else
      match filename with
      | some name => startFilename w name
      | none => finish w
  | .filename => if charAt w.src 0 ≠ 0 then copyTurn size w else finish w
  | .done => w
  | .lost => w

/-- The size of the buffer: an extra leading slash, the separator and the terminator. -/
def makenameSize (dir : CString) (filename : Option CString) : Nat :=
  1 + dir.strlen + 1 + (filename.map CString.strlen).getD 0 + 1

/-- `dir` and `filename` when the loops begin. -/
def makenameArgs (dir : CString) (filename : Option CString) : CString × Option CString :=
  if isAbsolute filename then (filename.getD dir, none) else (dir, filename)

/-- The state after `n` turns. `heap` is the memory that `malloc` returns. -/
def makenameRun (heap : Mem) (dir : CString) (filename : Option CString) (n : Nat) : Writer :=
  let args := makenameArgs dir filename
  (makenameStep (makenameSize dir filename) args.2)^[n]
    ⟨.dir, heap.set 0 slash, 1, skipSlash args.1.bytes⟩

/-! ### What has been written -/

/-- The bytes before `pt` are `out`: a leading slash, and no zero among them. -/
structure Filled (w : Writer) (out : List UInt8) : Prop where
  bytes : w.buf.load 0 w.pt = out
  root : out.head? = some slash
  nulFree : 0 ∉ out

variable {w : Writer} {out : List UInt8} {size : Nat}

theorem Filled.length (h : Filled w out) : out.length = w.pt := by
  rw [← h.bytes, Mem.length_load]

theorem Filled.ne_nil (h : Filled w out) : out ≠ [] := by
  rintro rfl
  exact nomatch h.root

theorem Filled.pos (h : Filled w out) : 1 ≤ w.pt := by
  rw [← h.length]
  exact List.length_pos_iff.mpr h.ne_nil

theorem Filled.last (h : Filled w out) : out.getLast? = some (w.buf (w.pt - 1)) := by
  have hpos := h.pos
  rw [← h.bytes, List.getLast?_eq_getElem?, Mem.length_load, List.getElem?_eq_getElem (by simp; omega),
    Mem.getElem_load, Nat.zero_add]

theorem Filled.last_eq_slash (h : Filled w out) :
    w.buf (w.pt - 1) = slash ↔ out.getLast? = some slash := by
  rw [h.last, Option.some.injEq]

/-- `*pt++ = c` -/
theorem Filled.push (h : Filled w out) {c : UInt8} (hc : c ≠ 0) (phase : Phase) (src : List UInt8) :
    Filled ⟨phase, w.buf.set w.pt c, w.pt + 1, src⟩ (out ++ [c]) := by
  refine ⟨?_, ?_, ?_⟩
  · show (w.buf.set w.pt c).load 0 (w.pt + 1) = _
    rw [Mem.load_add, Mem.set_eq_store, Mem.load_store_disjoint _ (.inl (by omega)), h.bytes, Nat.zero_add]
    exact congrArg (out ++ ·) (Mem.load_store_self w.buf w.pt [c])
  · rw [List.head?_append_of_ne_nil _ h.ne_nil]
    exact h.root
  · intro hzero
    rcases List.mem_append.mp hzero with hzero | hzero
    · exact h.nulFree hzero
    · exact hc (List.mem_singleton.mp hzero).symm

theorem Filled.take (h : Filled w out) {n : Nat} (hn : 0 < n) (hle : n ≤ w.pt) {buf : Mem}
    (hbuf : ∀ i < n, buf i = w.buf i) (phase : Phase) (src : List UInt8) :
    Filled ⟨phase, buf, n, src⟩ (out.take n) := by
  refine ⟨?_, ?_, ?_⟩
  · show buf.load 0 n = _
    have hsplit := Mem.load_add w.buf 0 n (w.pt - n)
    rw [Nat.add_sub_cancel' hle, h.bytes] at hsplit
    rw [hsplit, List.take_left' (Mem.length_load _ _ _)]
    refine Mem.load_congr fun i hi => ?_
    rw [Nat.zero_add]
    exact hbuf i hi
  · rw [List.head?_take, if_neg (Nat.ne_of_gt hn)]
    exact h.root
  · exact fun hzero => h.nulFree (List.mem_of_mem_take hzero)

/-- The back-up step finds a slash, and leads to where the list backs up to. -/
theorem Filled.backUp (h : Filled w out) (hpt : 1 < w.pt) (hsize : w.pt ≤ size) :
    ∃ i, strrchr (cString (w.buf.set (w.pt - 1) 0) 0 size) slash = some i ∧ i + 1 < w.pt ∧
      backUp out = out.take (i + 1) := by
  have hlength := h.length
  have hnil := h.ne_nil
  have hset : ∀ i < w.pt - 1, w.buf.set (w.pt - 1) 0 i = w.buf i := fun i hi => Mem.set_of_ne _ _ (by omega)
  have hdrop := h.take (by omega) (by omega) hset w.phase w.src
  obtain ⟨init, b, rfl⟩ := (List.eq_nil_or_concat' out).resolve_left hnil
  rw [List.length_append, List.length_singleton] at hlength
  have hinit : init.length = w.pt - 1 := by omega
  rw [List.take_left' hinit] at hdrop
  have hbytes : (w.buf.set (w.pt - 1) 0).load 0 (w.pt - 1) = init := hdrop.bytes
  have hstring : cString (w.buf.set (w.pt - 1) 0) 0 size = init := by
    refine cString_eq hdrop.nulFree ?_ (by omega)
    rw [List.length_append, List.length_singleton, Mem.load_add, hinit, hbytes, Nat.zero_add]
    exact congrArg (init ++ [·]) (Mem.set_self _ _ _)
  obtain ⟨before, after, rfl, hafter⟩ := exists_last_of_mem (List.mem_of_mem_head? hdrop.root)
  refine ⟨before.length, ?_, ?_, ?_⟩
  · rw [hstring, strrchr_append before hafter]
  · rw [List.length_append, List.length_cons] at hinit
    omega
  · have hlong : 1 < (before ++ slash :: after ++ [b]).length := by
      rw [h.length]
      exact hpt
    rw [Topfield.backUp, if_pos hlong, List.dropLast_concat, rdropWhile_append before hafter]
    symm
    calc
      _ = ((before ++ [slash]) ++ (after ++ [b])).take (before.length + 1) := by simp
      _ = before ++ [slash] := List.take_left' (by simp)

/-! ### The turns on the list -/

theorem exists_up {src : List UInt8} (h0 : charAt src 0 = dot) (h1 : charAt src 1 = dot)
    (h2 : charAt src 2 = slash ∨ charAt src 2 = 0) (hnul : 0 ∉ src) :
    ∃ tail, src = dotDot ++ tail ∧ ∀ b ∈ tail.head?, b = slash := by
  match src, h0, h1, h2, hnul with
  | [_], _, h1, _, _ =>
    have hzero : (0 : UInt8) = dot := h1
    exact absurd hzero (by decide)
  | [c, d], h0, h1, _, _ =>
    obtain rfl : c = dot := h0
    obtain rfl : d = dot := h1
    exact ⟨[], rfl, fun b hb => nomatch hb⟩
  | c :: d :: b :: rest, h0, h1, h2, hnul =>
    obtain rfl : c = dot := h0
    obtain rfl : d = dot := h1
    refine ⟨b :: rest, rfl, fun b' hb' => ?_⟩
    obtain rfl := Option.some.inj hb'
    rcases h2 with h2 | h2
    · exact h2
    · refine absurd ?_ hnul
      rw [← show b = 0 from h2]
      exact List.mem_cons_of_mem _ (List.mem_cons_of_mem _ List.mem_cons_self)

theorem copyPath_up (hout : out.getLast? = some slash) {tail : List UInt8}
    (htail : ∀ b ∈ tail.head?, b = slash) :
    copyPath out (dotDot ++ tail) = copyPath (backUp out) (tail.drop 1) := by
  cases tail with
  | nil => exact copyPath_dotDot hout
  | cons b rest =>
    obtain rfl := htail b rfl
    exact copyPath_dotDot_slash hout rest

theorem copyPath_copy {c : UInt8} {rest : List UInt8}
    (h : ¬ (out.getLast? = some slash ∧ charAt (c :: rest) 0 = dot ∧ charAt (c :: rest) 1 = dot ∧
      (charAt (c :: rest) 2 = slash ∨ charAt (c :: rest) 2 = 0))) :
    copyPath out (c :: rest) = copyPath (out ++ [c]) rest := by
  match rest with
  | [] => rfl
  | [d] => exact if_neg fun hup => h ⟨hup.1, hup.2.1, hup.2.2, .inr rfl⟩
  | d :: b :: rest => exact if_neg fun hup => h ⟨hup.1, hup.2.1, hup.2.2.1, .inl hup.2.2.2⟩

/-- A turn does to the buffer what the loop does to the list: what is left to be done has the same
result, needs no more room, and is less. -/
structure Turned (size : Nat) (w : Writer) (out : List UInt8) (w' : Writer) (out' : List UInt8) : Prop where
  written : Filled w' out'
  copied : copyPath out' w'.src = copyPath out w.src
  room : out'.length + w'.src.length ≤ out.length + w.src.length
  shorter : w'.src.length < w.src.length
  nulFree : 0 ∉ w'.src
  phase : w'.phase = w.phase
  frame : ∀ i, size ≤ i → w'.buf i = w.buf i

theorem skip_tail {tail : List UInt8} (htail : ∀ b ∈ tail.head?, b = slash) :
    (if charAt tail 0 ≠ 0 then tail.drop 1 else tail) = tail.drop 1 := by
  cases tail with
  | nil => rfl
  | cons b rest =>
    obtain rfl := htail b rfl
    have hslash : slash ≠ 0 := by decide
    exact if_pos hslash

theorem turned_up (hw : Filled w out) (hnul : 0 ∉ w.src) (hroom : w.pt + w.src.length < size)
    (hup : w.buf (w.pt - 1) = slash ∧ charAt w.src 0 = dot ∧ charAt w.src 1 = dot ∧
      (charAt w.src 2 = slash ∨ charAt w.src 2 = 0)) :
    ∃ out', Turned size w out (copyTurn size w) out' := by
  obtain ⟨tail, htail, hnext⟩ := exists_up hup.2.1 hup.2.2.1 hup.2.2.2 hnul
  have hcopied := copyPath_up (hw.last_eq_slash.mp hup.1) hnext
  have hrest : 0 ∉ tail.drop 1 := by
    intro h
    rw [htail] at hnul
    exact hnul (List.mem_append_right _ (List.mem_of_mem_drop h))
  have hshorter : (tail.drop 1).length < w.src.length := by
    rw [htail, List.length_append, List.length_drop]
    simp only [List.length_cons]
    omega
  have hskip : (if charAt (w.src.drop 2) 0 ≠ 0 then (w.src.drop 2).drop 1 else w.src.drop 2) =
      tail.drop 1 := by
    rw [htail]
    exact skip_tail hnext
  have htake (n : Nat) : (out.take n).length + (tail.drop 1).length ≤ out.length + w.src.length := by
    rw [List.length_take]
    omega
  rw [copyTurn, if_pos hup]
  simp only [hskip]
  by_cases hpt : 1 < w.pt
  · obtain ⟨i, hfound, hi, hback⟩ := hw.backUp hpt (by omega : w.pt ≤ size)
    have hset (k : Nat) (hk : k ≠ w.pt - 1) : w.buf.set (w.pt - 1) 0 k = w.buf k := Mem.set_of_ne _ _ hk
    have hfilled := hw.take (Nat.succ_pos i) hi.le fun k hk => hset k (by omega)
    rw [if_pos hpt, hfound]
    refine ⟨out.take (i + 1), hfilled _ _, ?_, htake (i + 1), hshorter, hrest, rfl, fun k hk => ?_⟩
    · rw [htail, hcopied, hback]
    · exact hset k (by omega)
  · have hback : backUp out = out.take 1 := if_neg (by rw [hw.length]; exact hpt)
    have hfilled := hw.take Nat.one_pos hw.pos fun k _ => rfl
    rw [if_neg hpt]
    refine ⟨out.take 1, hfilled _ _, ?_, htake 1, hshorter, hrest, rfl, fun k _ => rfl⟩
    rw [htail, hcopied, hback]

theorem turned_copyTurn (hw : Filled w out) (hsrc : w.src ≠ []) (hnul : 0 ∉ w.src)
    (hroom : w.pt + w.src.length < size) : ∃ out', Turned size w out (copyTurn size w) out' := by
  by_cases hup : w.buf (w.pt - 1) = slash ∧ charAt w.src 0 = dot ∧ charAt w.src 1 = dot ∧
      (charAt w.src 2 = slash ∨ charAt w.src 2 = 0)
  · exact turned_up hw hnul hroom hup
  rw [copyTurn, if_neg hup]
  rw [hw.last_eq_slash] at hup
  obtain ⟨c, rest, hcons⟩ := List.exists_cons_of_ne_nil hsrc
  rw [hcons] at hup hnul hroom ⊢
  have hc : c ≠ 0 := fun h => hnul (h ▸ List.mem_cons_self)
  refine ⟨out ++ [c], hw.push hc _ _, ?_, ?_, ?_, fun h => hnul (List.mem_cons_of_mem c h), rfl, ?_⟩
  · rw [hcons, copyPath_copy hup]
    rfl
  · rw [hcons, List.length_append]
    simp only [List.drop_one, List.tail_cons, List.length_cons, List.length_nil]
    omega
  · rw [hcons]
    exact Nat.lt_add_one _
  · exact fun k hk => Mem.set_of_ne _ _ (by omega)

/-! ### The invariant -/

/-- The bytes that the seam between the two strings and `filename` can still take. -/
def reserved (filename : Option CString) : Phase → Nat
  | .dir => (filename.map fun name => 1 + name.strlen).getD 0
  | _ => 0

/-- What becomes of the bytes that a loop leaves. -/
def remaining (filename : Option CString) : Phase → List UInt8 → List UInt8
  | .dir, out => trimSlash (addFilename out filename)
  | .filename, out => trimSlash out
  | _, out => out

/-- There is room for what is left, and it leads to `result`. -/
structure Progress (size : Nat) (filename : Option CString) (result : List UInt8) (w : Writer)
    (out : List UInt8) : Prop where
  written : Filled w out
  nulFree : 0 ∉ w.src
  room : out.length + w.src.length + reserved filename w.phase < size
  leads : remaining filename w.phase (copyPath out w.src) = result
  found : w.phase ≠ .lost
  ended : w.phase = .done → w.src = [] ∧ w.buf w.pt = 0

/-- The bytes behind the buffer are those of the heap. -/
structure Making (heap : Mem) (size : Nat) (filename : Option CString) (result : List UInt8) (w : Writer) :
    Prop where
  progress : ∃ out, Progress size filename result w out
  frame : ∀ i, size ≤ i → w.buf i = heap i

def turnsLeft (filename : Option CString) (w : Writer) : Nat :=
  if w.phase = .done then 0 else w.src.length + reserved filename w.phase + 1

variable {heap : Mem} {filename : Option CString} {result : List UInt8}

theorem charAt_zero_ne_iff {src : List UInt8} (hnul : 0 ∉ src) : charAt src 0 ≠ 0 ↔ src ≠ [] := by
  cases src with
  | nil => exact iff_of_false (fun h => h rfl) fun h => h rfl
  | cons c src =>
    refine iff_of_true ?_ (List.cons_ne_nil c src)
    intro h
    obtain rfl : c = 0 := h
    exact hnul List.mem_cons_self

theorem length_skipSlash_le (path : List UInt8) : (skipSlash path).length ≤ path.length := by
  unfold skipSlash
  split
  · rw [List.length_tail]
    exact Nat.sub_le _ _
  · rfl

theorem nulFree_skipSlash (path : CString) : 0 ∉ skipSlash path.bytes := by
  unfold skipSlash
  split
  · exact fun h => path.nulFree (List.mem_of_mem_tail h)
  · exact path.nulFree

theorem making_copyTurn (hout : Progress size filename result w out)
    (hframe : ∀ i, size ≤ i → w.buf i = heap i) (hphase : w.phase ≠ .done) (hsrc : w.src ≠ []) :
    Making heap size filename result (copyTurn size w) ∧
      turnsLeft filename (copyTurn size w) < turnsLeft filename w := by
  have hroom := hout.room
  rw [hout.written.length] at hroom
  obtain ⟨out', h⟩ := turned_copyTurn hout.written hsrc hout.nulFree (by omega : w.pt + w.src.length < size)
  have hroom' := hout.room
  have hless := h.room
  have hshorter := h.shorter
  refine ⟨⟨⟨out', h.written, h.nulFree, ?_, ?_, ?_, ?_⟩, fun i hi => (h.frame i hi).trans (hframe i hi)⟩, ?_⟩
  · rw [h.phase]
    omega
  · rw [h.phase, h.copied]
    exact hout.leads
  · rw [h.phase]
    exact hout.found
  · rw [h.phase]
    exact fun hdone => absurd hdone hphase
  · rw [turnsLeft, turnsLeft, h.phase, if_neg hphase, if_neg hphase]
    omega

theorem length_separate_le (out : List UInt8) : (separate out).length ≤ out.length + 1 := by
  unfold separate
  split
  · exact Nat.le_add_right _ 1
  · rw [List.length_append, List.length_singleton]

theorem filled_startFilename (hw : Filled w out) (name : CString) :
    Filled (startFilename w name) (separate out) ∧ (startFilename w name).phase = .filename ∧
      (startFilename w name).src = skipSlash name.bytes ∧
      ∀ i, w.pt < i → (startFilename w name).buf i = w.buf i := by
  unfold startFilename
  by_cases hlast : w.buf (w.pt - 1) = slash
  · have hsep : separate out = out := if_pos (hw.last_eq_slash.mp hlast)
    rw [if_neg (not_not_intro hlast), hsep]
    exact ⟨⟨hw.bytes, hw.root, hw.nulFree⟩, rfl, rfl, fun i _ => rfl⟩
  · have hsep : separate out = out ++ [slash] := if_neg fun h => hlast (hw.last_eq_slash.mpr h)
    have hslash : slash ≠ 0 := by decide
    rw [if_pos hlast, hsep]
    exact ⟨hw.push hslash _ _, rfl, rfl, fun i hi => Mem.set_of_ne _ _ (Nat.ne_of_gt hi)⟩

theorem making_startFilename {name : CString} (hout : Progress size (some name) result w out)
    (hframe : ∀ i, size ≤ i → w.buf i = heap i) (hphase : w.phase = .dir) (hsrc : w.src = []) :
    Making heap size (some name) result (startFilename w name) ∧
      turnsLeft (some name) (startFilename w name) < turnsLeft (some name) w := by
  obtain ⟨hfilled, hphase', hsrc', hbuf⟩ := filled_startFilename hout.written name
  have hlength := hout.written.length
  have hseparate := length_separate_le out
  have hname := length_skipSlash_le name.bytes
  have hdir : reserved (some name) .dir = 1 + name.bytes.length := rfl
  have hfilename : reserved (some name) .filename = 0 := rfl
  have hroom := hout.room
  have hleads := hout.leads
  rw [hphase, hsrc, hdir, List.length_nil] at hroom
  rw [hphase, hsrc, copyPath] at hleads
  have hleft : turnsLeft (some name) w = 1 + name.bytes.length + 1 := by
    rw [turnsLeft, hphase, hsrc, hdir, List.length_nil, Nat.zero_add]
    exact if_neg (by decide)
  refine ⟨⟨⟨separate out, hfilled, ?_, ?_, ?_, ?_, ?_⟩, fun i hi => ?_⟩, ?_⟩
  · rw [hsrc']
    exact nulFree_skipSlash name
  · rw [hsrc', hphase', hfilename]
    omega
  · rw [hsrc', hphase', ← hleads]
    rfl
  · rw [hphase']
    decide
  · rw [hphase']
    exact Phase.noConfusion
  · rw [hbuf i (by omega), hframe i hi]
  · rw [turnsLeft, hphase', hsrc', hleft, hfilename, if_neg (by decide)]
    omega

theorem making_finish (hout : Progress size filename result w out)
    (hframe : ∀ i, size ≤ i → w.buf i = heap i) (hsrc : w.src = [])
    (hrest : remaining filename w.phase out = trimSlash out) :
    Making heap size filename result (finish w) ∧ turnsLeft filename (finish w) = 0 := by
  have hlength := hout.written.length
  have hroom := hout.room
  have hleads := hout.leads
  have hpos := hout.written.pos
  have hcopy : copyPath out [] = out := by rw [copyPath]
  rw [hsrc, hcopy, hrest] at hleads
  have hpt : ∃ pt, finish w = ⟨.done, w.buf.set pt 0, pt, []⟩ ∧ 0 < pt ∧ pt ≤ w.pt ∧
      trimSlash out = out.take pt := by
    by_cases htrim : 1 < w.pt ∧ w.buf (w.pt - 1) = slash
    · refine ⟨w.pt - 1, ?_, by omega, by omega, ?_⟩
      · simp only [finish, if_pos htrim, hsrc]
      · rw [hout.written.last_eq_slash, ← hlength] at htrim
        rw [trimSlash, if_pos htrim, List.dropLast_eq_take, hlength]
    · refine ⟨w.pt, ?_, hpos, le_rfl, ?_⟩
      · simp only [finish, if_neg htrim, hsrc]
      · rw [hout.written.last_eq_slash, ← hlength] at htrim
        rw [trimSlash, if_neg htrim, ← hlength, List.take_length]
  obtain ⟨pt, hfinish, hpt, hle, htake⟩ := hpt
  rw [hfinish]
  have hbuf : ∀ i < pt, w.buf.set pt 0 i = w.buf i := fun i hi => Mem.set_of_ne _ _ (by omega)
  refine ⟨⟨⟨out.take pt, hout.written.take hpt hle hbuf _ _, List.not_mem_nil, ?_, ?_, Phase.noConfusion,
    fun _ => ⟨rfl, Mem.set_self _ _ _⟩⟩, fun i hi => ?_⟩, if_pos rfl⟩
  · rw [List.length_take]
    simp only [reserved, List.length_nil]
    omega
  · rw [← hleads, htake]
    show copyPath (out.take pt) [] = _
    rw [copyPath]
  · exact (Mem.set_of_ne _ _ (by omega)).trans (hframe i hi)

theorem making_step (h : Making heap size filename result w) (hphase : w.phase ≠ .done) :
    Making heap size filename result (makenameStep size filename w) ∧
      turnsLeft filename (makenameStep size filename w) < turnsLeft filename w := by
  obtain ⟨⟨out, hout⟩, hframe⟩ := h
  have hleft : 0 < turnsLeft filename w := by
    rw [turnsLeft, if_neg hphase]
    exact Nat.succ_pos _
  by_cases hsrc : w.src = []
  · have hend : ¬ charAt w.src 0 ≠ 0 := fun h => (charAt_zero_ne_iff hout.nulFree).mp h hsrc
    have hfinish (hrest : remaining filename w.phase out = trimSlash out) :
        Making heap size filename result (finish w) ∧
          turnsLeft filename (finish w) < turnsLeft filename w := by
      obtain ⟨hmaking, hzero⟩ := making_finish hout hframe hsrc hrest
      exact ⟨hmaking, hzero ▸ hleft⟩
    cases hcase : w.phase with
    | dir =>
      simp only [makenameStep, hcase, if_neg hend]
      cases filename with
      | none => exact hfinish (by rw [hcase]; rfl)
      | some name => exact making_startFilename hout hframe hcase hsrc
    | filename =>
      simp only [makenameStep, hcase, if_neg hend]
      exact hfinish (by rw [hcase]; rfl)
    | done => exact absurd hcase hphase
    | lost => exact absurd hcase hout.found
  · have hmore := (charAt_zero_ne_iff hout.nulFree).mpr hsrc
    have hturn := making_copyTurn hout hframe hphase hsrc
    cases hcase : w.phase with
    | dir => simpa only [makenameStep, hcase, if_pos hmore] using hturn
    | filename => simpa only [makenameStep, hcase, if_pos hmore] using hturn
    | done => exact absurd hcase hphase
    | lost => exact absurd hcase hout.found

theorem Making.step (h : Making heap size filename result w) :
    Making heap size filename result (makenameStep size filename w) := by
  by_cases hdone : w.phase = .done
  · simp only [makenameStep, hdone]
    exact h
  · exact (making_step h hdone).1

/-! ### The call -/

theorem reserved_args_lt (dir : CString) (filename : Option CString) :
    1 + (makenameArgs dir filename).1.strlen + reserved (makenameArgs dir filename).2 .dir <
      makenameSize dir filename := by
  rw [makenameArgs, makenameSize]
  cases filename with
  | none =>
    simp only [isAbsolute, reserved, Bool.false_eq_true, if_false, Option.map_none, Option.getD_none]
    omega
  | some name =>
    split
    · simp only [reserved, Option.getD_some, Option.map_some, Option.map_none, Option.getD_none]
      omega
    · simp only [reserved, Option.getD_some, Option.map_some]
      omega

theorem tfMakename_args (dir : CString) (filename : Option CString) :
    trimSlash (addFilename (copyPath [slash] (skipSlash (makenameArgs dir filename).1.bytes))
      (makenameArgs dir filename).2) = tfMakename dir filename := by
  simp only [makenameArgs, tfMakename]
  split
  · rfl
  · rfl

theorem making_start (heap : Mem) (dir : CString) (filename : Option CString) :
    let args := makenameArgs dir filename
    let w : Writer := ⟨.dir, heap.set 0 slash, 1, skipSlash args.1.bytes⟩
    Making heap (makenameSize dir filename) args.2 (tfMakename dir filename) w ∧
      turnsLeft args.2 w < makenameSize dir filename := by
  intro args w
  have hsize : 1 + args.1.bytes.length + reserved args.2 .dir < makenameSize dir filename :=
    reserved_args_lt dir filename
  have hlength := length_skipSlash_le args.1.bytes
  have hbytes : w.buf.load 0 1 = [slash] := congrArg (· :: []) (Mem.set_self heap 0 slash)
  have hnul : 0 ∉ [slash] := by decide
  refine ⟨⟨⟨[slash], ⟨hbytes, rfl, hnul⟩, nulFree_skipSlash args.1, ?_, tfMakename_args dir filename,
    Phase.noConfusion, Phase.noConfusion⟩, fun i hi => Mem.set_of_ne _ _ (by omega)⟩, ?_⟩
  · rw [List.length_singleton]
    show 1 + (skipSlash args.1.bytes).length + reserved args.2 .dir < _
    omega
  · rw [turnsLeft, if_neg Phase.noConfusion]
    show (skipSlash args.1.bytes).length + reserved args.2 .dir + 1 < _
    omega

theorem making_run (heap : Mem) (dir : CString) (filename : Option CString) (n : Nat) :
    Making heap (makenameSize dir filename) (makenameArgs dir filename).2 (tfMakename dir filename)
      (makenameRun heap dir filename n) := by
  refine Function.Iterate.rec (fun w => Making _ _ _ _ w) ?_ (fun w => Making.step) n
  exact (making_start heap dir filename).1

/-- `pt` is in the buffer, behind the leading slash; what is behind the buffer is as it was; and every back-up
has found a slash. -/
structure Inside (heap : Mem) (size : Nat) (w : Writer) : Prop where
  low : 1 ≤ w.pt
  high : w.pt < size
  frame : ∀ i, size ≤ i → w.buf i = heap i
  found : w.phase ≠ .lost

theorem Making.inside (h : Making heap size filename result w) : Inside heap size w := by
  obtain ⟨⟨out, hout⟩, hframe⟩ := h
  have hroom := hout.room
  rw [hout.written.length] at hroom
  exact ⟨hout.written.pos, by omega, hframe, hout.found⟩

theorem Making.written (h : Making heap size filename result w) (hdone : w.phase = .done) :
    Filled w result ∧ w.buf w.pt = 0 := by
  obtain ⟨⟨out, hout⟩, -⟩ := h
  obtain ⟨hsrc, hzero⟩ := hout.ended hdone
  have hleads := hout.leads
  rw [hdone, hsrc, copyPath] at hleads
  obtain rfl : out = result := hleads
  exact ⟨hout.written, hzero⟩

theorem Making.string (h : Making heap size filename result w) (hdone : w.phase = .done) :
    cString w.buf 0 size = result := by
  obtain ⟨hwritten, hzero⟩ := h.written hdone
  have hhigh := h.inside.high
  have hlength := hwritten.length
  refine cString_eq hwritten.nulFree ?_ (by omega)
  rw [List.length_append, List.length_singleton, Mem.load_add, hlength, hwritten.bytes, Nat.zero_add]
  exact congrArg (result ++ [·]) hzero

/-- No component of a path name leads back. -/
theorem dotDot_not_mem_tfMakename (dir : CString) (filename : Option CString) :
    dotDot ∉ (tfMakename dir filename).splitOn slash := by
  have hplain := plain_resolvedPieces dir filename
  rw [tfMakename_eq]
  intro h
  rcases mem_splitOn_absolute (fun c hc => (hplain c hc).1) h with hnil | hmem
  · exact absurd hnil (by decide)
  · exact (hplain _ hmem).2 rfl

theorem exists_making_done (heap : Mem) (dir : CString) (filename : Option CString) :
    ∃ n ≤ makenameSize dir filename, (makenameRun heap dir filename n).phase = .done := by
  obtain ⟨hstart, hturns⟩ := making_start heap dir filename
  obtain ⟨n, hn, hdone⟩ := exists_iterate _ (fun w h hphase => making_step h hphase) hstart
  exact ⟨n, by omega, hdone⟩

/-- A path name holds no zero. -/
theorem nulFree_tfMakename (dir : CString) (filename : Option CString) : 0 ∉ tfMakename dir filename := by
  obtain ⟨n, -, hdone⟩ := exists_making_done (fun _ => 0) dir filename
  exact ((making_run _ dir filename n).written hdone).1.nulFree

/-- **The buffer.** In every state `pt` is inside the buffer, and the call ends with an absolute path name
without a `..` in it. -/
theorem tfMakename_inside (heap : Mem) (dir : CString) (filename : Option CString) :
    (∀ n, Inside heap (makenameSize dir filename) (makenameRun heap dir filename n)) ∧
      ∃ n ≤ makenameSize dir filename, (makenameRun heap dir filename n).phase = .done ∧
        let r := cString (makenameRun heap dir filename n).buf 0 (makenameSize dir filename)
        r = tfMakename dir filename ∧ r.head? = some slash ∧ dotDot ∉ r.splitOn slash := by
  obtain ⟨n, hn, hdone⟩ := exists_making_done heap dir filename
  have hstring := (making_run heap dir filename n).string hdone
  refine ⟨fun n => (making_run heap dir filename n).inside, n, hn, hdone, hstring, ?_, ?_⟩
  · rw [hstring, tfMakename_eq]
    rfl
  · rw [hstring]
    exact dotDot_not_mem_tfMakename dir filename

end Topfield
