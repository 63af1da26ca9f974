import Topfield.Lib.Transport

/-!
# Writing in pieces

A transport that takes no more than `limit` bytes at a time is given a longer buffer in pieces, and the
writing stops at the first piece that is not taken as a whole.
-/

namespace Lib

variable {α : Type} {limit : Nat}

/-- What a buffer is cut into: pieces of `limit` elements, and what is left. -/
def pieces (limit : Nat) (bytes : List α) : List (List α) :=
  if 0 < limit ∧ limit < bytes.length then bytes.take limit :: pieces limit (bytes.drop limit) else [bytes]
termination_by bytes.length
decreasing_by
  rw [List.length_drop]
  omega

theorem pieces_of_le {bytes : List α} (h : bytes.length ≤ limit) : pieces limit bytes = [bytes] := by
  rw [pieces, if_neg fun hlong => Nat.not_lt.mpr h hlong.2]

theorem pieces_of_lt {bytes : List α} (hlimit : 0 < limit) (h : limit < bytes.length) :
    pieces limit bytes = bytes.take limit :: pieces limit (bytes.drop limit) := by
  rw [pieces, if_pos ⟨hlimit, h⟩]

/-- The first piece of a buffer in memory, and the pieces of what is left behind it. -/
theorem pieces_load (m : Mem) (a : Nat) {n k : Nat} (hlimit : 0 < limit)
    (hk : k = if limit < n then limit else n) :
    pieces limit (m.load a n) =
      m.load a k :: if n - k ≠ 0 then pieces limit (m.load (a + k) (n - k)) else [] := by
  by_cases hlong : limit < n
  · rw [if_pos hlong] at hk
    subst hk
    obtain ⟨rest, rfl⟩ := Nat.exists_eq_add_of_le (Nat.le_of_lt hlong)
    have hlength : k < (m.load a (k + rest)).length := by rwa [Mem.length_load]
    have hleft : rest ≠ 0 := by omega
    rw [pieces_of_lt hlimit hlength, Mem.load_add, List.take_left' (Mem.length_load m a k),
      List.drop_left' (Mem.length_load m a k), Nat.add_sub_cancel_left, if_pos hleft]
  · rw [if_neg hlong] at hk
    subst hk
    rw [pieces_of_le (by rw [Mem.length_load]; omega), Nat.sub_self, if_neg (not_not.mpr rfl)]

theorem pieces_append {bytes more : List α} (hcut : limit ∣ bytes.length) (hbytes : bytes ≠ []) (hmore : more ≠ []) :
    pieces limit (bytes ++ more) = pieces limit bytes ++ pieces limit more := by
  have hlimit : 0 < limit :=
    Nat.pos_of_dvd_of_pos hcut (List.length_pos_iff.mpr hbytes)
  obtain ⟨n, hn⟩ := hcut
  induction n generalizing bytes with
  | zero => exact absurd (List.length_eq_zero_iff.mp hn) hbytes
  | succ n ih =>
    have hlonger : limit < (bytes ++ more).length := by
      have hpos := List.length_pos_iff.mpr hmore
      rw [List.length_append, hn, Nat.mul_succ]
      omega
    have hshort : limit ≤ bytes.length := by
      rw [hn, Nat.mul_succ]
      omega
    rw [pieces_of_lt hlimit hlonger, List.take_append_of_le_length hshort, List.drop_append_of_le_length hshort]
    by_cases hlast : bytes.length ≤ limit
    · rw [pieces_of_le hlast, List.take_of_length_le hlast, List.drop_of_length_le hlast]
      rfl
    · have hrest : (bytes.drop limit).length = limit * n := by
        rw [List.length_drop, hn, Nat.mul_succ, Nat.add_sub_cancel]
      rw [pieces_of_lt hlimit (Nat.not_le.mp hlast), ih (fun hnil => hlast (List.drop_eq_nil_iff.mp hnil)) hrest]
      rfl

theorem flatten_pieces (limit : Nat) (bytes : List α) : (pieces limit bytes).flatten = bytes := by
  fun_induction pieces limit bytes with
  | case1 bytes h ih => rw [List.flatten_cons, ih, List.take_append_drop]
  | case2 bytes h => exact List.flatten_singleton

theorem length_pieces_le (hlimit : 0 < limit) (bytes : List α) :
    ∀ piece ∈ pieces limit bytes, piece.length ≤ limit := by
  fun_induction pieces limit bytes with
  | case1 bytes h ih =>
    intro piece hpiece
    rcases List.mem_cons.mp hpiece with rfl | hpiece
    · exact List.length_take_le _ _
    · exact ih piece hpiece
  | case2 bytes h =>
    intro piece hpiece
    obtain rfl := List.mem_singleton.mp hpiece
    omega

/-- All pieces but the last are full, and the last is not empty. -/
theorem pieces_full {bytes : List α} (hlimit : 0 < limit) (hbytes : bytes ≠ []) :
    ∃ full last, pieces limit bytes = full ++ [last] ∧ (∀ piece ∈ full, piece.length = limit) ∧
      0 < last.length ∧ last.length ≤ limit := by
  fun_induction pieces limit bytes with
  | case1 bytes h ih =>
    have hrest : bytes.drop limit ≠ [] := List.ne_nil_of_length_pos (by rw [List.length_drop]; omega)
    obtain ⟨full, last, hpieces, hfull, hlast⟩ := ih hrest
    refine ⟨bytes.take limit :: full, last, congrArg _ hpieces, ?_, hlast⟩
    intro piece hpiece
    obtain rfl | hpiece := List.mem_cons.mp hpiece
    · exact List.length_take_of_le (Nat.le_of_lt h.2)
    · exact hfull piece hpiece
  | case2 bytes h =>
    have hpos := List.length_pos_iff.mpr hbytes
    refine ⟨[], bytes, rfl, List.forall_mem_nil _, hpos, ?_⟩
    by_contra hlong
    exact h ⟨hlimit, by omega⟩

/-- The log of writing the pieces of a buffer one by one, and whether all of them were taken. -/
inductive Written : List (List UInt8) → Bool → List Event → Prop
  | done (piece : List UInt8) : Written [piece] true [.wrote piece piece.length]
  | failed (piece : List UInt8) (rest : List (List UInt8)) {ret : Int} (h : ret ≠ piece.length) :
    Written (piece :: rest) false [.wrote piece ret]
  | next (piece : List UInt8) {rest : List (List UInt8)} {ok : Bool} {log : List Event}
    (h : Written rest ok log) : Written (piece :: rest) ok (.wrote piece piece.length :: log)

namespace Written

variable {ps : List (List UInt8)} {ok : Bool} {log : List Event}

theorem transfers_eq (h : Written ps ok log) (hok : ok = true) : transfers log = ps := by
  induction h with
  | done piece => rfl
  | failed piece rest _ => exact absurd hok Bool.false_ne_true
  | next piece _ ih => exact congrArg (piece :: ·) (ih hok)

theorem head (h : Written ps ok log) : ∃ piece rest more, ps = piece :: rest ∧ transfers log = piece :: more := by
  cases h with
  | done piece => exact ⟨piece, [], [], rfl, rfl⟩
  | failed piece rest _ => exact ⟨piece, rest, [], rfl, rfl⟩
  | next piece _ => exact ⟨piece, _, _, rfl, rfl⟩

theorem not_isRead (h : Written ps ok log) : ∀ ev ∈ log, ¬ ev.IsRead := by
  induction h with
  | done _ => exact List.forall_mem_singleton.mpr not_false
  | failed _ _ _ => exact List.forall_mem_singleton.mpr not_false
  | next _ _ ih => exact List.forall_mem_cons.mpr ⟨not_false, ih⟩

end Written

end Lib
