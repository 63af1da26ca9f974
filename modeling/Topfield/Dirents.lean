import Mathlib.Data.List.TakeWhile
import Topfield.Bounds
import Topfield.Lib.Strings

/-!
# Directory entries in memory

`unpack_dirent` fills in a `tf_dirent`, and copies the name with `strcpy`: from the 95 bytes of a record's
name field into the 95 bytes of the entry's. The copy stays inside both exactly if there is a zero among
the bytes of the field, which only the device decides.
-/

namespace Topfield

open Lib

variable {σ : Type} (e : Env σ)

/-! ### The layout

`tf_dirent` where a pointer has 64 bits: `stamp` at 0, `type` at 8, `size` at 16, `name` at 24 and `attrib`
at 120. The entries of `tf_dir_entries` follow each other. -/

abbrev sizeofDirent : Nat := 128

abbrev sizeofName : Nat := 95

/-- The copy of the name in the record at `a` of a packet to the entry at `d`. -/
def copyName (dest : Mem) (d : Nat) (m : Mem) (a : Nat) : Mem :=
  dest.strcpy (d + 24) m (a + 14) (sizeofPacket - (a + 14))

/-- `unpack_dirent` on the memory behind its pointers. -/
def unpackDirentAt (dest : Mem) (d : Nat) (m : Mem) (a : Nat) : Mem :=
  let x := unpackDirent e m a
  let dest := dest.store d (toLE 8 (sizeT x.stamp))
  let dest := dest.set (d + 8) x.type
  let dest := dest.store (d + 16) (toLE 8 x.size.toNat)
  let dest := copyName dest d m a
  dest.store (d + 120) (toLE 4 x.attrib.toNat)

/-- The loop of `get_dirents` over the first `n` records of a packet. -/
def unpackEntriesAt (dest : Mem) (d : Nat) (m : Mem) : Nat → Mem
  | 0 => dest
  | n + 1 =>
    unpackDirentAt e (unpackEntriesAt dest d m n) (d + sizeofDirent * n) m (8 + sizeofTypefile * n)

def NameTerminated (m : Mem) (a : Nat) : Prop := m.Terminated (a + 14) sizeofName

/-- The copy of a name stays in the record's field and in the entry's. -/
structure NameCopied (m : Mem) (a : Nat) : Prop where
  reads : ∀ m' : Mem, (∀ k < sizeofName, m' (a + 14 + k) = m (a + 14 + k)) →
    ∀ dest d, copyName dest d m' a = copyName dest d m a
  string : ∀ dest d, (copyName dest d m a).Terminated (d + 24) sizeofName
  frame : ∀ dest d i, i < d + 24 ∨ d + 24 + sizeofName ≤ i → copyName dest d m a i = dest i

theorem copyName_frame {m : Mem} {a : Nat} (dest : Mem) {d i : Nat} (hterm : NameTerminated m a)
    (ha : a + 14 + sizeofName ≤ sizeofPacket) (h : i < d + 24 ∨ d + 24 + sizeofName ≤ i) :
    copyName dest d m a i = dest i := by
  rcases h with hbelow | habove
  · exact Mem.strcpy_below dest m _ _ hbelow
  · exact Mem.strcpy_above dest hterm (by omega) habove

/-- **One name.** The copy stays in both fields exactly if the record's holds a terminated string. -/
theorem nameCopied_iff {m : Mem} {a : Nat} (ha : a + 14 + sizeofName < sizeofPacket) :
    NameCopied m a ↔ NameTerminated m a := by
  constructor
  · intro h
    by_contra hterm
    -- the byte behind the field is copied too, over one that differs
    have hpast := Mem.strcpy_past (fun _ => m (a + 14 + sizeofName) + 1) 24 hterm
      (by omega : sizeofName < sizeofPacket - (a + 14))
    have hframe := h.frame (fun _ => m (a + 14 + sizeofName) + 1) 0 (24 + sizeofName)
      (.inr (by omega))
    have hsame : m (a + 14 + sizeofName) = m (a + 14 + sizeofName) + 1 := hpast.symm.trans hframe
    have hvalue := congrArg UInt8.toNat hsame
    have hone : (1 : UInt8).toNat = 1 := rfl
    rw [UInt8.toNat_add, hone] at hvalue
    omega
  · intro hterm
    refine ⟨fun m' hsame dest d => ?_, fun dest d => ?_, fun dest d i hi => ?_⟩
    · exact Mem.strcpy_congr dest (d + 24) hterm (by omega) hsame
    · exact Mem.terminated_strcpy dest (d + 24) hterm (by omega)
    · exact copyName_frame dest hterm (by omega) hi

/-! ### The entries that the calls unpack -/

theorem direntCount_neg {reply : Mem} (h : (packetLength reply).toNat < 8) : direntCount reply < 0 := by
  have hsize : sizeT ((packetLength reply).toNat - 8) / sizeofTypefile = 161813544506224136 := by
    rw [sizeT]
    simp only [sizeofTypefile]
    omega
  rw [direntCount, hsize]
  decide

theorem record_inside {reply : Mem} {i : Nat} (hi : i < direntCount reply) :
    8 + sizeofTypefile * i + sizeofTypefile ≤ 0xFFFF := by
  have hlt := (packetLength reply).toNat_lt
  by_cases h : 8 ≤ (packetLength reply).toNat
  · rw [direntCount_eq h] at hi
    have hrecords := Nat.div_mul_le_self ((packetLength reply).toNat - 8) sizeofTypefile
    simp only [sizeofTypefile] at hi hrecords ⊢
    omega
  · have hneg := direntCount_neg (by omega : (packetLength reply).toNat < 8)
    omega

/-- The names that a DIRENT packet read by `get_dirents` makes it copy. -/
def ListedNames (tf : TfHandle σ) (P : Mem → Nat → Prop) : Prop :=
  ∀ reply, nextResponse e tf = some reply → packetCmd reply = tfMsgHddDirent →
    ∀ i : Nat, i < direntCount reply → P reply (8 + sizeofTypefile * i)

/-- The name that a FILE_START packet in reply to a `tf_cmd_get` makes it copy. -/
def StartedName (tf : TfHandle σ) (path : CString) (offset : UInt64) (P : Mem → Nat → Prop) : Prop :=
  ∀ reply, firstReply e tf ((Request.fileGet path offset).build (e.stack tf.usb)) = some reply →
    packetCmd reply = tfMsgHddFileStart → P reply 8

/-- **Names.** The names of a listing and of a file to get are copied inside their fields exactly if every
name field that is unpacked holds a terminated string. -/
theorem namesCopied_iff (tf : TfHandle σ) :
    (ListedNames e tf NameCopied ↔ ListedNames e tf NameTerminated) ∧
      ∀ path offset,
        StartedName e tf path offset NameCopied ↔ StartedName e tf path offset NameTerminated := by
  have hlisted {reply : Mem} {i : Nat} (hi : i < direntCount reply) :
      NameCopied reply (8 + sizeofTypefile * i) ↔ NameTerminated reply (8 + sizeofTypefile * i) := by
    have hrecord := record_inside hi
    refine nameCopied_iff ?_
    simp only [sizeofTypefile] at hrecord ⊢
    simp only [sizeofName, sizeofPacket]
    omega
  have hstarted (reply : Mem) : NameCopied reply 8 ↔ NameTerminated reply 8 :=
    nameCopied_iff (by decide)
  refine ⟨⟨?_, ?_⟩, fun path offset => ⟨?_, ?_⟩⟩
  · intro h reply hreply hcmd i hi
    exact (hlisted hi).mp (h reply hreply hcmd i hi)
  · intro h reply hreply hcmd i hi
    exact (hlisted hi).mpr (h reply hreply hcmd i hi)
  · intro h reply hreply hcmd
    exact (hstarted reply).mp (h reply hreply hcmd)
  · intro h reply hreply hcmd
    exact (hstarted reply).mpr (h reply hreply hcmd)

/-- A file descriptor whose name field has no zero. -/
def unterminatedStart : Packet where
  cmd := tfMsgHddFileStart
  payload := List.replicate 114 0x61
  fits := by
    rw [List.length_replicate]
    exact Nat.le_of_ble_eq_true rfl

/-- A name of 95 bytes without a zero is copied past both fields. -/
theorem not_namesCopied_unterminated :
    ¬ StartedName ((replying unterminatedStart).env (Host.blank Unit)) (TfHandle.opened () fun _ => 0)
      ⟨[0x2F, 0x61], by decide⟩ 0 NameCopied := by
  intro h
  have hterm := ((namesCopied_iff _ _).2 _ _).mp h
  obtain ⟨reply, hreply, hreceived⟩ := firstReply_replying unterminatedStart (Host.blank Unit)
    (TfHandle.opened () fun _ => 0) _ rfl
  obtain ⟨k, hk, hzero⟩ := hterm reply hreply hreceived.cmd
  have hdata := (Mem.load_eq_iff reply 8 unterminatedStart.payload).mp hreceived.data (14 - 8 + 8 + k)
    (by simp only [unterminatedStart, List.length_replicate]; simp only [sizeofName] at hk; omega)
  simp only [unterminatedStart, List.getElem_replicate] at hdata
  rw [show 8 + (14 - 8 + 8 + k) = 8 + 14 + k by omega, hzero] at hdata
  exact absurd hdata (by decide)

/-! ### The entries as records

The entries that `unpackEntries` lists are the ones in memory, whatever their names have spilled into the
entries behind them. -/

/-- The `tf_dirent` at `d`, its name read as far as the entry goes. -/
structure Represents (m : Mem) (d : Nat) (x : TfDirent) : Prop where
  stamp : m.load d 8 = toLE 8 (sizeT x.stamp)
  type : m (d + 8) = x.type
  size : m.load (d + 16) 8 = toLE 8 x.size.toNat
  name : cString m (d + 24) (sizeofDirent - 24) = x.name
  attrib : m.load (d + 120) 4 = toLE 4 x.attrib.toNat

theorem cString_congr {m m' : Mem} {a fuel : Nat} (h : ∀ k < fuel, m' (a + k) = m (a + k)) :
    cString m' a fuel = cString m a fuel := by
  induction fuel generalizing a with
  | zero => rfl
  | succ fuel ih =>
    have hhead : m' a = m a := h 0 (by omega)
    have htail : cString m' (a + 1) fuel = cString m (a + 1) fuel := by
      refine ih fun k hk => ?_
      rw [Nat.add_assoc, Nat.add_comm 1]
      exact h (k + 1) (by omega)
    rw [cString, cString, hhead, htail]

theorem notMem_cString (m : Mem) (a fuel : Nat) : 0 ∉ cString m a fuel := by
  induction fuel generalizing a with
  | zero => exact List.not_mem_nil
  | succ fuel ih =>
    rw [cString]
    split_ifs with hzero
    · exact List.not_mem_nil
    · exact fun hmem => (List.mem_cons.mp hmem).elim (fun h => hzero h.symm) (ih (a + 1))

theorem load_strcpy (dest : Mem) (d : Nat) {src : Mem} {s fuel k : Nat}
    (hk : k ≤ (cString src s fuel).length) :
    (dest.strcpy d src s fuel).load d k = (cString src s fuel).take k := by
  induction fuel generalizing dest d s k with
  | zero =>
    obtain rfl : k = 0 := Nat.le_zero.mp hk
    rfl
  | succ fuel ih =>
    cases k with
    | zero => rfl
    | succ k =>
      rw [cString] at hk ⊢
      rw [Mem.strcpy]
      by_cases hs : src s = 0
      · rw [if_pos hs] at hk
        exact absurd hk (Nat.not_succ_le_zero k)
      · have hhead : (dest.set d (src s)).strcpy (d + 1) src (s + 1) fuel d = src s := by
          rw [Mem.strcpy_below _ _ _ _ (Nat.lt_add_one d), Mem.set_self]
        rw [if_neg hs] at hk ⊢
        rw [if_neg hs, Mem.load_succ, hhead, ih _ (d + 1) (Nat.le_of_succ_le_succ hk), List.take_succ_cons]

theorem strcpy_end (dest : Mem) (d : Nat) {src : Mem} {s fuel : Nat}
    (h : (cString src s fuel).length < fuel) :
    dest.strcpy d src s fuel (d + (cString src s fuel).length) = 0 := by
  induction fuel generalizing dest d s with
  | zero => exact absurd h (Nat.not_lt_zero _)
  | succ fuel ih =>
    rw [cString] at h ⊢
    rw [Mem.strcpy]
    by_cases hs : src s = 0
    · rw [if_pos hs, if_pos hs]
      exact Mem.set_self dest d 0
    · rw [if_neg hs, List.length_cons] at h
      rw [if_neg hs, if_neg hs, List.length_cons, Nat.add_comm (List.length _), ← Nat.add_assoc]
      exact ih _ (d + 1) (Nat.lt_of_succ_lt_succ h)

theorem takeWhile_zero {bytes : List UInt8} (h : 0 ∈ bytes) :
    ∃ rest, bytes = (bytes.takeWhile fun b => b ≠ 0) ++ [0] ++ rest := by
  induction bytes with
  | nil => exact absurd h List.not_mem_nil
  | cons b bytes ih =>
    by_cases hb : b = 0
    · subst hb
      exact ⟨bytes, rfl⟩
    · obtain ⟨rest, hrest⟩ := ih ((List.mem_cons.mp h).resolve_left fun h => hb h.symm)
      refine ⟨rest, ?_⟩
      rw [List.takeWhile_cons_of_pos (by simpa using hb), List.cons_append, List.cons_append, ← hrest]

theorem cString_dirent {m : Mem} {d fuel : Nat} {copied : List UInt8} {attrib : UInt16} (hnul : 0 ∉ copied)
    (hcopied : ∀ k, k ≤ copied.length → k ≤ 96 → m.load d k = copied.take k)
    (hend : copied.length < 96 → m (d + copied.length) = 0)
    (hattrib : m.load (d + 96) 4 = toLE 4 attrib.toNat) (hfuel : 100 ≤ fuel) :
    cString m d fuel = direntName copied attrib.toUInt32 := by
  by_cases hshort : copied.length < 96
  · have hload := hcopied copied.length le_rfl (Nat.le_of_lt hshort)
    rw [List.take_length] at hload
    rw [direntName_of_lt hshort]
    refine cString_eq hnul ?_ (by omega)
    rw [List.length_append, Mem.load_add, hload]
    exact congrArg (fun last => copied ++ [last]) (hend hshort)
  · have hfirst := hcopied 96 (Nat.not_lt.mp hshort) le_rfl
    have hlength : (copied.take 96).length = 96 := List.length_take_of_le (Nat.not_lt.mp hshort)
    have hzero : (0 : UInt8) ∈ toLE 4 attrib.toNat := by
      have hupper : attrib.toNat / 65536 = 0 := Nat.div_eq_of_lt attrib.toNat_lt
      simp [toLE, toBE, hupper]
    obtain ⟨rest, hrest⟩ := takeWhile_zero hzero
    have hshown : 0 ∉ (toLE 4 attrib.toNat).takeWhile fun b => b ≠ 0 := by
      intro hmem
      simpa using List.mem_takeWhile_imp hmem
    have hwidth := congrArg List.length hrest
    rw [direntName, if_neg hshort, UInt16.toNat_toUInt32]
    generalize (toLE 4 attrib.toNat).takeWhile (fun b => b ≠ 0) = shown at hrest hshown hwidth ⊢
    have hrun := Mem.load_prefix (hattrib.trans hrest)
    simp only [length_toLE, List.length_append, List.length_singleton] at hwidth
    refine cString_eq ?_ ?_ ?_
    · exact fun hmem => (List.mem_append.mp hmem).elim (fun h => hnul (List.mem_of_mem_take h)) hshown
    · rw [List.append_assoc, List.length_append, hlength, Mem.load_add, hfirst, hrun]
    · rw [List.length_append, hlength]
      omega

theorem Represents.congr {m m' : Mem} {d : Nat} {x : TfDirent} (h : Represents m d x)
    (hsame : ∀ k < sizeofDirent, m' (d + k) = m (d + k)) : Represents m' d x := by
  have hload (a n : Nat) (ha : a + n ≤ sizeofDirent) : m'.load (d + a) n = m.load (d + a) n := by
    refine Mem.load_congr fun i hi => ?_
    rw [Nat.add_assoc]
    exact hsame (a + i) (by omega)
  refine ⟨?_, ?_, ?_, ?_, ?_⟩
  · exact (hload 0 8 (by decide)).trans h.stamp
  · exact (hsame 8 (by decide)).trans h.type
  · exact (hload 16 8 (by decide)).trans h.size
  · refine (cString_congr fun k hk => ?_).trans h.name
    rw [Nat.add_assoc]
    exact hsame (24 + k) (by omega)
  · exact (hload 120 4 (by decide)).trans h.attrib

theorem Represents.alone {m : Mem} {d : Nat} {x : TfDirent} (h : Represents m d x) : Represents m d x.alone :=
  ⟨h.stamp, h.type, h.size, h.name, h.attrib⟩

theorem unpackDirentAt_below (dest : Mem) {d i : Nat} (m : Mem) (a : Nat) (hi : i < d) :
    unpackDirentAt e dest d m a i = dest i := by
  simp only [unpackDirentAt, copyName, Mem.set_eq_store]
  rw [Mem.store_below _ (by omega), Mem.strcpy_below _ _ _ _ (by omega), Mem.store_below _ (by omega),
    Mem.store_below _ (by omega), Mem.store_below _ hi]

theorem represents_unpackDirentAt (dest : Mem) (d : Nat) {m : Mem} {a : Nat} (ha : a + 114 ≤ sizeofPacket) :
    Represents (unpackDirentAt e dest d m a) d (unpackDirent e m a) := by
  have hbelow (dest : Mem) (b n : Nat) (hb : b + n ≤ d + 24) : (copyName dest d m a).load b n = dest.load b n :=
    Mem.load_congr fun i hi => Mem.strcpy_below dest m _ _ (by omega)
  have hself (dest : Mem) (b w x : Nat) : (dest.store b (toLE w x)).load b w = toLE w x := by
    have h := Mem.load_store_self dest b (toLE w x)
    rwa [length_toLE] at h
  simp only [unpackDirentAt]
  refine ⟨?_, ?_, ?_, ?_, ?_⟩
  · rw [Mem.load_store_disjoint _ (.inl (by omega)), hbelow _ _ _ (by omega),
      Mem.load_store_disjoint _ (.inl (by omega)), Mem.set_eq_store,
      Mem.load_store_disjoint _ (.inl (by omega)), hself]
  · rw [Mem.store_below _ (by omega), copyName, Mem.strcpy_below _ _ _ _ (by omega),
      Mem.store_below _ (by omega), Mem.set_self]
  · rw [Mem.load_store_disjoint _ (.inl (by omega)), hbelow _ _ _ (by omega), hself]
  · refine cString_dirent (notMem_cString m (a + 14) _) (fun k hk hshort => ?_) (fun hshort => ?_) ?_ (by decide)
    · rw [Mem.load_store_disjoint _ (.inl (by omega)), copyName, load_strcpy _ _ hk]
    · rw [Mem.store_below _ (by omega), copyName]
      exact strcpy_end _ _ (by omega)
    · rw [Nat.add_assoc d 24 96]
      exact hself _ _ 4 _
  · exact hself _ _ 4 _

theorem represents_unpackEntriesAt (dest : Mem) (d : Nat) {m : Mem} {n : Nat}
    (hinside : ∀ i < n, 8 + sizeofTypefile * i + 114 ≤ sizeofPacket) (entry : Nat → TfDirent)
    (i : Nat) (hi : i < n) :
    Represents (unpackEntriesAt e dest d m n) (d + sizeofDirent * i) (unpackEntries e m n entry i) := by
  rw [unpackEntries, if_pos hi]
  induction n with
  | zero => exact absurd hi (Nat.not_lt_zero i)
  | succ n ih =>
    rw [unpackEntriesAt]
    rcases Nat.lt_succ_iff_lt_or_eq.mp hi with hlt | rfl
    · have hbefore := ih (fun j hj => hinside j (by omega)) hlt
      refine hbefore.congr fun k hk => unpackDirentAt_below e _ _ _ ?_
      simp only [sizeofDirent] at hk ⊢
      omega
    · exact (represents_unpackDirentAt e _ _ (hinside i (Nat.lt_add_one i))).alone

/-- **The loop.** Each entry in memory is the one listed for it. -/
theorem represents_listed (dest : Mem) (d : Nat) {reply : Mem} (entry : Nat → TfDirent) {i : Nat}
    (hi : i < direntCount reply) :
    Represents (unpackEntriesAt e dest d reply (direntCount reply).toNat) (d + sizeofDirent * i)
      (unpackEntries e reply (direntCount reply).toNat entry i) := by
  refine represents_unpackEntriesAt e dest d (fun j hj => ?_) entry i (Int.lt_toNat.mpr hi)
  have hrecord := record_inside (Int.lt_toNat.mp hj)
  simp only [sizeofTypefile, sizeofPacket] at hrecord ⊢
  omega

end Topfield
