import Topfield.Calendar
import Topfield.Listing
import Topfield.Lib.Comparator
import Mathlib.Data.List.Lex

/-!
# Sorting a listing

The comparators of `tf_util.c` and the sort by them. The comparators by name and size agree with their orders.
The ones by time return the difference of two 64-bit stamps as an `int`, whose sign is that of its low 32 bits:
they agree with the order of the stamps exactly if these bits have the sign of every difference.
-/

namespace Topfield

open Lib

/-- The functions of the C library that sorting rests on, with what is assumed of them. -/
structure SortLibrary where
  strcasecmp : List UInt8 → List UInt8 → Int
  qsort : (TfDirent → TfDirent → Int) → List TfDirent → List TfDirent
  strcasecmp_swap : ∀ a b, strcasecmp a b < 0 ↔ 0 < strcasecmp b a
  strcasecmp_trans : ∀ a b c, strcasecmp a b ≤ 0 → strcasecmp b c ≤ 0 → strcasecmp a c ≤ 0
  qsort_sorts : Sorts qsort

def charInt (c : UInt8) : Int := c.toInt8.toInt

def tfCmpDirentByType (de1 de2 : TfDirent) : Int := charInt de1.type - charInt de2.type

/-- Compare by type, then by timestamp. A `time_t` becomes an `int`. -/
def tfCmpDirentByTime (de1 de2 : TfDirent) : Int :=
  let ret := tfCmpDirentByType de1 de2
  if ret = 0 then (de2.stamp - de1.stamp).bmod (2 ^ 32) else ret

def tfCmpDirentBySize (de1 de2 : TfDirent) : Int :=
  let ret := tfCmpDirentByType de1 de2
  if ret = 0 then
    if de1.size < de2.size then 1 else if de1.size = de2.size then 0 else -1
  else
    ret

/-- Compare by type, then by (case insensitive) name. -/
def tfCmpDirentByName (lib : SortLibrary) (de1 de2 : TfDirent) : Int :=
  let ret := tfCmpDirentByType de1 de2
  if ret = 0 then lib.strcasecmp de1.name de2.name else ret

def tfCmpDirentByReverseName (lib : SortLibrary) (de1 de2 : TfDirent) : Int :=
  let ret := tfCmpDirentByType de1 de2
  if ret = 0 then -lib.strcasecmp de1.name de2.name else ret

def tfCmpDirentByReverseTime (de1 de2 : TfDirent) : Int :=
  let ret := tfCmpDirentByType de1 de2
  if ret = 0 then (de1.stamp - de2.stamp).bmod (2 ^ 32) else ret

def tfCmpDirentByReverseSize (de1 de2 : TfDirent) : Int :=
  let ret := tfCmpDirentByType de1 de2
  if ret = 0 then
    if de1.size < de2.size then -1 else if de1.size = de2.size then 0 else 1
  else
    ret

abbrev tfSortName : Int := 1

abbrev tfSortSize : Int := 2

abbrev tfSortTime : Int := 3

/-- `qsort` on the first `count` elements of the array. -/
def TfDirEntries.qsort (lib : SortLibrary) (entries : TfDirEntries) (cmp : TfDirent → TfDirent → Int) :
    TfDirEntries :=
  { entries with entry := fun i => (lib.qsort cmp entries.listed).getD i (entries.entry i) }

def tfSortDirents (lib : SortLibrary) (entries : TfDirEntries) (sortType : Int) : TfDirEntries :=
  if sortType = tfSortName then
    entries.qsort lib (tfCmpDirentByName lib)
  else if sortType = tfSortSize then
    entries.qsort lib tfCmpDirentBySize
  else if sortType = tfSortTime then
    entries.qsort lib tfCmpDirentByTime
  else if sortType = -tfSortName then
    entries.qsort lib (tfCmpDirentByReverseName lib)
  else if sortType = -tfSortSize then
    entries.qsort lib tfCmpDirentByReverseSize
  else if sortType = -tfSortTime then
    entries.qsort lib tfCmpDirentByReverseTime
  else
    entries

/-! ### What a sort is to do -/

inductive SortKey
  | name
  | size
  | time
deriving DecidableEq

/-- A key and whether its order is reversed. -/
structure SortType where
  key : SortKey
  reverse : Bool

namespace SortType

def value (sortType : SortType) : Int :=
  let key := match sortType.key with
    | .name => tfSortName
    | .size => tfSortSize
    | .time => tfSortTime
  if sortType.reverse then -key else key

def comparator (lib : SortLibrary) (sortType : SortType) : TfDirent → TfDirent → Int :=
  match sortType.key, sortType.reverse with
  | .name, false => tfCmpDirentByName lib
  | .size, false => tfCmpDirentBySize
  | .time, false => tfCmpDirentByTime
  | .name, true => tfCmpDirentByReverseName lib
  | .size, true => tfCmpDirentByReverseSize
  | .time, true => tfCmpDirentByReverseTime

/-- Names ascending, the largest size first, the newest stamp first. -/
def keyLe (lib : SortLibrary) (key : SortKey) (a b : TfDirent) : Prop :=
  match key with
  | .name => lib.strcasecmp a.name b.name ≤ 0
  | .size => b.size ≤ a.size
  | .time => b.stamp ≤ a.stamp

/-- Directories come before the other entries. -/
def DirectoriesFirst (a b : TfDirent) : Prop := a.type = 0x64 ∨ b.type ≠ 0x64

/-- Directories first, then the key, in the order of the key or its reverse. -/
def order (lib : SortLibrary) (sortType : SortType) : TfDirent → TfDirent → Prop :=
  lexLe DirectoriesFirst fun a b =>
    if sortType.reverse then keyLe lib sortType.key b a else keyLe lib sortType.key a b

end SortType

/-- A directory or a file, and no third thing. -/
def Typed (entry : TfDirent) : Prop := entry.type = 0x64 ∨ entry.type = 0x66

/-- The comparator is consistent and agrees with the order, and what the sort yields is in it. -/
structure SortedBy (lib : SortLibrary) (sortType : SortType) (entries : TfDirEntries) : Prop where
  consistent : Consistent (sortType.comparator lib) entries.listed
  agrees : Agrees (sortType.comparator lib) (sortType.order lib) entries.listed
  perm : (tfSortDirents lib entries sortType.value).listed.Perm entries.listed
  sorted : (tfSortDirents lib entries sortType.value).listed.Pairwise (sortType.order lib)

/-- The low 32 bits of the difference of two stamps have its sign, for every two entries of one type. -/
def StampsNear (entries : TfDirEntries) : Prop :=
  ∀ a ∈ entries.listed, ∀ b ∈ entries.listed, a.type = b.type → a.stamp < b.stamp →
    0 < (b.stamp - a.stamp) % 2 ^ 32 ∧ (b.stamp - a.stamp) % 2 ^ 32 < 2 ^ 31

variable {lib : SortLibrary} {l : List TfDirent}

/-! ### The keys -/

theorem agrees_type (h : ∀ entry ∈ l, Typed entry) :
    Agrees tfCmpDirentByType SortType.DirectoriesFirst l := by
  have hsign (a : TfDirent) (ha : a ∈ l) (b : TfDirent) (hb : b ∈ l) :
      tfCmpDirentByType a b ≤ 0 ↔ SortType.DirectoriesFirst a b := by
    unfold tfCmpDirentByType SortType.DirectoriesFirst
    rcases h a ha with ha | ha <;> rcases h b hb with hb | hb <;> rw [ha, hb] <;> decide
  refine ⟨hsign, fun a ha b hb => ?_⟩
  rw [← hsign b hb a ha]
  unfold tfCmpDirentByType
  omega

theorem type_eq_iff (h : ∀ entry ∈ l, Typed entry) {a b : TfDirent} (ha : a ∈ l) (hb : b ∈ l) :
    tfCmpDirentByType a b = 0 ↔ a.type = b.type := by
  unfold tfCmpDirentByType
  rcases h a ha with ha | ha <;> rcases h b hb with hb | hb <;> rw [ha, hb] <;> decide

theorem agrees_name (lib : SortLibrary) (l : List TfDirent) :
    Agrees (fun a b => lib.strcasecmp a.name b.name) (SortType.keyLe lib .name) l := by
  refine ⟨fun _ _ _ _ => Iff.rfl, fun a _ b _ => ?_⟩
  rw [SortType.keyLe, ← Int.not_lt, lib.strcasecmp_swap, Int.not_lt]

theorem agrees_size (lib : SortLibrary) (l : List TfDirent) :
    Agrees (fun a b => if a.size < b.size then 1 else if a.size = b.size then 0 else -1)
      (SortType.keyLe lib .size) l := by
  constructor <;> intro a _ b _ <;>
    simp only [SortType.keyLe, UInt64.le_iff_toNat_le, UInt64.lt_iff_toNat_lt, ← UInt64.toNat_inj]
  · split_ifs <;> omega
  · split_ifs <;> omega

theorem agrees_reverse_size (lib : SortLibrary) (l : List TfDirent) :
    Agrees (fun a b => if a.size < b.size then -1 else if a.size = b.size then 0 else 1)
      (fun a b => SortType.keyLe lib .size b a) l := by
  constructor <;> intro a _ b _ <;>
    simp only [SortType.keyLe, UInt64.le_iff_toNat_le, UInt64.lt_iff_toNat_lt, ← UInt64.toNat_inj]
  · split_ifs <;> omega
  · split_ifs <;> omega

theorem bmod_sign (n : Int) :
    (n.bmod (2 ^ 32) ≤ 0 ↔ n % 2 ^ 32 = 0 ∨ 2 ^ 31 ≤ n % 2 ^ 32) ∧
      (0 ≤ n.bmod (2 ^ 32) ↔ n % 2 ^ 32 < 2 ^ 31) := by
  rw [Int.bmod_def]
  split_ifs <;> omega

/-- Two stamps are compared by time in their order exactly if the low 32 bits of the difference have its
sign. -/
theorem bmod_sub_sign_iff (s t : Int) :
    ((t - s).bmod (2 ^ 32) ≤ 0 ↔ t ≤ s) ∧ (0 ≤ (t - s).bmod (2 ^ 32) ↔ s ≤ t) ↔
      (s < t → 0 < (t - s) % 2 ^ 32 ∧ (t - s) % 2 ^ 32 < 2 ^ 31) ∧
        (t < s → 2 ^ 31 ≤ (t - s) % 2 ^ 32) := by
  rw [(bmod_sign _).1, (bmod_sign _).2]
  omega

theorem agrees_of_ne_time (sortType : SortType) (htypes : ∀ entry ∈ l, Typed entry)
    (hkey : sortType.key ≠ .time) : Agrees (sortType.comparator lib) (sortType.order lib) l := by
  have hsecond {second : TfDirent → TfDirent → Int} {le : TfDirent → TfDirent → Prop}
      (h : Agrees second le l) :
      Agrees (thenBy tfCmpDirentByType second) (lexLe SortType.DirectoriesFirst le) l :=
    (agrees_type htypes).thenBy_iff.mpr fun a ha b hb _ => ⟨h.nonpos a ha b hb, h.nonneg a ha b hb⟩
  rcases sortType with ⟨key, reverse⟩
  cases key with
  | name =>
    cases reverse with
    | false => exact hsecond (agrees_name lib l)
    | true => exact hsecond (agrees_name lib l).neg
  | size =>
    cases reverse with
    | false => exact hsecond (agrees_size lib l)
    | true => exact hsecond (agrees_reverse_size lib l)
  | time => exact absurd rfl hkey

theorem stampsNear_iff (entries : TfDirEntries) :
    StampsNear entries ↔ ∀ a ∈ entries.listed, ∀ b ∈ entries.listed, a.type = b.type →
      ((b.stamp - a.stamp).bmod (2 ^ 32) ≤ 0 ↔ b.stamp ≤ a.stamp) ∧
        (0 ≤ (b.stamp - a.stamp).bmod (2 ^ 32) ↔ a.stamp ≤ b.stamp) := by
  constructor
  · intro h a ha b hb htype
    refine (bmod_sub_sign_iff a.stamp b.stamp).mpr ⟨h a ha b hb htype, fun hlt => ?_⟩
    have hback := h b hb a ha htype.symm hlt
    omega
  · intro h a ha b hb htype
    exact ((bmod_sub_sign_iff a.stamp b.stamp).mp (h a ha b hb htype)).1

theorem agrees_time_iff (lib : SortLibrary) (reverse : Bool) {entries : TfDirEntries}
    (htypes : ∀ entry ∈ entries.listed, Typed entry) :
    Agrees (SortType.comparator lib ⟨.time, reverse⟩) (SortType.order lib ⟨.time, reverse⟩) entries.listed ↔
      StampsNear entries := by
  rw [stampsNear_iff]
  cases reverse with
  | false =>
    refine (agrees_type htypes).thenBy_iff.trans ?_
    constructor
    · intro h a ha b hb htype
      exact h a ha b hb ((type_eq_iff htypes ha hb).mpr htype)
    · intro h a ha b hb hzero
      exact h a ha b hb ((type_eq_iff htypes ha hb).mp hzero)
  | true =>
    refine (agrees_type htypes).thenBy_iff.trans ?_
    constructor
    · intro h a ha b hb htype
      exact h b hb a ha ((type_eq_iff htypes hb ha).mpr htype.symm)
    · intro h a ha b hb hzero
      exact h b hb a ha ((type_eq_iff htypes ha hb).mp hzero).symm

/-! ### The sort -/

theorem order_trans (lib : SortLibrary) (sortType : SortType) (a b c : TfDirent)
    (hab : sortType.order lib a b) (hbc : sortType.order lib b c) : sortType.order lib a c := by
  have hkey (a b c : TfDirent) (hab : SortType.keyLe lib sortType.key a b)
      (hbc : SortType.keyLe lib sortType.key b c) : SortType.keyLe lib sortType.key a c := by
    cases hcase : sortType.key with
    | name =>
      rw [hcase] at hab hbc
      exact lib.strcasecmp_trans _ _ _ hab hbc
    | size =>
      rw [hcase] at hab hbc
      exact UInt64.le_trans hbc hab
    | time =>
      rw [hcase] at hab hbc
      exact Int.le_trans hbc hab
  refine lexLe_trans ?_ ?_ a b c hab hbc
  · intro a b c hab hbc
    rcases hbc with hb | hc
    · exact .inl (hab.resolve_right (not_not_intro hb))
    · exact .inr hc
  · intro a b c hab hbc
    split_ifs at hab hbc ⊢
    · exact hkey c b a hbc hab
    · exact hkey a b c hab hbc

theorem tfSortDirents_value (lib : SortLibrary) (sortType : SortType) (entries : TfDirEntries) :
    tfSortDirents lib entries sortType.value = entries.qsort lib (sortType.comparator lib) := by
  rcases sortType with ⟨key, reverse⟩
  cases key <;> cases reverse <;> rfl

theorem length_listed (entries : TfDirEntries) : entries.listed.length = entries.count.toNat := by
  rw [TfDirEntries.listed, List.length_map, List.length_range]

theorem getElem_listed (entries : TfDirEntries) {i : Nat} (h : i < entries.listed.length) :
    entries.listed[i] = entries.entry i := by
  simp only [TfDirEntries.listed, List.getElem_map, List.getElem_range]

theorem listed_qsort {entries : TfDirEntries} {cmp : TfDirent → TfDirent → Int}
    (h : (lib.qsort cmp entries.listed).Perm entries.listed) :
    (entries.qsort lib cmp).listed = lib.qsort cmp entries.listed := by
  apply List.ext_getElem
  · rw [h.length_eq, length_listed, length_listed, TfDirEntries.qsort]
  · intro i _ hi
    rw [getElem_listed]
    show (lib.qsort cmp entries.listed).getD i _ = _
    rw [List.getD_eq_getElem?_getD, List.getElem?_eq_getElem hi, Option.getD_some]

theorem sortedBy_of_agrees {sortType : SortType} {entries : TfDirEntries}
    (h : Agrees (sortType.comparator lib) (sortType.order lib) entries.listed) :
    SortedBy lib sortType entries := by
  obtain ⟨hperm, hsorted⟩ := lib.qsort_sorts.sorted h (order_trans lib sortType)
  have hlisted := listed_qsort hperm
  rw [← tfSortDirents_value] at hlisted
  exact ⟨h.consistent (order_trans lib sortType), h, hlisted ▸ hperm, hlisted ▸ hsorted⟩

/-- **Sorting.** Whatever the entries of an array are, a sort by name or size is right, and one by time is if
and only if the low 32 bits of the differences of their stamps have the signs of these. -/
theorem sortedBy_iff (lib : SortLibrary) (sortType : SortType) (entries : TfDirEntries)
    (htypes : ∀ entry ∈ entries.listed, Typed entry) :
    SortedBy lib sortType entries ↔ (sortType.key = .time → StampsNear entries) := by
  constructor
  · intro h hkey
    rcases sortType with ⟨key, reverse⟩
    subst hkey
    exact (agrees_time_iff lib reverse htypes).mp h.agrees
  · intro h
    apply sortedBy_of_agrees
    by_cases hkey : sortType.key = .time
    · rcases sortType with ⟨key, reverse⟩
      subst hkey
      exact (agrees_time_iff lib reverse htypes).mpr (h rfl)
    · exact agrees_of_ne_time sortType htypes hkey

/-! ### A library, and stamps that are too far apart -/

/-- The letters of a name in lower case. -/
def lowered (name : List UInt8) : List Nat :=
  name.map fun c => if 0x41 ≤ c ∧ c ≤ 0x5A then c.toNat + 32 else c.toNat

/-- Names in the C locale, and merge sort. -/
def SortLibrary.posix : SortLibrary where
  strcasecmp a b := if lowered a < lowered b then -1 else if lowered b < lowered a then 1 else 0
  qsort cmp l := l.mergeSort fun a b => decide (cmp a b ≤ 0)
  strcasecmp_swap a b := by
    split_ifs with hab hba <;> first | exact absurd hab (lt_asymm hba) | decide
  strcasecmp_trans a b c := by
    have hle (a b : List UInt8) :
        (if lowered a < lowered b then (-1 : Int) else if lowered b < lowered a then 1 else 0) ≤ 0 ↔
          lowered a ≤ lowered b := by
      split_ifs with hab hba
      · exact iff_of_true (by decide) hab.le
      · exact iff_of_false (by decide) (not_le.mpr hba)
      · exact iff_of_true (by decide) (not_lt.mp hba)
    rw [hle, hle, hle]
    exact le_trans
  qsort_sorts := sorts_mergeSort

/-- A file whose date a device has stored. -/
def storedFile (date : List UInt8) : TfDirent where
  stamp := tfdtToTime (Env.gregorian 0) (Mem.ofList date) 0
  type := 0x66
  size := 0
  name := [0x52]
  attrib := 0
  spill := []

def storedFiles (dates : List (List UInt8)) : TfDirEntries where
  count := dates.length
  entry i := storedFile (dates.getD i [])

theorem typed_storedFiles (dates : List (List UInt8)) : ∀ entry ∈ (storedFiles dates).listed, Typed entry := by
  intro entry hentry
  obtain ⟨i, -, rfl⟩ := List.mem_map.mp hentry
  exact .inr rfl

/-- Files of 1 July 2005 and of 22 April 2038. -/
theorem sortedBy_iff_2005 :
    SortedBy .posix ⟨.time, false⟩ (storedFiles [[0xD1, 0x30, 0, 0, 0], [0xFF, 0xFF, 0, 0, 0]]) := by
  refine (sortedBy_iff .posix ⟨.time, false⟩ _ (typed_storedFiles _)).mpr fun _ => ?_
  unfold StampsNear
  decide

/-- The entries of a sort whose stamps are those of device dates. -/
def FromDevice {σ : Type} (e : Env σ) (entry : TfDirent) : Prop :=
  Typed entry ∧ ∃ m dt, entry.stamp = tfdtToTime e m dt

/-- A file without a date, and one of 22 April 2038. -/
def farApart : TfDirEntries := storedFiles [[0xFF, 0xFF, 0xFF, 0xFF, 0xFF], [0xFF, 0xFF, 0, 0, 0]]

/-- The file without a date is taken for the newer one. -/
theorem not_sortedBy_farApart : (∀ entry ∈ farApart.listed, FromDevice (Env.gregorian 0) entry) ∧
    ¬ SortedBy .posix ⟨.time, false⟩ farApart := by
  have hmem (i : Nat) (hi : i < 2) : farApart.entry i ∈ farApart.listed :=
    List.mem_map_of_mem (List.mem_range.mpr hi)
  constructor
  · intro entry hentry
    obtain ⟨i, -, rfl⟩ := List.mem_map.mp hentry
    exact ⟨.inr rfl, _, _, rfl⟩
  · intro h
    have hcmp : tfCmpDirentByTime (farApart.entry 0) (farApart.entry 1) ≤ 0 := by decide
    have horder := (h.agrees.nonpos _ (hmem 0 (by decide)) _ (hmem 1 (by decide))).mp hcmp
    have hnewer : (farApart.entry 0).stamp < (farApart.entry 1).stamp := by decide
    exact absurd (horder.2 (.inr (by decide))) (Int.not_le.mpr hnewer)

end Topfield
