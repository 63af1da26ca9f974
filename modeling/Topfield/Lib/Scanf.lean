import Topfield.Lib.Decimal

/-!
# Reading lines and scanning them

`fgets` cuts a file into lines, and a line that does not fit its buffer into pieces. `sscanf` matches a text
against a format and stores the numbers it finds, up to the first directive that does not match.
-/

namespace Lib

def ascii (s : String) : List UInt8 := s.toList.map Char.toUInt8

theorem not_mem_of_contains {c : UInt8} {text : List UInt8} (h : text.contains c = false) : c ∉ text := by
  intro hmem
  rw [List.contains_iff_mem.mpr hmem] at h
  exact Bool.noConfusion h

theorem forall_of_all {P : UInt8 → Prop} [DecidablePred P] {found : Option UInt8}
    (h : found.all (fun c => decide (P c)) = true) : ∀ c ∈ found, P c := by
  intro c hc
  rw [Option.mem_def.mp hc] at h
  exact of_decide_eq_true h

theorem forall_head_of_all {P : UInt8 → Prop} [DecidablePred P] {texts : List (List UInt8)}
    (h : texts.all (fun text => text.head?.all fun c => decide (P c)) = true) :
    ∀ text ∈ texts, ∀ c ∈ text.head?, P c :=
  fun text htext => forall_of_all (List.all_eq_true.mp h text htext)

/-! ### Numbers in a base -/

section Number

variable (digit : UInt8 → Option Nat) (base : Nat)

/-- The number a text begins with, and what is behind it. -/
def scanNumber (text : List UInt8) : Option (Nat × List UInt8) :=
  if text.head?.any fun c => (digit c).isSome then
    some (scanValue digit base 0 text, text.dropWhile fun c => (digit c).isSome)
  else none

variable {digit base}

theorem dropWhile_digits {byte : Nat → UInt8} (ds : List Nat) (h : ∀ d ∈ ds, digit (byte d) = some d)
    {rest : List UInt8} (hstop : ∀ c ∈ rest.head?, digit c = none) :
    (ds.map byte ++ rest).dropWhile (fun c => (digit c).isSome) = rest := by
  induction ds with
  | nil =>
    cases rest with
    | nil => rfl
    | cons c rest => exact List.dropWhile_cons_of_neg (by rw [hstop c rfl]; exact Bool.false_ne_true)
  | cons d ds ih =>
    have hd := h d List.mem_cons_self
    rw [List.map_cons, List.cons_append, List.dropWhile_cons_of_pos (by rw [hd]; rfl)]
    exact ih fun d hd => h d (List.mem_cons_of_mem _ hd)

theorem scanNumber_paddedDigits {byte : Nat → UInt8} (hbase : 1 < base) (h : ∀ d < base, digit (byte d) = some d)
    (zeros n : Nat) (rest : List UInt8) (hstop : ∀ c ∈ rest.head?, digit c = none) :
    scanNumber digit base ((paddedDigits base zeros n).map byte ++ rest) = some (n, rest) := by
  have hbytes : ∀ d ∈ paddedDigits base zeros n, digit (byte d) = some d := fun d hd =>
    h d (paddedDigits_lt hbase zeros n d hd)
  have hhead : ((paddedDigits base zeros n).map byte ++ rest).head?.any fun c => (digit c).isSome := by
    obtain ⟨d, ds, hds⟩ := List.exists_cons_of_ne_nil (paddedDigits_ne_nil base zeros n)
    have hd := hbytes d (hds ▸ List.mem_cons_self)
    rw [hds]
    simp [hd]
  rw [scanNumber, if_pos hhead, scanValue_paddedDigits hbase h zeros n hstop, dropWhile_digits _ hbytes hstop]

end Number

/-! ### Scanning -/

/-- The directives of a format, as far as they are used here: `%d`, `%*d`, `%x`, white space, and any other byte. -/
inductive Directive
  | int (assign : Bool)
  | hex
  | space
  | char (c : UInt8)
deriving DecidableEq

def directives : List Char → List Directive
  | '%' :: '*' :: 'd' :: format => .int false :: directives format
  | '%' :: 'd' :: format => .int true :: directives format
  | '%' :: 'x' :: format => .hex :: directives format
  | ' ' :: format => .space :: directives format
  | c :: format => .char c.toUInt8 :: directives format
  | [] => []

def hexDigit (c : UInt8) : Option Nat :=
  if IsDigit c then some (c.toNat - 0x30)
  else if 0x61 ≤ c ∧ c ≤ 0x66 then some (c.toNat - 0x61 + 10)
  else if 0x41 ≤ c ∧ c ≤ 0x46 then some (c.toNat - 0x41 + 10)
  else none

def skipSpace (text : List UInt8) : List UInt8 := text.dropWhile fun c => decide (IsSpace c)

def scanSign (text : List UInt8) (number : List UInt8 → Option (Nat × List UInt8)) : Option (Int × List UInt8) :=
  match text with
  | 0x2D :: text => (number text).map fun r => (-(r.1 : Int), r.2)
  | 0x2B :: text => (number text).map fun r => ((r.1 : Int), r.2)
  | text => (number text).map fun r => ((r.1 : Int), r.2)

/-- `0x` in front of a hexadecimal number. -/
def scanHex (text : List UInt8) : Option (Nat × List UInt8) :=
  match text with
  | 0x30 :: 0x78 :: text => scanNumber hexDigit 16 text
  | 0x30 :: 0x58 :: text => scanNumber hexDigit 16 text
  | text => scanNumber hexDigit 16 text

/-- The `int` that `%d` stores: `strtol` keeps a number within a `long`, and 32 bits of it are kept. -/
def storeInt (value : Int) : Int := (max (-2 ^ 63) (min value (2 ^ 63 - 1))).bmod (2 ^ 32)

/-- The `unsigned int` that `%x` stores, of what `strtoul` makes of a number. -/
def storeHex (value : Int) : Int := if value.natAbs < 2 ^ 64 then value % 2 ^ 32 else 2 ^ 32 - 1

theorem storeInt_of_lt {n : Nat} (h : n < 2 ^ 31) : storeInt n = n := by
  have hlong : max (-2 ^ 63) (min (n : Int) (2 ^ 63 - 1)) = n := by omega
  rw [storeInt, hlong]
  exact Int.bmod_eq_of_le_mul_two (by omega) (by omega)

theorem storeHex_of_lt {n : Nat} (h : n < 2 ^ 32) : storeHex n = n := by
  rw [storeHex, if_pos (by omega)]
  exact Int.emod_eq_of_lt (by omega) (by omega)

/-- The numbers that `sscanf` stores, of which it returns how many there are. A NUL matches no directive. -/
def sscanf : List Directive → List UInt8 → List Int
  | .int assign :: format, text =>
    match scanSign (skipSpace text) (scanNumber decimalDigit 10) with
    | some (value, rest) => if assign then storeInt value :: sscanf format rest else sscanf format rest
    | none => []
  | .hex :: format, text =>
    match scanSign (skipSpace text) scanHex with
    | some (value, rest) => storeHex value :: sscanf format rest
    | none => []
  | .space :: format, text => sscanf format (skipSpace text)
  | .char c :: format, d :: text => if d = c then sscanf format text else []
  | .char _ :: _, [] => []
  | [], _ => []

theorem skipSpace_replicate (n : Nat) {rest : List UInt8} (h : ∀ c ∈ rest.head?, ¬ IsSpace c) :
    skipSpace (List.replicate n 0x20 ++ rest) = rest := by
  induction n with
  | zero =>
    cases rest with
    | nil => rfl
    | cons c rest => exact List.dropWhile_cons_of_neg (by simpa using h c rfl)
  | succ n ih => exact ih

theorem sscanf_chars (word : List UInt8) (format : List Directive) (rest : List UInt8) :
    sscanf (word.map Directive.char ++ format) (word ++ rest) = sscanf format rest := by
  induction word with
  | nil => rfl
  | cons c word ih =>
    rw [List.map_cons, List.cons_append, List.cons_append, sscanf, if_pos rfl, ih]

theorem sscanf_space (n : Nat) (format : List Directive) {rest : List UInt8} (h : ∀ c ∈ rest.head?, ¬ IsSpace c) :
    sscanf (.space :: format) (List.replicate n 0x20 ++ rest) = sscanf format rest := by
  rw [sscanf, skipSpace_replicate n h]

theorem sscanf_char_of_ne {c : UInt8} (format : List Directive) {text : List UInt8}
    (h : ∀ d ∈ text.head?, d ≠ c) : sscanf (.char c :: format) text = [] := by
  cases text with
  | nil => rfl
  | cons d text => exact if_neg (h d rfl)

/-! ### Numbers as they are printed -/

/-- A number with white space in front, for alignment, and leading zeros. -/
structure Numeral where
  spaces : Nat
  zeros : Nat
  value : Nat
deriving DecidableEq

def hexByte (d : Nat) : UInt8 := if d < 10 then UInt8.ofNat (0x30 + d) else UInt8.ofNat (0x61 + (d - 10))

namespace Numeral

def decimal (n : Numeral) : List UInt8 :=
  List.replicate n.spaces 0x20 ++ (paddedDigits 10 n.zeros n.value).map digitByte

def hexadecimal (n : Numeral) : List UInt8 :=
  List.replicate n.spaces 0x20 ++ (paddedDigits 16 n.zeros n.value).map hexByte

end Numeral

theorem hexDigit_hexByte : ∀ d < 16, hexDigit (hexByte d) = some d := by decide

theorem not_space_or_sign {c : UInt8} (h : 0x30 ≤ c.toNat) : ¬ IsSpace c ∧ c ≠ 0x2D ∧ c ≠ 0x2B := by
  refine ⟨?_, ?_, ?_⟩
  · rintro (rfl | ⟨-, hhigh⟩)
    · exact absurd h (by decide)
    · exact absurd (Nat.le_trans h (UInt8.le_iff_toNat_le.mp hhigh)) (by decide)
  all_goals
    rintro rfl
    exact absurd h (by decide)

theorem scanSign_eq {text : List UInt8} (number : List UInt8 → Option (Nat × List UInt8))
    (h : ∀ c ∈ text.head?, 0x30 ≤ c.toNat) :
    scanSign text number = (number text).map fun r => ((r.1 : Int), r.2) := by
  unfold scanSign
  split
  · exact absurd (h _ rfl) (by decide)
  · exact absurd (h _ rfl) (by decide)
  · rfl

theorem scanHex_eq {text : List UInt8} (h : ∀ c ∈ text.tail.head?, c ≠ 0x78 ∧ c ≠ 0x58) :
    scanHex text = scanNumber hexDigit 16 text := by
  unfold scanHex
  split
  · exact absurd rfl (h _ rfl).1
  · exact absurd rfl (h _ rfl).2
  · rfl

/-- `%d` and `%*d` read a number, whatever follows it that is not another digit. -/
theorem sscanf_decimal (assign : Bool) (format : List Directive) (n : Numeral) {rest : List UInt8}
    (hstop : ∀ c ∈ rest.head?, ¬ IsDigit c) : sscanf (.int assign :: format) (n.decimal ++ rest) =
      if assign then storeInt n.value :: sscanf format rest else sscanf format rest := by
  obtain ⟨d, ds, hds⟩ := List.exists_cons_of_ne_nil (paddedDigits_ne_nil 10 n.zeros n.value)
  have hd : d < 10 := paddedDigits_lt (by decide) n.zeros n.value d (hds ▸ List.mem_cons_self)
  have hlow : ∀ c ∈ ((paddedDigits 10 n.zeros n.value).map digitByte ++ rest).head?, 0x30 ≤ c.toNat := by
    rw [hds]
    rintro _ ⟨⟩
    exact digitByte_toNat hd ▸ Nat.le_add_right _ _
  have hscan := scanNumber_paddedDigits (by decide : 1 < 10) decimalDigit_digitByte n.zeros n.value rest
    fun c hc => if_neg (hstop c hc)
  rw [Numeral.decimal, List.append_assoc, sscanf,
    skipSpace_replicate _ fun c hc => (not_space_or_sign (hlow c hc)).1, scanSign_eq _ hlow, hscan]
  rfl

theorem le_hexByte : ∀ d < 16, 0x30 ≤ (hexByte d).toNat := by decide

theorem hexByte_ne : ∀ d < 16, hexByte d ≠ 0x78 ∧ hexByte d ≠ 0x58 := by decide

/-- `%x` reads a number, whatever follows it that is not another digit or the `x` of a prefix. -/
theorem sscanf_hexadecimal (format : List Directive) (n : Numeral) {rest : List UInt8}
    (hstop : ∀ c ∈ rest.head?, hexDigit c = none ∧ c ≠ 0x78 ∧ c ≠ 0x58) :
    sscanf (.hex :: format) (n.hexadecimal ++ rest) = storeHex n.value :: sscanf format rest := by
  obtain ⟨d, ds, hds⟩ := List.exists_cons_of_ne_nil (paddedDigits_ne_nil 16 n.zeros n.value)
  have hlt := paddedDigits_lt (by decide : 1 < 16) n.zeros n.value
  have hlow : ∀ c ∈ ((paddedDigits 16 n.zeros n.value).map hexByte ++ rest).head?, 0x30 ≤ c.toNat := by
    rw [hds]
    rintro _ ⟨⟩
    exact le_hexByte d (hlt d (hds ▸ List.mem_cons_self))
  have hprefix : ∀ c ∈ ((paddedDigits 16 n.zeros n.value).map hexByte ++ rest).tail.head?, c ≠ 0x78 ∧ c ≠ 0x58 := by
    rw [hds] at hlt ⊢
    cases ds with
    | nil => exact fun c hc => (hstop c hc).2
    | cons e ds =>
      rintro _ ⟨⟩
      exact hexByte_ne e (hlt e (List.mem_cons_of_mem _ List.mem_cons_self))
  have hscan := scanNumber_paddedDigits (by decide : 1 < 16) hexDigit_hexByte n.zeros n.value rest
    fun c hc => (hstop c hc).1
  rw [Numeral.hexadecimal, List.append_assoc, sscanf,
    skipSpace_replicate _ fun c hc => (not_space_or_sign (hlow c hc)).1, scanSign_eq _ hlow, scanHex_eq hprefix, hscan]
  rfl

/-! ### Lines -/

/-- What `fgets` reads, one piece after the other, with room for so many bytes in the buffer. -/
def fgets (size : Nat) : (room : Nat) → (line : List UInt8) → List UInt8 → List (List UInt8)
  | _, line, [] => if line = [] then [] else [line]
  | room, line, c :: file =>
    if c = 0x0A ∨ room ≤ 1 then (line ++ [c]) :: fgets size size [] file else fgets size (room - 1) (line ++ [c]) file

/-- The pieces of a file. `fgets` leaves room for the NUL. -/
def fgetsAll (bufferSize : Nat) (file : List UInt8) : List (List UInt8) :=
  fgets (bufferSize - 1) (bufferSize - 1) [] file

theorem fgets_line {size room : Nat} (line text file : List UInt8) (hline : 0x0A ∉ text) :
    fgets size room line (text ++ 0x0A :: file) =
      fgets size room line (text ++ [0x0A]) ++ fgets size size [] file := by
  induction text generalizing room line with
  | nil =>
    simp only [List.nil_append, fgets, true_or, if_true]
    rfl
  | cons c text ih =>
    have hc : c ≠ 0x0A := fun h => hline (h ▸ List.mem_cons_self)
    have htext : 0x0A ∉ text := fun h => hline (List.mem_cons_of_mem _ h)
    simp only [List.cons_append, fgets, hc, false_or]
    split_ifs
    · rw [ih _ htext, List.cons_append]
    · exact ih _ htext

theorem fgets_short {size room : Nat} (line text : List UInt8) (hline : 0x0A ∉ text) (hroom : text.length < room) :
    fgets size room line (text ++ [0x0A]) = [line ++ text ++ [0x0A]] := by
  induction text generalizing room line with
  | nil =>
    simp only [List.nil_append, fgets, true_or, if_true, List.append_nil]
  | cons c text ih =>
    have hc : c ≠ 0x0A := fun h => hline (h ▸ List.mem_cons_self)
    have htext : 0x0A ∉ text := fun h => hline (List.mem_cons_of_mem _ h)
    rw [List.length_cons] at hroom
    have hmore : ¬ room ≤ 1 := by omega
    simp only [List.cons_append, fgets, hc, hmore, or_self, if_false]
    rw [ih _ htext (by omega), List.append_assoc line [c], List.singleton_append]

theorem fgetsAll_line (bufferSize : Nat) {text : List UInt8} (hline : 0x0A ∉ text) (file : List UInt8) :
    fgetsAll bufferSize (text ++ [0x0A] ++ file) =
      fgetsAll bufferSize (text ++ [0x0A]) ++ fgetsAll bufferSize file := by
  rw [List.append_assoc, List.singleton_append]
  exact fgets_line [] text file hline

theorem fgetsAll_short {bufferSize : Nat} {text : List UInt8} (hline : 0x0A ∉ text)
    (hfits : text.length + 2 ≤ bufferSize) : fgetsAll bufferSize (text ++ [0x0A]) = [text ++ [0x0A]] :=
  fgets_short [] text hline (by omega)

theorem newline_not_mem_decimal (n : Numeral) : 0x0A ∉ n.decimal := by
  intro h
  rcases List.mem_append.mp h with hblank | hdigit
  · exact absurd (List.eq_of_mem_replicate hblank) (by decide)
  · obtain ⟨d, hd, hbyte⟩ := List.mem_map.mp hdigit
    have hvalue := digitByte_toNat (paddedDigits_lt (by decide) n.zeros n.value d hd)
    rw [hbyte] at hvalue
    have hnewline : (0x0A : UInt8).toNat = 0x0A := rfl
    omega

theorem newline_not_mem_hexadecimal (n : Numeral) : 0x0A ∉ n.hexadecimal := by
  intro h
  rcases List.mem_append.mp h with hblank | hdigit
  · exact absurd (List.eq_of_mem_replicate hblank) (by decide)
  · obtain ⟨d, hd, hbyte⟩ := List.mem_map.mp hdigit
    have hvalue := le_hexByte d (paddedDigits_lt (by decide) n.zeros n.value d hd)
    rw [hbyte] at hvalue
    exact absurd hvalue (by decide)

end Lib
