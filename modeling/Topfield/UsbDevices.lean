import Topfield.Lib.Nth
import Topfield.Lib.Scanf
import Topfield.UsbIo

/-!
# Finding the device

`open_usb_dev` counts the devices with the vendor and product it is asked for. `usbutil.c` goes through the busses
of libusb, `usb_io_util.c` scans the text of `/proc/bus/usb/devices`. On what the kernel writes there, the two find
the same device.
-/

namespace Topfield

open Lib

/-! ### The busses of libusb -/

/-- `struct usb_device`: its descriptor's ids, and where the device is. An `int` has room for both numbers. -/
structure UsbDevice where
  bus : Nat
  device : Nat
  idVendor : UInt16
  idProduct : UInt16
  bus_lt : bus < 2 ^ 31
  device_lt : device < 2 ^ 31
deriving DecidableEq

section Libusb

variable (vendorId productId index : Int)

def UsbDevice.Matches (dev : UsbDevice) : Bool :=
  (dev.idVendor.toNat : Int) = vendorId && (dev.idProduct.toNat : Int) = productId

/-- The loop through the devices of a bus: the device that was found, and `count`. -/
def findOnBus : (count : Int) → List UsbDevice → Option UsbDevice × Int
  | count, [] => (none, count)
  | count, dev :: devices =>
    if dev.Matches vendorId productId then
      if count = index then (some dev, count + 1) else findOnBus (count + 1) devices
    else findOnBus count devices

/-- The loop through the busses. -/
def findUsbDev : (count : Int) → List (List UsbDevice) → Option UsbDevice
  | _, [] => none
  | count, bus :: busses =>
    match findOnBus vendorId productId index count bus with
    | (some dev, _) => some dev
    | (none, count) => findUsbDev count busses

variable {vendorId productId index}

theorem findOnBus_eq (count : Int) (devices : List UsbDevice) :
    (findOnBus vendorId productId index count devices).1 =
        nthMatch (UsbDevice.Matches vendorId productId) (index - count) devices ∧
      ((findOnBus vendorId productId index count devices).1 = none →
        (findOnBus vendorId productId index count devices).2 =
          count + (devices.countP (UsbDevice.Matches vendorId productId) : Nat)) := by
  induction devices generalizing count with
  | nil => exact ⟨rfl, fun _ => (Int.add_zero count).symm⟩
  | cons dev devices ih =>
    rw [findOnBus, nthMatch, List.countP_cons]
    by_cases hmatches : dev.Matches vendorId productId
    · rw [if_pos hmatches, if_pos hmatches, if_pos hmatches]
      by_cases hcount : count = index
      · rw [if_pos hcount, if_pos (by omega)]
        exact ⟨rfl, fun h => by cases h⟩
      · rw [if_neg hcount, if_neg (by omega), Int.sub_sub]
        refine ⟨(ih (count + 1)).1, fun hnone => ((ih (count + 1)).2 hnone).trans ?_⟩
        omega
    · rw [if_neg hmatches, if_neg hmatches, if_neg hmatches]
      exact ih count

theorem findUsbDev_eq (count : Int) (busses : List (List UsbDevice)) :
    findUsbDev vendorId productId index count busses =
      nthMatch (UsbDevice.Matches vendorId productId) (index - count) busses.flatten := by
  induction busses generalizing count with
  | nil => rfl
  | cons bus busses ih =>
    obtain ⟨hfound, hcount⟩ := @findOnBus_eq vendorId productId index count bus
    rw [List.flatten_cons, nthMatch_append, ← hfound, findUsbDev]
    cases hcase : findOnBus vendorId productId index count bus with
    | mk found count' =>
      rw [hcase] at hcount
      cases found with
      | some dev => rfl
      | none =>
        have hcount' : count' = count + (bus.countP (UsbDevice.Matches vendorId productId) : Nat) := hcount rfl
        rw [Option.none_or, hcount', Int.sub_sub]
        exact ih _

end Libusb

/-! ### The text of the kernel -/

/-- `MAX_DEVICES_LINE_SIZE` -/
def maxDevicesLineSize : Nat := 128

def topologyFormat : List Directive := directives "T: Bus=%d Lev=%*d Prnt=%*d Port=%*d Cnt=%*d Dev#=%d".toList

def productFormat : List Directive := directives "P: Vendor=%x ProdID=%x".toList

section Scan

variable (vendorId productId index : Int)

/-- The ids of a product line are the ones that are looked for. They are compared as unsigned numbers. -/
def idsMatch (ids : List Int) : Bool :=
  UInt32.ofInt (ids.getD 0 0) = UInt32.ofInt vendorId && UInt32.ofInt (ids.getD 1 0) = UInt32.ofInt productId

/-- The loop over what `fgets` reads: `bus` and `device` of the device that was found. -/
def scanDevices : (bus device count : Int) → List (List UInt8) → Option (Int × Int)
  | _, _, _, [] => none
  | bus, device, count, buffer :: file =>
    let topology := sscanf topologyFormat buffer
    let bus := topology.getD 0 bus
    let device := topology.getD 1 device
    if topology.length = 2 then scanDevices bus device count file
    else if bus = 0 ∨ device = 0 then scanDevices bus device count file
    else
      let ids := sscanf productFormat buffer
      if ids.length = 2 ∧ idsMatch vendorId productId ids then
        if count = index then some (bus, device) else scanDevices bus device (count + 1) file
      else scanDevices bus device count file

/-- The scan of `/proc/bus/usb/devices`. -/
def findDevice (devices : List UInt8) : Option (Int × Int) :=
  scanDevices vendorId productId index 0 0 0 (fgetsAll maxDevicesLineSize devices)

end Scan

/-! ### What the kernel writes -/

/-- Blanks, a keyword, and a number behind it. -/
def field (gap : Nat) (keyword number : List UInt8) : List UInt8 := List.replicate gap 0x20 ++ (keyword ++ number)

/-- A line that is read without being looked at, cut into pieces as it may be. -/
structure OtherLine where
  text : List UInt8
  newline : 0x0A ∉ text
  quiet : ∀ piece ∈ fgetsAll maxDevicesLineSize (text ++ [0x0A]), ∀ c ∈ piece.head?, c ≠ 0x54 ∧ c ≠ 0x50

/-- What is told of a device: where it is on its topology line, its ids on its product line, and other lines before,
between and after. -/
structure DeviceLines where
  before : List OtherLine
  gap : Fin 8 → Nat
  bus : Numeral
  lev : Numeral
  prnt : Numeral
  port : Numeral
  cnt : Numeral
  dev : Numeral
  /-- the rest of the topology line -/
  speed : List UInt8
  between : List OtherLine
  vendor : Numeral
  product : Numeral
  /-- the rest of the product line -/
  rev : List UInt8
  after : List OtherLine

namespace DeviceLines

variable (e : DeviceLines)

def topologyLine : List UInt8 :=
  ascii "T:" ++ (field (e.gap 0) (ascii "Bus=") e.bus.decimal ++ (field (e.gap 1) (ascii "Lev=") e.lev.decimal ++
    (field (e.gap 2) (ascii "Prnt=") e.prnt.decimal ++ (field (e.gap 3) (ascii "Port=") e.port.decimal ++
      (field (e.gap 4) (ascii "Cnt=") e.cnt.decimal ++ (field (e.gap 5) (ascii "Dev#=") e.dev.decimal ++ e.speed))))))

def productLine : List UInt8 :=
  ascii "P:" ++ (field (e.gap 6) (ascii "Vendor=") e.vendor.hexadecimal ++
    (field (e.gap 7) (ascii "ProdID=") e.product.hexadecimal ++ e.rev))

def lines : List (List UInt8) :=
  e.before.map OtherLine.text ++ e.topologyLine :: (e.between.map OtherLine.text ++
    e.productLine :: e.after.map OtherLine.text)

def text : List UInt8 := e.lines.flatMap (· ++ [0x0A])

end DeviceLines

/-- Lines that tell of a device. Busses and devices are counted from one, the numbers that are stored are numbers of
an `int` or an `unsigned int`, and the two lines that matter fit the buffer. -/
structure DeviceEntry extends DeviceLines where
  bus_pos : 0 < bus.value
  bus_lt : bus.value < 2 ^ 31
  dev_pos : 0 < dev.value
  dev_lt : dev.value < 2 ^ 31
  vendor_lt : vendor.value < 2 ^ 32
  product_lt : product.value < 2 ^ 32
  speed_stop : ∀ c ∈ speed.head?, ¬ IsDigit c
  speed_newline : 0x0A ∉ speed
  rev_stop : ∀ c ∈ rev.head?, hexDigit c = none ∧ c ≠ 0x78 ∧ c ≠ 0x58
  rev_newline : 0x0A ∉ rev
  topology_fits : toDeviceLines.topologyLine.length + 2 ≤ maxDevicesLineSize
  product_fits : toDeviceLines.productLine.length + 2 ≤ maxDevicesLineSize

def devicesText (entries : List DeviceEntry) : List UInt8 := entries.flatMap fun e => e.text

/-! ### Scanning it -/

theorem topologyFormat_eq : topologyFormat =
    (ascii "T:").map .char ++ .space :: ((ascii "Bus=").map .char ++ .int true ::
      .space :: ((ascii "Lev=").map .char ++ .int false :: .space :: ((ascii "Prnt=").map .char ++ .int false ::
        .space :: ((ascii "Port=").map .char ++ .int false :: .space :: ((ascii "Cnt=").map .char ++ .int false ::
          .space :: ((ascii "Dev#=").map .char ++ [.int true])))))) := by decide

theorem productFormat_eq : productFormat =
    (ascii "P:").map .char ++ .space :: ((ascii "Vendor=").map .char ++ .hex ::
      .space :: ((ascii "ProdID=").map .char ++ [.hex])) := by decide

theorem head_field (keyword : List UInt8) {gap : Nat} {number rest : List UInt8} {P : UInt8 → Prop}
    (hkeyword : keyword = keyword.headD 0 :: keyword.tail) (hblank : P 0x20) (hc : P (keyword.headD 0)) :
    ∀ d ∈ (field gap keyword number ++ rest).head?, P d := by
  generalize keyword.headD 0 = c, keyword.tail = word at hkeyword hc
  subst hkeyword
  cases gap with
  | zero =>
    rintro _ ⟨⟩
    exact hc
  | succ gap =>
    rintro _ ⟨⟩
    exact hblank

theorem head_keyword (keyword : List UInt8) {rest : List UInt8} (hkeyword : keyword = keyword.headD 0 :: keyword.tail)
    (hc : ¬ IsSpace (keyword.headD 0)) : ∀ d ∈ (keyword ++ rest).head?, ¬ IsSpace d := by
  generalize keyword.headD 0 = c, keyword.tail = word at hkeyword hc
  subst hkeyword
  rintro _ ⟨⟩
  exact hc

theorem sscanf_decimalField (keyword : List UInt8) (hkeyword : keyword = keyword.headD 0 :: keyword.tail)
    (hc : ¬ IsSpace (keyword.headD 0)) (gap : Nat) (assign : Bool) (format : List Directive) (n : Numeral)
    {rest : List UInt8} (hstop : ∀ c ∈ rest.head?, ¬ IsDigit c) :
    sscanf (.space :: (keyword.map .char ++ .int assign :: format)) (field gap keyword n.decimal ++ rest) =
      if assign then storeInt n.value :: sscanf format rest else sscanf format rest := by
  rw [field, List.append_assoc, List.append_assoc, sscanf_space gap _ (head_keyword keyword hkeyword hc),
    sscanf_chars, sscanf_decimal assign format n hstop]

theorem sscanf_hexadecimalField (keyword : List UInt8) (hkeyword : keyword = keyword.headD 0 :: keyword.tail)
    (hc : ¬ IsSpace (keyword.headD 0)) (gap : Nat) (format : List Directive) (n : Numeral) {rest : List UInt8}
    (hstop : ∀ c ∈ rest.head?, hexDigit c = none ∧ c ≠ 0x78 ∧ c ≠ 0x58) :
    sscanf (.space :: (keyword.map .char ++ .hex :: format)) (field gap keyword n.hexadecimal ++ rest) =
      storeHex n.value :: sscanf format rest := by
  rw [field, List.append_assoc, List.append_assoc, sscanf_space gap _ (head_keyword keyword hkeyword hc),
    sscanf_chars, sscanf_hexadecimal format n hstop]

variable (e : DeviceEntry)

/-- The topology line gives the bus and the device. -/
theorem sscanf_topologyLine (rest : List UInt8) (hrest : ∀ c ∈ (e.speed ++ rest).head?, ¬ IsDigit c) :
    sscanf topologyFormat (e.topologyLine ++ rest) = [(e.bus.value : Int), (e.dev.value : Int)] := by
  simp only [DeviceLines.topologyLine, List.append_assoc]
  rw [topologyFormat_eq, sscanf_chars,
    sscanf_decimalField (ascii "Bus=") (by decide) (by decide) _ true _ _
      (head_field (ascii "Lev=") (by decide) (by decide) (by decide)), if_pos rfl,
    sscanf_decimalField (ascii "Lev=") (by decide) (by decide) _ false _ _
      (head_field (ascii "Prnt=") (by decide) (by decide) (by decide)), if_neg Bool.false_ne_true,
    sscanf_decimalField (ascii "Prnt=") (by decide) (by decide) _ false _ _
      (head_field (ascii "Port=") (by decide) (by decide) (by decide)), if_neg Bool.false_ne_true,
    sscanf_decimalField (ascii "Port=") (by decide) (by decide) _ false _ _
      (head_field (ascii "Cnt=") (by decide) (by decide) (by decide)), if_neg Bool.false_ne_true,
    sscanf_decimalField (ascii "Cnt=") (by decide) (by decide) _ false _ _
      (head_field (ascii "Dev#=") (by decide) (by decide) (by decide)), if_neg Bool.false_ne_true,
    sscanf_decimalField (ascii "Dev#=") (by decide) (by decide) _ true _ _ hrest, if_pos rfl,
    storeInt_of_lt e.bus_lt, storeInt_of_lt e.dev_lt]
  rfl

theorem sscanf_productLine (rest : List UInt8)
    (hrest : ∀ c ∈ (e.rev ++ rest).head?, hexDigit c = none ∧ c ≠ 0x78 ∧ c ≠ 0x58) :
    sscanf productFormat (e.productLine ++ rest) = [(e.vendor.value : Int), (e.product.value : Int)] := by
  simp only [DeviceLines.productLine, List.append_assoc]
  rw [productFormat_eq, sscanf_chars,
    sscanf_hexadecimalField (ascii "Vendor=") (by decide) (by decide) _ _ _
      (head_field (ascii "ProdID=") (by decide) (by decide) (by decide)),
    sscanf_hexadecimalField (ascii "ProdID=") (by decide) (by decide) _ _ _ hrest,
    storeHex_of_lt e.vendor_lt, storeHex_of_lt e.product_lt]
  rfl

theorem newline_not_mem_field {gap : Nat} {keyword number rest : List UInt8} (hkeyword : 0x0A ∉ keyword)
    (hnumber : 0x0A ∉ number) (hrest : 0x0A ∉ rest) : 0x0A ∉ field gap keyword number ++ rest := by
  simp only [field, List.mem_append, List.mem_replicate, not_or]
  exact ⟨⟨fun hblank => absurd hblank.2 (by decide), hkeyword, hnumber⟩, hrest⟩

theorem newline_not_mem_topologyLine : 0x0A ∉ e.topologyLine := by
  refine fun h => (List.mem_append.mp h).elim (by decide) ?_
  refine newline_not_mem_field (by decide) (newline_not_mem_decimal _) ?_
  refine newline_not_mem_field (by decide) (newline_not_mem_decimal _) ?_
  refine newline_not_mem_field (by decide) (newline_not_mem_decimal _) ?_
  refine newline_not_mem_field (by decide) (newline_not_mem_decimal _) ?_
  refine newline_not_mem_field (by decide) (newline_not_mem_decimal _) ?_
  exact newline_not_mem_field (by decide) (newline_not_mem_decimal _) e.speed_newline

theorem newline_not_mem_productLine : 0x0A ∉ e.productLine := by
  refine fun h => (List.mem_append.mp h).elim (by decide) ?_
  refine newline_not_mem_field (by decide) (newline_not_mem_hexadecimal _) ?_
  exact newline_not_mem_field (by decide) (newline_not_mem_hexadecimal _) e.rev_newline

section Scan

variable {vendorId productId index : Int} (bus device count : Int) (file : List (List UInt8))

theorem scanDevices_quiet {piece : List UInt8} (h : ∀ c ∈ piece.head?, c ≠ 0x54 ∧ c ≠ 0x50) :
    scanDevices vendorId productId index bus device count (piece :: file) =
      scanDevices vendorId productId index bus device count file := by
  have htopology : sscanf topologyFormat piece = [] := sscanf_char_of_ne _ fun c hc => (h c hc).1
  have hproduct : sscanf productFormat piece = [] := sscanf_char_of_ne _ fun c hc => (h c hc).2
  rw [scanDevices, htopology, hproduct]
  simp

theorem scanDevices_others (lines : List OtherLine) :
    scanDevices vendorId productId index bus device count
        (lines.flatMap (fun line => fgetsAll maxDevicesLineSize (line.text ++ [0x0A])) ++ file) =
      scanDevices vendorId productId index bus device count file := by
  induction lines with
  | nil => rfl
  | cons line lines ih =>
    have hquiet := line.quiet
    rw [List.flatMap_cons, List.append_assoc, ← ih]
    generalize fgetsAll maxDevicesLineSize (line.text ++ [0x0A]) = pieces at hquiet
    induction pieces with
    | nil => rfl
    | cons piece pieces ihp =>
      rw [List.cons_append, scanDevices_quiet _ _ _ _ (hquiet piece List.mem_cons_self)]
      exact ihp fun piece hpiece => hquiet piece (List.mem_cons_of_mem _ hpiece)

theorem scanDevices_topologyLine :
    scanDevices vendorId productId index bus device count ((e.topologyLine ++ [0x0A]) :: file) =
      scanDevices vendorId productId index e.bus.value e.dev.value count file := by
  have hstop : ∀ c ∈ (e.speed ++ [0x0A]).head?, ¬ IsDigit c := by
    have hspeed := e.speed_stop
    cases hcase : e.speed with
    | nil =>
      rintro _ ⟨⟩
      decide
    | cons c speed =>
      rw [hcase] at hspeed
      exact hspeed
  rw [scanDevices, sscanf_topologyLine e _ hstop]
  rfl

/-- The device has the ids that are looked for. -/
def DeviceEntry.Matches (vendorId productId : Int) (e : DeviceEntry) : Bool :=
  UInt32.ofInt e.vendor.value = UInt32.ofInt vendorId && UInt32.ofInt e.product.value = UInt32.ofInt productId

def DeviceEntry.location (e : DeviceEntry) : Int × Int := (e.bus.value, e.dev.value)

theorem scanDevices_productLine :
    scanDevices vendorId productId index e.bus.value e.dev.value count ((e.productLine ++ [0x0A]) :: file) =
      if e.Matches vendorId productId then
        if count = index then some e.location
        else scanDevices vendorId productId index e.bus.value e.dev.value (count + 1) file
      else scanDevices vendorId productId index e.bus.value e.dev.value count file := by
  have hstop : ∀ c ∈ (e.rev ++ [0x0A]).head?, hexDigit c = none ∧ c ≠ 0x78 ∧ c ≠ 0x58 := by
    have hrev := e.rev_stop
    cases hcase : e.rev with
    | nil =>
      rintro _ ⟨⟩
      decide
    | cons c rev =>
      rw [hcase] at hrev
      exact hrev
  have htopology : sscanf topologyFormat (e.productLine ++ [0x0A]) = [] :=
    sscanf_char_of_ne _ (by rintro _ ⟨⟩; decide)
  have hbus : e.bus.value ≠ 0 := Nat.pos_iff_ne_zero.mp e.bus_pos
  have hdev : e.dev.value ≠ 0 := Nat.pos_iff_ne_zero.mp e.dev_pos
  have hids : idsMatch vendorId productId [(e.vendor.value : Int), (e.product.value : Int)] =
      e.Matches vendorId productId := rfl
  rw [scanDevices, htopology, sscanf_productLine e _ hstop]
  simp [hbus, hdev, hids, DeviceEntry.location]

theorem fgetsAll_lines (lines : List (List UInt8)) (h : ∀ line ∈ lines, 0x0A ∉ line) (rest : List UInt8) :
    fgetsAll maxDevicesLineSize (lines.flatMap (· ++ [0x0A]) ++ rest) =
      lines.flatMap (fun line => fgetsAll maxDevicesLineSize (line ++ [0x0A])) ++
        fgetsAll maxDevicesLineSize rest := by
  induction lines with
  | nil => rfl
  | cons line lines ih =>
    rw [List.flatMap_cons, List.flatMap_cons, List.append_assoc (line ++ [0x0A]),
      fgetsAll_line _ (h line List.mem_cons_self), ih fun line hline => h line (List.mem_cons_of_mem _ hline),
      List.append_assoc]

theorem newline_not_mem_lines : ∀ line ∈ e.lines, 0x0A ∉ line := by
  have hothers (lines : List OtherLine) : ∀ line ∈ lines.map OtherLine.text, 0x0A ∉ line := by
    intro line hline
    obtain ⟨other, -, rfl⟩ := List.mem_map.mp hline
    exact other.newline
  intro line hline
  rcases List.mem_append.mp hline with hbefore | hline
  · exact hothers _ _ hbefore
  · rcases List.mem_cons.mp hline with rfl | hline
    · exact newline_not_mem_topologyLine e
    · rcases List.mem_append.mp hline with hbetween | hline
      · exact hothers _ _ hbetween
      · rcases List.mem_cons.mp hline with rfl | hafter
        · exact newline_not_mem_productLine e
        · exact hothers _ _ hafter

theorem fgetsAll_text :
    fgetsAll maxDevicesLineSize e.text =
      e.lines.flatMap fun line => fgetsAll maxDevicesLineSize (line ++ [0x0A]) := by
  have hpieces := fgetsAll_lines _ (newline_not_mem_lines e) []
  rw [List.append_nil] at hpieces
  exact hpieces.trans (List.append_nil _)

/-- The lines of a device lead to its bus and number, and it is counted if it has the ids. -/
theorem scanDevices_entry :
    scanDevices vendorId productId index bus device count (fgetsAll maxDevicesLineSize e.text ++ file) =
      if e.Matches vendorId productId then
        if count = index then some e.location
        else scanDevices vendorId productId index e.bus.value e.dev.value (count + 1) file
      else scanDevices vendorId productId index e.bus.value e.dev.value count file := by
  have htext : fgetsAll maxDevicesLineSize e.text ++ file =
      e.before.flatMap (fun line => fgetsAll maxDevicesLineSize (line.text ++ [0x0A])) ++
        ((e.topologyLine ++ [0x0A]) ::
          (e.between.flatMap (fun line => fgetsAll maxDevicesLineSize (line.text ++ [0x0A])) ++
            ((e.productLine ++ [0x0A]) ::
              (e.after.flatMap (fun line => fgetsAll maxDevicesLineSize (line.text ++ [0x0A])) ++ file)))) := by
    rw [fgetsAll_text, DeviceLines.lines]
    simp only [List.flatMap_append, List.flatMap_cons, List.flatMap_map, List.append_assoc, List.cons_append,
      fgetsAll_short (newline_not_mem_topologyLine e) e.topology_fits,
      fgetsAll_short (newline_not_mem_productLine e) e.product_fits]
    rfl
  rw [htext, scanDevices_others, scanDevices_topologyLine, scanDevices_others, scanDevices_productLine]
  split_ifs
  · rfl
  · rw [scanDevices_others]
  · rw [scanDevices_others]

theorem scanDevices_devicesText (entries : List DeviceEntry) :
    scanDevices vendorId productId index bus device count (fgetsAll maxDevicesLineSize (devicesText entries)) =
      (nthMatch (DeviceEntry.Matches vendorId productId) (index - count) entries).map DeviceEntry.location := by
  induction entries generalizing bus device count with
  | nil => rfl
  | cons e entries ih =>
    have htext : fgetsAll maxDevicesLineSize (devicesText (e :: entries)) =
        fgetsAll maxDevicesLineSize e.text ++ fgetsAll maxDevicesLineSize (devicesText entries) := by
      rw [fgetsAll_text]
      exact fgetsAll_lines _ (newline_not_mem_lines e) _
    rw [htext, scanDevices_entry, nthMatch]
    by_cases hmatches : e.Matches vendorId productId
    · rw [if_pos hmatches, if_pos hmatches]
      by_cases hcount : count = index
      · rw [if_pos hcount, if_pos (by omega)]
        rfl
      · rw [if_neg hcount, if_neg (by omega), Int.sub_sub]
        exact ih _ _ _
    · rw [if_neg hmatches, if_neg hmatches]
      exact ih _ _ _

end Scan

/-- **The device at an index.** For any list of devices, in the layout the kernel gives to their lines and with any
other lines around, the scan finds the bus and the number of the device at the index among those with the ids, and
nothing if there are not so many. -/
theorem findDevice_devicesText (vendorId productId : Int) (entries : List DeviceEntry) :
    (∀ n : Nat, findDevice vendorId productId n (devicesText entries) =
        (entries.filter (DeviceEntry.Matches vendorId productId))[n]?.map DeviceEntry.location) ∧
      ∀ index < 0, findDevice vendorId productId index (devicesText entries) = none := by
  constructor
  · intro n
    rw [findDevice, scanDevices_devicesText, Int.sub_zero, nthMatch_eq]
  · intro index hindex
    rw [findDevice, scanDevices_devicesText, Int.sub_zero, nthMatch_of_neg _ hindex]
    rfl

/-! ### The two builds -/

/-- The ids of a device are numbers of sixteen bits. -/
def DeviceEntry.IdsFit (e : DeviceEntry) : Prop := e.vendor.value < 2 ^ 16 ∧ e.product.value < 2 ^ 16

def DeviceEntry.usbDevice (e : DeviceEntry) : UsbDevice where
  bus := e.bus.value
  device := e.dev.value
  idVendor := UInt16.ofNat e.vendor.value
  idProduct := UInt16.ofNat e.product.value
  bus_lt := e.bus_lt
  device_lt := e.dev_lt

def UsbDevice.location (dev : UsbDevice) : Int × Int := (dev.bus, dev.device)

theorem ofInt_eq_iff {value : Nat} {id : Int} (hvalue : value < 2 ^ 16) (hlow : 0 ≤ id) (hhigh : id < 2 ^ 16) :
    UInt32.ofInt value = UInt32.ofInt id ↔ ((UInt16.ofNat value).toNat : Int) = id := by
  rw [← UInt32.toNat_inj, UInt32.ofInt, UInt32.ofInt, UInt32.toNat_ofNat', UInt32.toNat_ofNat', UInt16.toNat_ofNat']
  omega

theorem matches_usbDevice {vendorId productId : Int} (hvendor : 0 ≤ vendorId ∧ vendorId < 2 ^ 16)
    (hproduct : 0 ≤ productId ∧ productId < 2 ^ 16) {e : DeviceEntry} (hids : e.IdsFit) :
    e.usbDevice.Matches vendorId productId = e.Matches vendorId productId := by
  rw [Bool.eq_iff_iff]
  simp only [UsbDevice.Matches, DeviceEntry.Matches, Bool.and_eq_true, decide_eq_true_eq,
    ofInt_eq_iff hids.1 hvendor.1 hvendor.2, ofInt_eq_iff hids.2 hproduct.1 hproduct.2]
  rfl

/-- **Both builds open the same device.** If the devices on libusb's busses, one bus after the other, are those that
the kernel writes of, the two searches end at the same one, at any index. -/
theorem findUsbDev_eq_findDevice {vendorId productId : Int} (hvendor : 0 ≤ vendorId ∧ vendorId < 2 ^ 16)
    (hproduct : 0 ≤ productId ∧ productId < 2 ^ 16) (index : Int) {entries : List DeviceEntry}
    (hids : ∀ e ∈ entries, e.IdsFit) {busses : List (List UsbDevice)}
    (hbusses : busses.flatten = entries.map DeviceEntry.usbDevice) :
    (findUsbDev vendorId productId index 0 busses).map UsbDevice.location =
      findDevice vendorId productId index (devicesText entries) := by
  have hmatches : ∀ e ∈ entries, (UsbDevice.Matches vendorId productId ∘ DeviceEntry.usbDevice) e =
      DeviceEntry.Matches vendorId productId e := fun e he => matches_usbDevice hvendor hproduct (hids e he)
  rw [findUsbDev_eq, hbusses, nthMatch_map, nthMatch_congr hmatches, Option.map_map, findDevice,
    scanDevices_devicesText]
  rfl

/-- `TOPFIELD_VENDOR_ID` -/
def topfieldVendorId : Int := 0x11DB

/-- `TOPFIELD_5000PVRT_ID` -/
def topfield5000pvrtId : Int := 0x1000

/-- A Topfield on the first bus, behind an empty line. -/
def topfieldEntry : DeviceEntry where
  before := [⟨[], not_mem_of_contains rfl, forall_head_of_all rfl⟩]
  gap i := if i = 0 ∨ i = 6 then 2 else 1
  bus := ⟨0, 1, 1⟩
  lev := ⟨0, 1, 1⟩
  prnt := ⟨0, 1, 1⟩
  port := ⟨0, 1, 0⟩
  cnt := ⟨0, 1, 1⟩
  dev := ⟨2, 0, 3⟩
  speed := ascii " Spd=480 MxCh= 0"
  between := [⟨ascii "D:  Ver= 2.00 Cls=00(>ifc ) Sub=00 Prot=00 MxPS=64 #Cfgs=  1",
    not_mem_of_contains rfl, forall_head_of_all rfl⟩]
  vendor := ⟨0, 0, 0x11DB⟩
  product := ⟨0, 0, 0x1000⟩
  rev := ascii " Rev= 1.00"
  after := [⟨ascii "S:  Manufacturer=Topfield", not_mem_of_contains rfl, forall_head_of_all rfl⟩]
  bus_pos := by decide
  bus_lt := by decide
  dev_pos := by decide
  dev_lt := by decide
  vendor_lt := by decide
  product_lt := by decide
  speed_stop := forall_of_all rfl
  speed_newline := not_mem_of_contains rfl
  rev_stop := forall_of_all rfl
  rev_newline := not_mem_of_contains rfl
  topology_fits := by decide
  product_fits := by decide

theorem findUsbDev_eq_findDevice_topfield :
    (findUsbDev topfieldVendorId topfield5000pvrtId 0 0 [[], [topfieldEntry.usbDevice]]).map UsbDevice.location =
      findDevice topfieldVendorId topfield5000pvrtId 0 (devicesText [topfieldEntry]) :=
  findUsbDev_eq_findDevice (by decide) (by decide) 0
    (fun e he => List.mem_singleton.mp he ▸ ⟨by decide, by decide⟩) rfl

end Topfield
