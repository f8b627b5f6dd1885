import Mathlib.Data.List.Sort
import Mathlib.Tactic.Ring
import Gwr.Python.Int
import Gwr.Timetable.Tensors

/-!
# Device memory layout

`_layout_tensors` reads the device ranges of the platform's first memory map, starts a
cursor at the base address of each device's first range, and then walks the tensors
from largest to smallest, placing each at the cursor of the next device in round-robin
order and advancing that cursor by the tensor's size rounded up to 64 bytes.

## Main definitions

* `parseBaseAddress` — the `"16GB"` / `"0x1_0000_0000"` / integer base-address reader
* `memoryRanges` — `memory_maps[0].ranges`, with the script's two input-structure errors
* `initDeviceAddresses` — the first loop: each device's first base address
* `sortedTensors` — `sorted(tensors.items(), key=size, reverse=True)`
* `allocate` — one step of the round-robin placement loop
* `layoutState`, `layoutTensors` — `_layout_tensors`, with and without its final cursors

## Main results

* `parseInt_toString` — `int(str(n)) = n`
* `parseBaseAddress_unit` — `"<n>GB"`, `"<n>MB"`, `"<n>KB"` read as `n` GiB, MiB, KiB
-/

set_option autoImplicit false

namespace Gwr

/-- `s.replace(a ++ b, "")` for a two-character pattern: every occurrence removed,
scanning left to right. -/
def removeAll (a b : Char) : List Char → List Char
  | x :: y :: rest => if x = a ∧ y = b then removeAll a b rest else x :: removeAll a b (y :: rest)
  | cs => cs

/-- `int(text) * scale`, the suffixed branches of the base-address reader. -/
def scaledInt (text : List Char) (scale : Int) : Except PyError Int :=
  match parseInt (String.mk text) with
  | some v => .ok (v * scale)
  | none => .error (.invalidIntLiteral (String.mk text))

/-- The base-address reader of `_layout_tensors`: a string with a `GB`, `MB` or `KB`
suffix (in any case) is a decimal multiple of that unit; any other string is an
`int(s, 0)` literal once `_` are removed; a non-string goes through `int()`. -/
def parseBaseAddress (baseStr : Yaml) : Except PyError Int :=
  match baseStr with
  | .str s =>
    let upper := s.toList.map Char.toUpper
    if ['G', 'B'] <:+: upper then scaledInt (removeAll 'G' 'B' upper) (1024 * 1024 * 1024)
    else if ['M', 'B'] <:+: upper then scaledInt (removeAll 'M' 'B' upper) (1024 * 1024)
    else if ['K', 'B'] <:+: upper then scaledInt (removeAll 'K' 'B' upper) 1024
    else parseSeparatedBase0 s
  | v => v.toInt

/-- `memory_maps[0].ranges`, iterated, with the two `ValueError`s of an empty or missing
memory map or range list. -/
def memoryRanges (platformConfig : Yaml) : Except PyError (List Yaml) := do
  let memoryMaps ← platformConfig.get "memory_maps"
  if !memoryMaps.truthy then throw (.valueError "No memory maps found in platform configuration")
  let ranges ← (← memoryMaps.first).get "ranges"
  if !ranges.truthy then
    throw (.valueError "No memory ranges found in platform configuration")
  ranges.iter

/-- A memory map that passes both checks has at least one range. -/
theorem memoryRanges_ne_nil {platformConfig : Yaml} {ranges : List Yaml}
    (h : memoryRanges platformConfig = .ok ranges) : ranges ≠ [] := by
  unfold memoryRanges at h
  simp only [bind, Except.bind, pure, Except.pure] at h
  repeat (split at h; · cases h)
  rename_i truthy
  exact Yaml.iter_ne_nil (by simpa using truthy) h

/-- The device and base address one range declares, read in the script's order: the
device (default `"hbm0"`), the base (default `"0x0"`) and its parse, then the hash of the
device the dictionary test needs. -/
def rangeEntry (rangeInfo : Yaml) : Except PyError (Yaml × Int) := do
  let device ← rangeInfo.get "device" (.str "hbm0")
  let baseStr ← rangeInfo.get "base_address" (.str "0x0")
  let base ← parseBaseAddress baseStr
  if device.hashable then pure (device, base) else throw .typeError

/-- A range reads exactly when it is a mapping whose device (default `"hbm0"`) is a scalar,
which can be a dictionary key, and whose base address (default `"0x0"`) parses. -/
theorem rangeEntry_eq_ok_iff {rangeInfo device : Yaml} {base : Int} :
    rangeEntry rangeInfo = .ok (device, base) ↔
      rangeInfo.get "device" (.str "hbm0") = .ok device ∧ device.hashable ∧
      ∃ baseStr, rangeInfo.get "base_address" (.str "0x0") = .ok baseStr ∧
        parseBaseAddress baseStr = .ok base := by
  simp only [rangeEntry, Except.bind_eq_ok]
  constructor
  · rintro ⟨d, hd, s, hs, b, hb, h⟩
    split at h
    · cases h
      exact ⟨hd, ‹_›, s, hs, hb⟩
    · cases h
  · rintro ⟨hd, hhash, s, hs, hb⟩
    exact ⟨device, hd, s, hs, base, hb, by simp [hhash]⟩

/-- The first loop's body: a device's cursor starts at the base of its first range. -/
def initDevice (deviceAddresses : PyDict Yaml Int) (rangeInfo : Yaml) :
    Except PyError (PyDict Yaml Int) := do
  let (device, base) ← rangeEntry rangeInfo
  pure (if device ∈ deviceAddresses.keys then deviceAddresses else deviceAddresses.insert device base)

/-- The first loop: `device_addresses`. -/
def initDeviceAddresses (ranges : List Yaml) : Except PyError (PyDict Yaml Int) :=
  ranges.foldlM initDevice .empty

/-- `sorted(tensors.items(), key=lambda x: x[1][2], reverse=True)`. Python's sort is
stable, also with `reverse=True`, and so is insertion sort: tensors of equal size keep
their insertion order. -/
def sortedTensors (tensors : PyDict String TensorRecord) : List (String × TensorRecord) :=
  tensors.entries.insertionSort fun a b => b.2.sizeBytes ≤ a.2.sizeBytes

/-- `aligned_size_bytes = ((size_bytes + 63) // 64) * 64`. -/
def alignedSizeBytes (sizeBytes : Int) : Int := ((sizeBytes + 63).fdiv 64) * 64

theorem alignedSizeBytes_eq (s : Int) : alignedSizeBytes s = (s + 63) / 64 * 64 := by
  rw [alignedSizeBytes, Int.fdiv_eq_ediv _ (by decide)]

/-- The aligned size is `64 * ⌈s / 64⌉`. -/
theorem alignedSizeBytes_eq_ceil (s : Int) : alignedSizeBytes s = 64 * ⌈(s : ℚ) / 64⌉ := by
  have := ceil_div_eq_fdiv s 64 (by decide)
  push_cast at this
  rw [this, alignedSizeBytes, mul_comm]
  ring_nf

theorem le_alignedSizeBytes (s : Int) : s ≤ alignedSizeBytes s := by
  rw [alignedSizeBytes_eq]; omega

theorem alignedSizeBytes_nonneg {s : Int} (h : 0 ≤ s) : 0 ≤ alignedSizeBytes s := by
  rw [alignedSizeBytes_eq]; omega

theorem alignedSizeBytes_ge_64 {s : Int} (h : 1 ≤ s) : 64 ≤ alignedSizeBytes s := by
  rw [alignedSizeBytes_eq]; omega

theorem alignedSizeBytes_mono {s s' : Int} (h : s ≤ s') : alignedSizeBytes s ≤ alignedSizeBytes s' := by
  rw [alignedSizeBytes_eq, alignedSizeBytes_eq]; omega

theorem dvd_alignedSizeBytes (s : Int) : 64 ∣ alignedSizeBytes s :=
  Dvd.intro_left _ rfl

/-- The placement loop's state: the device cursors, the round-robin index and the
addresses assigned so far. -/
structure LayoutState where
  deviceAddresses : PyDict Yaml Int
  currentDeviceIndex : Nat
  tensorAddresses : PyDict String Int

/-- One step of the placement loop: the tensor goes to the current device's cursor, the
cursor advances by the aligned size, and the round-robin index moves on. -/
def allocate (deviceList : List Yaml) (st : LayoutState) (entry : String × TensorRecord) :
    LayoutState :=
  let device := deviceList.getD st.currentDeviceIndex .null
  let addr := (st.deviceAddresses.get? device).getD 0
  { deviceAddresses := st.deviceAddresses.insert device (addr + alignedSizeBytes entry.2.sizeBytes)
    currentDeviceIndex := (st.currentDeviceIndex + 1) % deviceList.length
    tensorAddresses := st.tensorAddresses.insert entry.1 addr }

/-- `_layout_tensors`, returning the final state of its placement loop. -/
def layoutState (tensors : PyDict String TensorRecord) (platformConfig : Yaml) :
    Except PyError LayoutState := do
  let ranges ← memoryRanges platformConfig
  let deviceAddresses ← initDeviceAddresses ranges
  let deviceList := deviceAddresses.keys
  if deviceList = [] then throw (.valueError "No devices available for tensor allocation")
  pure ((sortedTensors tensors).foldl (allocate deviceList) ⟨deviceAddresses, 0, .empty⟩)

/-- `_layout_tensors`: the address of every tensor. -/
def layoutTensors (tensors : PyDict String TensorRecord) (platformConfig : Yaml) :
    Except PyError (PyDict String Int) :=
  (·.tensorAddresses) <$> layoutState tensors platformConfig

/-! ### Base addresses with a unit

The reader's comment names the forms `"0x1_0000_0000"` and `"16GB"`. A decimal number
followed by `GB`, `MB` or `KB`, in any letter case, reads as that many GiB, MiB or KiB:
`str(n)` holds no unit letter, so the upper-cased text contains exactly the unit's pattern,
once, at its end. -/

/-- The characters of `str(n)`: a sign and decimal digits. -/
theorem mem_intToString {n : Int} {c : Char} (h : c ∈ (toString n).toList) :
    c = '-' ∨ ∃ d < 10, c = Nat.digitChar d := by
  cases n with
  | ofNat m => exact .inr (mem_toDigits (by decide) h)
  | negSucc m =>
    rcases List.mem_cons.mp h with rfl | h
    · exact .inl rfl
    · exact .inr (mem_toDigits (by decide) h)

theorem withSign_of_isDigit {body : List Char → Option Nat} {c : Char} {cs : List Char}
    (hc : c.isDigit) : withSign body (c :: cs) = (body (c :: cs)).map fun n => (n : Int) := by
  have hminus : c ≠ '-' := by rintro rfl; cases hc
  have hplus : c ≠ '+' := by rintro rfl; cases hc
  simp [withSign, hminus, hplus]

/-- `int(str(n)) = n`. -/
theorem parseInt_toString (n : Int) : parseInt (toString n) = some n := by
  have hspace : ∀ c ∈ (toString n).toList, c.toNat < 127 ∧ pyIsSpace c = false := fun c hc => by
    rcases mem_intToString hc with rfl | ⟨d, hd, rfl⟩
    · decide
    · exact digitChar_ascii (by omega)
  rw [parseInt, stripWhitespace_transform_of_forall hspace]
  cases n with
  | ofNat m =>
    obtain ⟨c, cs, hcs⟩ := List.exists_cons_of_ne_nil (toDigits_ne_nil 10 m)
    have hc : c.isDigit := isDigit_of_mem_toDigits (hcs ▸ List.mem_cons_self c cs)
    show withSign (readDigits 10) (Nat.toDigits 10 m) = _
    rw [hcs, withSign_of_isDigit hc, ← hcs, readDigits_toDigits (by decide) (by decide)]
    rfl
  | negSucc m =>
    show withSign (readDigits 10) ('-' :: Nat.toDigits 10 (m + 1)) = _
    rw [withSign, readDigits_toDigits (by decide) (by decide)]
    rfl

/-- Removing the pattern `ab` from `l ++ [a, b]` leaves `l`, when `l` has no `a`. -/
theorem removeAll_append_pair {a b : Char} :
    ∀ {l : List Char}, a ∉ l → removeAll a b (l ++ [a, b]) = l
  | [], _ => by simp [removeAll]
  | [x], h => by
    have hx : x ≠ a := fun hx => h (by simp [hx])
    simp [removeAll, hx]
  | x :: y :: l, h => by
    have hx : x ≠ a := fun hx => h (by simp [hx])
    have := removeAll_append_pair (b := b) (l := y :: l) fun hy => h (List.mem_cons_of_mem _ hy)
    simp only [List.cons_append] at this ⊢
    rw [removeAll, if_neg fun h => hx h.1, this]

/-- The base-address reader reads `<n>GB`, `<n>MB` and `<n>KB`, in any letter case, as `n`
GiB, MiB and KiB, for every integer `n` written as `str(n)`. -/
theorem parseBaseAddress_unit (n : Int) (unit : List Char) (scale : Int)
    (hunit : (unit.map Char.toUpper, scale) ∈ [(['G', 'B'], 1024 * 1024 * 1024),
      (['M', 'B'], 1024 * 1024), (['K', 'B'], 1024)]) :
    parseBaseAddress (.str (toString n ++ String.mk unit)) = .ok (n * scale) := by
  have hchars : ∀ c ∈ (toString n).toList, c.toUpper = c ∧ c ≠ 'G' ∧ c ≠ 'M' ∧ c ≠ 'K' := by
    intro c hc
    rcases mem_intToString hc with rfl | ⟨d, hd, rfl⟩
    · decide
    · interval_cases d <;> decide
  have hupper : (toString n ++ String.mk unit).toList.map Char.toUpper =
      (toString n).toList ++ unit.map Char.toUpper := by
    show ((toString n).toList ++ unit).map Char.toUpper = _
    rw [List.map_append, List.map_congr_left fun c hc => (hchars c hc).1, List.map_id']
  -- the unit's letter is the only one in the text
  have hnot : ∀ u v : Char, u ∉ (toString n).toList → u ≠ v → u ≠ 'B' →
      ¬ [u, 'B'] <:+: (toString n).toList ++ [v, 'B'] := by
    intro u v hu huv huB h
    rcases List.mem_append.mp (h.subset (List.mem_cons_self _ _)) with h | h
    · exact hu h
    · simp only [List.mem_cons, List.not_mem_nil, or_false] at h
      exact h.elim huv huB
  have hsuffix : ∀ v : Char, [v, 'B'] <:+: (toString n).toList ++ [v, 'B'] :=
    fun v => (List.suffix_append _ _).isInfix
  have hscaled : ∀ v : Char, v ∉ (toString n).toList → ∀ s,
      scaledInt (removeAll v 'B' ((toString n).toList ++ [v, 'B'])) s = .ok (n * s) := by
    intro v hv s
    rw [removeAll_append_pair hv, scaledInt,
      show String.mk (toString n).toList = toString n from rfl, parseInt_toString]
  have hG : 'G' ∉ (toString n).toList := fun h => (hchars _ h).2.1 rfl
  have hM : 'M' ∉ (toString n).toList := fun h => (hchars _ h).2.2.1 rfl
  have hK : 'K' ∉ (toString n).toList := fun h => (hchars _ h).2.2.2 rfl
  simp only [List.mem_cons, Prod.mk.injEq, List.mem_nil_iff, or_false] at hunit
  rcases hunit with ⟨hu, rfl⟩ | ⟨hu, rfl⟩ | ⟨hu, rfl⟩ <;>
    simp only [parseBaseAddress, hupper, hu, hsuffix, hnot 'G' 'M' hG (by decide) (by decide),
      hnot 'G' 'K' hG (by decide) (by decide), hnot 'M' 'K' hM (by decide) (by decide),
      if_true, if_false, hscaled _ hG, hscaled _ hM, hscaled _ hK]

/-- `"16gb"` reads as 16 GiB. -/
theorem parseBaseAddress_unit_16gb :
    (['g', 'b'].map Char.toUpper, (1024 * 1024 * 1024 : Int)) ∈
        [(['G', 'B'], 1024 * 1024 * 1024), (['M', 'B'], 1024 * 1024), (['K', 'B'], 1024)] ∧
      parseBaseAddress (.str (toString (16 : Int) ++ String.mk ['g', 'b'])) =
        .ok (16 * (1024 * 1024 * 1024)) :=
  ⟨by decide, parseBaseAddress_unit 16 ['g', 'b'] _ (by decide)⟩

end Gwr
