import Gwr.Platform.Generator
import Gwr.Timetable.Placement
import Gwr.Timetable.Coverage

/-!
# The generator's platform, read by the converter

`onnx-to-gwr-timetable-yaml.py` reads a platform's memory ranges from
`memory_maps[0].ranges` and its PEs from `processing_elements`. `gen_fabric.py` writes the
PEs' shared ranges under the top-level key `memory` and under each PE's
`memory_map.ranges`, and never writes `memory_maps`: the converter rejects every platform
the generator builds, whatever the graph, with "No memory maps found in platform
configuration".

Everything else the converter reads agrees with what the generator writes. The
converter's base-address reader undoes the generator's `f'0x{base:x}'`, so the first
layout loop, run on the generated ranges, starts the cursor of `hbm<i>` at
`hbm_base + i * hbm_size`; and the PE names the converter assigns nodes to are the
generator's, each with the generator's `sram_bytes` as its capacity.

## Main results

* `onnxToGwrTimetable_buildPlatform` — the converter rejects every generated platform
* `initDeviceAddresses_buildMemoryMaps` — the generated ranges give one cursor per HBM, at
  its base
* `processingElementNames_buildPlatform` — the generated PEs and their capacities, as the
  converter reads them
-/

set_option autoImplicit false

namespace Gwr

/-- The converter rejects every platform the generator returns, for every graph: the
generator never writes `memory_maps`. -/
theorem onnxToGwrTimetable_buildPlatform {args : Args} {platform : Yaml}
    (h : buildPlatform args = .ok platform) (model : ModelProto) :
    onnxToGwrTimetable model platform =
      .error (.valueError "No memory maps found in platform configuration") := by
  obtain ⟨_, _, _, -, -, -, rfl⟩ := buildPlatform_eq_ok h
  rfl

/-- The default arguments build a platform, and the converter rejects it for a
one-node graph. -/
theorem onnxToGwrTimetable_defaultPlatform :
    ∃ platform, buildPlatform defaultArgs = .ok platform ∧
      onnxToGwrTimetable copyModel platform =
        .error (.valueError "No memory maps found in platform configuration") := by
  obtain ⟨platform, h⟩ : ∃ platform, buildPlatform defaultArgs = .ok platform := ⟨_, rfl⟩
  exact ⟨platform, h, onnxToGwrTimetable_buildPlatform h copyModel⟩

/-! ### The memory map, read back -/

theorem hexLiteral_toList (n : Nat) : (hexLiteral n).toList = '0' :: 'x' :: Nat.toDigits 16 n := by
  simp [hexLiteral, formatHex, List.asString]

/-- No unit suffix can occur in an upper-cased hexadecimal literal. -/
theorem not_unit_infix_hexLiteral (n : Nat) {u : Char} (hu : u = 'G' ∨ u = 'M' ∨ u = 'K') :
    ¬ [u, 'B'] <:+: (hexLiteral n).toList.map Char.toUpper := by
  intro h
  have hmem := h.subset (List.mem_cons_self _ _)
  rw [hexLiteral_toList] at hmem
  simp only [List.map_cons, List.mem_cons, List.mem_map] at hmem
  rcases hmem with rfl | rfl | ⟨c, hc, rfl⟩
  · rcases hu with h | h | h <;> cases h
  · rcases hu with h | h | h <;> cases h
  · obtain ⟨d, hd, rfl⟩ := mem_toDigits (by decide) hc
    interval_cases d <;> rcases hu with h | h | h <;> cases h

/-- The converter's base-address reader undoes the generator's `f'0x{base:x}'`. -/
theorem parseBaseAddress_hexLiteral (n : Nat) : parseBaseAddress (.str (hexLiteral n)) = .ok n := by
  have hsep : (hexLiteral n).toList.filter (· ≠ '_') = (hexLiteral n).toList := by
    refine List.filter_eq_self.mpr fun c hc => ?_
    rw [hexLiteral_toList] at hc
    rcases List.mem_cons.mp hc with rfl | hc
    · decide
    rcases List.mem_cons.mp hc with rfl | hc
    · decide
    obtain ⟨d, hd, rfl⟩ := mem_toDigits (by decide) hc
    simpa using digitChar_ne_underscore hd
  simp only [parseBaseAddress, not_unit_infix_hexLiteral n (.inl rfl),
    not_unit_infix_hexLiteral n (.inr (.inl rfl)), not_unit_infix_hexLiteral n (.inr (.inr rfl)),
    if_false, parseSeparatedBase0, hsep]
  rw [show String.mk (hexLiteral n).toList = "0x" ++ formatHex n from rfl, parseIntBase0_hex]
  rfl

/-- The converter reads a generated range as its device and its base. -/
theorem rangeEntry_memoryMapEntry (size : Int) (i n : Nat) :
    rangeEntry (memoryMapEntry size i n) = .ok (.str ("hbm" ++ toString i), n) := by
  simp [rangeEntry, memoryMapEntry, Yaml.lookup, parseBaseAddress_hexLiteral, Yaml.hashable]

/-- Run on the memory map the generator writes, the converter's first layout loop starts one
cursor per HBM, that of device `hbm<i>` at `hbm_base + i * hbm_size`. -/
theorem initDeviceAddresses_buildMemoryMaps {args : Args} (hbase : 0 ≤ args.hbmBase)
    (hsize : 0 ≤ args.hbmSize) :
    ∃ ranges deviceAddresses, buildMemoryMaps args = .seq ranges ∧
      initDeviceAddresses ranges = .ok deviceAddresses ∧
      deviceAddresses.entries = (List.range args.numHbms.toNat).map fun i : Nat =>
        (.str ("hbm" ++ toString i), args.hbmBase + i * args.hbmSize) := by
  have hparse : List.Forall₂ (fun r e => rangeEntry r = .ok e)
      ((List.range args.numHbms.toNat).map fun k =>
        memoryMapEntry args.hbmSize (0 + k) (args.hbmBase + k * args.hbmSize))
      ((List.range args.numHbms.toNat).map fun i : Nat =>
        (.str ("hbm" ++ toString i), args.hbmBase + i * args.hbmSize)) := by
    rw [List.forall₂_map_left_iff, List.forall₂_map_right_iff]
    refine List.forall₂_same.mpr fun k _ => ?_
    have hbase_k : 0 ≤ args.hbmBase + k * args.hbmSize :=
      add_nonneg hbase (mul_nonneg (Int.natCast_nonneg k) hsize)
    rw [Nat.zero_add, ← Int.toNat_of_nonneg hbase_k, rangeEntry_memoryMapEntry]
  have hnodup : (((List.range args.numHbms.toNat).map fun i : Nat =>
      ((.str ("hbm" ++ toString i) : Yaml), args.hbmBase + i * args.hbmSize)).map Prod.fst).Nodup := by
    rw [List.map_map]
    exact (List.nodup_range _).map fun i j h =>
      toString_injective (string_append_injective "hbm" (Yaml.str.inj h))
  obtain ⟨devs, hinit, hentries⟩ := initDeviceAddresses_entries hparse
  exact ⟨_, devs, by rw [buildMemoryMaps, hbmEntries_eq], hinit,
    hentries.trans (firstRanges_of_nodup hnodup)⟩

/-- With the default arguments, the two HBMs' cursors start 1 GiB apart. -/
theorem initDeviceAddresses_defaultArgs :
    0 ≤ defaultArgs.hbmBase ∧ 0 ≤ defaultArgs.hbmSize ∧
      ∃ ranges deviceAddresses, buildMemoryMaps defaultArgs = .seq ranges ∧
        initDeviceAddresses ranges = .ok deviceAddresses ∧
        deviceAddresses.entries = (List.range defaultArgs.numHbms.toNat).map fun i : Nat =>
          (.str ("hbm" ++ toString i), defaultArgs.hbmBase + i * defaultArgs.hbmSize) :=
  ⟨by decide, by decide, initDeviceAddresses_buildMemoryMaps (by decide) (by decide)⟩

/-! ### Negative bases -/

theorem hexLiteral_negSucc_toList (n : Nat) :
    (hexLiteral (Int.negSucc n)).toList = '0' :: 'x' :: '-' :: Nat.toDigits 16 (n + 1) := by
  simp [hexLiteral, formatHex, List.asString]

/-- The characters of `f'0x{n:x}'` for a negative `n`: the prefix, the sign, hex digits. -/
theorem mem_hexLiteral_negSucc {n : Nat} {c : Char} (hc : c ∈ (hexLiteral (Int.negSucc n)).toList) :
    c = '0' ∨ c = 'x' ∨ c = '-' ∨ ∃ d < 16, c = Nat.digitChar d := by
  rw [hexLiteral_negSucc_toList] at hc
  simp only [List.mem_cons] at hc
  rcases hc with rfl | rfl | rfl | hc
  · exact .inl rfl
  · exact .inr (.inl rfl)
  · exact .inr (.inr (.inl rfl))
  · exact .inr (.inr (.inr (mem_toDigits (by decide) hc)))

/-- A sign after the base prefix is no hexadecimal digit. -/
theorem readDigits_hex_minus (cs : List Char) : readDigits 16 ('-' :: cs) = none := by
  have hvalue : digitsValue 16 (('-' :: cs).filter (· ≠ '_')) = none := by
    rw [List.filter_cons_of_pos (by decide), digitsValue, List.foldlM_cons]
    rfl
  unfold readDigits
  split_ifs
  · exact hvalue
  · rfl

/-- The base-address reader rejects `f'0x{n:x}'` of a negative `n`, which is `0x-…`. -/
theorem parseBaseAddress_hexLiteral_negSucc (n : Nat) :
    ∃ e, parseBaseAddress (.str (hexLiteral (Int.negSucc n))) = .error e := by
  have hchars : ∀ c ∈ (hexLiteral (Int.negSucc n)).toList, c.toUpper ≠ 'G' ∧ c.toUpper ≠ 'M' ∧
      c.toUpper ≠ 'K' ∧ c ≠ '_' ∧ c.toNat < 127 ∧ pyIsSpace c = false := by
    intro c hc
    rcases mem_hexLiteral_negSucc hc with rfl | rfl | rfl | ⟨d, hd, rfl⟩
    · decide
    · decide
    · decide
    · interval_cases d <;> decide
  have hunit : ∀ u : Char, u = 'G' ∨ u = 'M' ∨ u = 'K' →
      ¬ [u, 'B'] <:+: (hexLiteral (Int.negSucc n)).toList.map Char.toUpper := by
    intro u hu h
    obtain ⟨c, hc, rfl⟩ := List.mem_map.mp (h.subset (List.mem_cons_self _ _))
    obtain ⟨hG, hM, hK, -⟩ := hchars c hc
    exact hu.elim hG (Or.elim · hM hK)
  have hsep : (hexLiteral (Int.negSucc n)).toList.filter (· ≠ '_') =
      (hexLiteral (Int.negSucc n)).toList :=
    List.filter_eq_self.mpr fun c hc => by simpa using (hchars c hc).2.2.2.1
  have hparse : parseIntBase0 (String.mk (hexLiteral (Int.negSucc n)).toList) = none := by
    rw [parseIntBase0, String.toList,
      stripWhitespace_transform_of_forall fun c hc => (hchars c hc).2.2.2.2,
      hexLiteral_negSucc_toList]
    simp [withSign, readBase0, readPrefixed, readDigits_hex_minus]
  simp only [parseBaseAddress, hunit 'G' (.inl rfl), hunit 'M' (.inr (.inl rfl)),
    hunit 'K' (.inr (.inr rfl)), if_false, parseSeparatedBase0, hsep, hparse]
  exact ⟨_, rfl⟩

/-- The first layout loop returns exactly when the reader accepts every range. -/
theorem foldlM_initDevice_ok_iff :
    ∀ (ranges : List Yaml) (deviceAddresses : PyDict Yaml Int),
      (∃ d, ranges.foldlM initDevice deviceAddresses = .ok d) ↔
        ∀ r ∈ ranges, ∃ e, rangeEntry r = .ok e
  | [], d => iff_of_true ⟨d, rfl⟩ fun _ h => absurd h (List.not_mem_nil _)
  | r :: ranges, d => by
    simp only [List.foldlM_cons, List.mem_cons, forall_eq_or_imp]
    cases he : rangeEntry r with
    | error err => simp [initDevice, he]
    | ok e => simp [initDevice, he, foldlM_initDevice_ok_iff ranges]

/-- The reader accepts a generated range exactly when its base is non-negative. -/
theorem rangeEntry_memoryMapEntry_ok_iff (size : Int) (i : Nat) (base : Int) :
    (∃ e, rangeEntry (memoryMapEntry size i base) = .ok e) ↔ 0 ≤ base := by
  cases base with
  | ofNat n => exact iff_of_true ⟨_, rangeEntry_memoryMapEntry size i n⟩ (Int.ofNat_nonneg n)
  | negSucc n =>
    obtain ⟨err, herr⟩ := parseBaseAddress_hexLiteral_negSucc n
    refine iff_of_false ?_ (Int.not_le.mpr (Int.negSucc_lt_zero n))
    simp [rangeEntry, memoryMapEntry, Yaml.lookup, herr]

/-- The converter reads the memory map the generator writes exactly when the base
`hbm_base + i * hbm_size` of every HBM is non-negative: a negative base is written as
`0x-…`, which `int(s, 0)` rejects. -/
theorem initDeviceAddresses_buildMemoryMaps_ok_iff (args : Args) :
    (∃ ranges deviceAddresses, buildMemoryMaps args = .seq ranges ∧
        initDeviceAddresses ranges = .ok deviceAddresses) ↔
      ∀ i < args.numHbms.toNat, 0 ≤ args.hbmBase + i * args.hbmSize := by
  simp only [buildMemoryMaps, hbmEntries_eq, Yaml.seq.injEq, exists_and_left, exists_eq_left',
    initDeviceAddresses, foldlM_initDevice_ok_iff, List.mem_map, List.mem_range, Nat.zero_add,
    forall_exists_index, and_imp, forall_apply_eq_imp_iff₂, rangeEntry_memoryMapEntry_ok_iff]

/-! ### The processing elements, read back -/

@[simp] theorem processingElement_getItem_name (ranges peConfig : Yaml) (column row : Int) :
    (processingElement ranges peConfig column row).getItem "name" =
      .ok (.str (createName "pe" column row)) := rfl

@[simp] theorem processingElement_get_config (ranges peConfig : Yaml) (column row : Int) :
    (processingElement ranges peConfig column row).get "config" (.map []) = .ok peConfig := rfl

@[simp] theorem buildPeConfig_get_sramBytes (args : Args) :
    (buildPeConfig args).get "sram_bytes" = .ok (.int args.peSramBytes) := rfl

/-- `_get_pe_sram_bytes` over the generated PEs: every generated name finds the shared
configuration's `sram_bytes`. -/
theorem findSramBytes_processingElements (args : Args) (ranges : Yaml) :
    ∀ (pes : List (Int × Int)) (p : Int × Int), p ∈ pes →
      findSramBytes (.str (createName "pe" p.1 p.2))
        (pes.map fun q => processingElement ranges (buildPeConfig args) q.1 q.2) =
          .ok args.peSramBytes
  | [], _, h => absurd h (List.not_mem_nil _)
  | q :: pes, p, h => by
    by_cases hq : createName "pe" q.1 q.2 = createName "pe" p.1 p.2
    · simp [findSramBytes, hq, parseSramBytes, Yaml.toInt]
    · have hp : p ∈ pes := (List.mem_cons.mp h).resolve_left fun hpq => hq (by rw [hpq])
      simpa [findSramBytes, hq] using findSramBytes_processingElements args ranges pes p hp

/-- The converter reads the generator's PEs back: the names it assigns nodes to are the
`pe_<c>_<r>` of the `PeIdGen` positions, each with the generator's `pe_sram_bytes` as its
capacity. -/
theorem processingElementNames_buildPlatform {args : Args} {platform : Yaml}
    (hpes : args.numHbms < args.numColumns * args.numRows) (h : buildPlatform args = .ok platform) :
    ∃ pes, peIdGen args = .ok pes ∧
      processingElementNames platform = .ok (pes.map fun p => .str (createName "pe" p.1 p.2)) ∧
      ∀ p ∈ pes, getPeSramBytes platform (.str (createName "pe" p.1 p.2)) = .ok args.peSramBytes := by
  obtain ⟨processingElements, _, _, hpe, -, -, rfl⟩ := buildPlatform_eq_ok h
  simp only [buildProcessingElements, Except.bind_eq_ok, Except.pure_eq_ok] at hpe
  obtain ⟨pes, hgen, rfl⟩ := hpe
  have hne : pes ≠ [] := List.ne_nil_of_length_pos (by rw [peIdGen_length hgen]; omega)
  have hnames : (pes.map fun p => processingElement (buildMemoryMaps args) (buildPeConfig args)
      p.1 p.2).mapM (·.getItem "name") = .ok (pes.map fun p => .str (createName "pe" p.1 p.2)) :=
    Except.mapM_eq_ok_iff.mpr (List.forall₂_map_left_iff.mpr
      (List.forall₂_map_right_iff.mpr (List.forall₂_same.mpr fun _ _ => rfl)))
  refine ⟨pes, hgen, ?_, fun p hp => ?_⟩
  · simpa [processingElementNames, Yaml.lookup, Yaml.truthy, hne] using hnames
  · simp [getPeSramBytes, Yaml.lookup, findSramBytes_processingElements args _ pes p hp]

/-- With the default arguments the converter reads two PEs, each of 1 MiB. -/
theorem processingElementNames_defaultArgs :
    ∃ platform, buildPlatform defaultArgs = .ok platform ∧
      defaultArgs.numHbms < defaultArgs.numColumns * defaultArgs.numRows ∧
      ∃ pes, peIdGen defaultArgs = .ok pes ∧
        processingElementNames platform = .ok (pes.map fun p => .str (createName "pe" p.1 p.2)) ∧
        ∀ p ∈ pes, getPeSramBytes platform (.str (createName "pe" p.1 p.2)) =
          .ok defaultArgs.peSramBytes := by
  obtain ⟨platform, h⟩ : ∃ platform, buildPlatform defaultArgs = .ok platform := ⟨_, rfl⟩
  exact ⟨platform, h, by decide, processingElementNames_buildPlatform (by decide) h⟩

end Gwr
