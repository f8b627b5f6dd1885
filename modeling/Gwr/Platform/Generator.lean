import Gwr.Python.Int

/-!
# The platform generator

`gen_fabric.py` writes a platform around a `num_columns × num_rows` fabric. Position ids
`0, 1, …` run through the grid in column-major order, id `k` at
`(k // num_rows, k % num_rows)`. `PeIdGen` yields the first `C * R - H` positions, each
getting a processing element (optionally behind an L1 and an L2 cache), and `HbmIdGen` the
last `H`, each getting an HBM; the PEs share one memory map with a range per HBM, whose
bases advance by `hbm_size` from `hbm_base` and are written as `0x…` strings.

The script writes the platform with ruamel's `CommentedMap`s and anchors; what a YAML
loader reads back is a `Yaml` value, keys in insertion order, an anchored value repeated
where it is referenced. `parse_args` turns the command line into integers and strings and
checks only the fabric model's choices and that an L2 cache comes with an L1 cache.

## Main definitions

* `Args`, `defaultArgs`, `parseArgs` — the parsed arguments, their defaults and checks
* `peIdGen`, `hbmIdGen` — `PeIdGen` and `HbmIdGen`, run to exhaustion
* `buildConnections`, `buildMemories`, `buildMemoryMaps`, `buildCaches`,
  `buildProcessingElements` — the sections of the platform
* `buildPlatform` — `build_platform`

## Main results

* `peIdGen_eq`, `hbmIdGen_eq` — the generators' positions for at least one row
* `buildPlatform_ok_iff` — when `build_platform` returns rather than dividing by zero
* `buildCache_capacity` — a cache's sets, ways and lines fill its capacity, rounded down
* `hbmEntries_eq` — the running base address of HBM `i` is `hbm_base + i * hbm_size`
-/

set_option autoImplicit false

namespace Gwr

/-! ### Arguments -/

/-- The values `parse_args` returns. `--out`, the file `write_platform` writes, is not
modelled. -/
structure Args where
  peActiveRequests : Int
  peLsuAccessBytes : Int
  peSramBytes : Int
  peAddsPerTick : Int
  peMulsPerTick : Int
  fabricModel : String
  numColumns : Int
  numRows : Int
  numHbms : Int
  hbmBase : Int
  hbmSize : Int
  l1Kib : Int
  l1BytesPerCycle : Int
  l1NumWays : Int
  l1Latency : Int
  l2Kib : Int
  l2BytesPerCycle : Int
  l2NumWays : Int
  l2Latency : Int
  deriving DecidableEq

/-- The defaults of `parse_args`. -/
def defaultArgs : Args where
  peActiveRequests := 8
  peLsuAccessBytes := 32
  peSramBytes := 1024 * 1024
  peAddsPerTick := 16
  peMulsPerTick := 4
  fabricModel := "functional"
  numColumns := 2
  numRows := 2
  numHbms := 2
  hbmBase := 1024 * 1024 * 1024
  hbmSize := 1024 * 1024 * 1024
  l1Kib := 0
  l1BytesPerCycle := 32
  l1NumWays := 4
  l1Latency := 5
  l2Kib := 0
  l2BytesPerCycle := 32
  l2NumWays := 8
  l2Latency := 20

/-- Why `parse_args` stops: argparse rejects a value outside an option's `choices`, and
the script itself prints a message and exits. -/
inductive ArgsError where
  | invalidChoice (option value : String)
  | exit (message : String)
  deriving Repr, DecidableEq

/-- The `choices` of `--fabric-model`. -/
def fabricModelChoices : List String := ["routed", "functional"]

/-- The checks `parse_args` makes of the values it parsed: the fabric model's choices,
then an L2 cache only with an L1 cache. Nothing else is checked. -/
def parseArgs (args : Args) : Except ArgsError Args :=
  if args.fabricModel ∉ fabricModelChoices then
    .error (.invalidChoice "--fabric-model" args.fabricModel)
  else if args.l2Kib ≠ 0 ∧ args.l1Kib = 0 then
    .error (.exit "Cannot have an L2 cache without an L1 cache")
  else .ok args

/-- `parse_args` accepts exactly the argument sets with a listed fabric model and no L2
cache without an L1 cache: it checks nothing of the grid, the HBMs or the ways. -/
theorem parseArgs_ok_iff {args : Args} :
    parseArgs args = .ok args ↔
      args.fabricModel ∈ fabricModelChoices ∧ (args.l2Kib ≠ 0 → args.l1Kib ≠ 0) := by
  unfold parseArgs
  by_cases hmodel : args.fabricModel ∈ fabricModelChoices
  · by_cases hcache : args.l2Kib ≠ 0 ∧ args.l1Kib = 0
    · simp [hmodel, hcache]
    · rw [if_neg (not_not.mpr hmodel), if_neg hcache]
      exact iff_of_true rfl ⟨hmodel, not_and.mp hcache⟩
  · simp [hmodel]

/-! ### Grid positions -/

/-- `(id // num_rows, id % num_rows)`, which raises on zero rows. -/
def gridPosition (numRows id : Int) : Except PyError (Int × Int) :=
  if numRows = 0 then .error .zeroDivisionError else .ok (id.fdiv numRows, id.fmod numRows)

/-- The ids `PeIdGen` counts through: from `0` while below `C * R - H`. -/
def peIds (args : Args) : List Int :=
  (List.range (args.numColumns * args.numRows - args.numHbms).toNat).map Int.ofNat

/-- The ids `HbmIdGen` counts through: from `C * R - H` while below `C * R`. -/
def hbmIds (args : Args) : List Int :=
  (List.range args.numHbms.toNat).map fun i : Nat =>
    args.numColumns * args.numRows - args.numHbms + i

/-- `PeIdGen(args)`, run to exhaustion. -/
def peIdGen (args : Args) : Except PyError (List (Int × Int)) :=
  (peIds args).mapM (gridPosition args.numRows)

/-- `HbmIdGen(args)`, run to exhaustion. -/
def hbmIdGen (args : Args) : Except PyError (List (Int × Int)) :=
  (hbmIds args).mapM (gridPosition args.numRows)

/-- `create_name`. -/
def createName (namePrefix : String) (column row : Int) : String :=
  namePrefix ++ "_" ++ toString column ++ "_" ++ toString row

/-! ### The sections of the platform -/

/-- `FABRIC_NAME`. -/
def fabricName : String := "fabric0"

/-- `build_fabrics`. -/
def buildFabrics (args : Args) : Yaml :=
  .seq [.map [("name", .str fabricName), ("kind", .str args.fabricModel),
    ("columns", .int args.numColumns), ("rows", .int args.numRows),
    ("routing", .str "column-first")]]

/-- `LINE_SIZE_BYTES`. -/
def lineSizeBytes : Int := 32

/-- `build_cache`: `num_sets = (kib * 1024) // num_ways // LINE_SIZE_BYTES`, which raises
on zero ways. -/
def buildCache (name : String) (kib bytesPerCycle numWays latency : Int) :
    Except PyError Yaml :=
  if numWays = 0 then .error .zeroDivisionError
  else
    let numSets := ((kib * 1024).fdiv numWays).fdiv lineSizeBytes
    .ok (.map [("name", .str name), ("bw_bytes_per_cycle", .int bytesPerCycle),
      ("line_size_bytes", .int lineSizeBytes), ("num_ways", .int numWays),
      ("num_sets", .int numSets), ("delay_ticks", .int latency)])

/-- The one-cache list `build_caches` writes for a cache level at a PE position: the cache
when the level is configured (`kib ≠ 0`), else nothing. -/
def levelCache (name : String) (kib bytesPerCycle numWays latency : Int) :
    Except PyError (List Yaml) :=
  if kib ≠ 0 then (fun cache => [cache]) <$> buildCache name kib bytesPerCycle numWays latency
  else pure []

/-- The caches `build_caches` writes for the PE at `(column, row)`: its L1, then its L2. -/
def positionCaches (args : Args) (column row : Int) : Except PyError (List Yaml) := do
  let l1 ← levelCache (createName "l1" column row) args.l1Kib args.l1BytesPerCycle args.l1NumWays
    args.l1Latency
  let l2 ← levelCache (createName "l2" column row) args.l2Kib args.l2BytesPerCycle args.l2NumWays
    args.l2Latency
  pure (l1 ++ l2)

/-- `build_caches`: the caches of each PE position in turn; `None` when neither cache is
configured. -/
def buildCaches (args : Args) : Except PyError Yaml := do
  if args.l1Kib = 0 ∧ args.l2Kib = 0 then return .null
  let caches ← (← peIdGen args).mapM fun position => positionCaches args position.1 position.2
  pure (.seq caches.flatten)

/-- `f'0x{n:x}'`. -/
def hexLiteral (n : Int) : String := "0x" ++ formatHex n

/-- The loop shape of `build_memories` and `build_memory_maps`: the entry of HBM `i` is
built from the running base address, which then advances by `hbm_size`. -/
def hbmEntries (entry : Nat → Int → Yaml) (size : Int) : Nat → Nat → Int → List Yaml
  | 0, _, _ => []
  | n + 1, i, base => entry i base :: hbmEntries entry size n (i + 1) (base + size)

/-- The memory `build_memories` writes for HBM `i`. -/
def memoryEntry (size : Int) (i : Nat) (base : Int) : Yaml :=
  .map [("name", .str ("hbm" ++ toString i)), ("kind", .str "hbm"),
    ("base_address", .str (hexLiteral base)), ("capacity_bytes", .str (hexLiteral size)),
    ("delay_ticks", .int 10)]

/-- `build_memories`. -/
def buildMemories (args : Args) : Yaml :=
  .seq (hbmEntries (memoryEntry args.hbmSize) args.hbmSize args.numHbms.toNat 0 args.hbmBase)

/-- The memory-map range `build_memory_maps` writes for HBM `mm`. -/
def memoryMapEntry (size : Int) (mm : Nat) (base : Int) : Yaml :=
  .map [("base_address", .str (hexLiteral base)), ("size_bytes", .str (hexLiteral size)),
    ("device", .str ("hbm" ++ toString mm))]

/-- `build_memory_maps`: the ranges of the PEs' shared memory map. -/
def buildMemoryMaps (args : Args) : Yaml :=
  .seq (hbmEntries (memoryMapEntry args.hbmSize) args.hbmSize args.numHbms.toNat 0
    args.hbmBase)

/-- The fabric port `fabric.fabric0@(column,row)`. -/
def fabricPort (column row : Int) : String :=
  "fabric." ++ fabricName ++ "@(" ++ toString column ++ "," ++ toString row ++ ")"

/-- The entities from the PE at `(column, row)` to the fabric: the PE, its L1 and L2
caches when they are configured, and its fabric port. -/
def peChain (args : Args) (column row : Int) : List String :=
  ["pe." ++ createName "pe" column row] ++
    (if args.l1Kib ≠ 0 then ["cache." ++ createName "l1" column row] else []) ++
    (if args.l2Kib ≠ 0 then ["cache." ++ createName "l2" column row] else []) ++
    [fabricPort column row]

/-- A `{connect: [a, b]}` entry. -/
def connection (a b : String) : Yaml := .map [("connect", .seq [.str a, .str b])]

/-- The entries joining each pair `entities[i], entities[i+1]` of a chain. -/
def chainConnections (entities : List String) : List Yaml :=
  (entities.zip entities.tail).map fun pair => connection pair.1 pair.2

/-- `build_connections`: each PE's chain, then `mem.hbm<i>` to the `i`-th HBM position. -/
def buildConnections (args : Args) : Except PyError Yaml := do
  let pes ← peIdGen args
  let hbms ← hbmIdGen args
  pure (.seq ((pes.flatMap fun p => chainConnections (peChain args p.1 p.2)) ++
    hbms.enum.map fun entry => connection ("mem.hbm" ++ toString entry.1)
      (fabricPort entry.2.1 entry.2.2)))

/-- `build_pe_config`: the configuration every PE shares. -/
def buildPeConfig (args : Args) : Yaml :=
  .map [("num_active_requests", .int args.peActiveRequests),
    ("lsu_access_bytes", .int args.peLsuAccessBytes), ("sram_bytes", .int args.peSramBytes),
    ("adds_per_tick", .int args.peAddsPerTick), ("muls_per_tick", .int args.peMulsPerTick)]

/-- The PE `build_processing_elements` writes at `(column, row)`. -/
def processingElement (ranges peConfig : Yaml) (column row : Int) : Yaml :=
  .map [("name", .str (createName "pe" column row)), ("memory_map", .map [("ranges", ranges)]),
    ("config", peConfig)]

/-- `build_processing_elements`: a PE at each `PeIdGen` position, all with the same ranges
and configuration. -/
def buildProcessingElements (args : Args) (ranges peConfig : Yaml) : Except PyError Yaml := do
  let pes ← peIdGen args
  pure (.seq (pes.map fun p => processingElement ranges peConfig p.1 p.2))

/-- `build_platform`. -/
def buildPlatform (args : Args) : Except PyError Yaml := do
  let ranges := buildMemoryMaps args
  let peConfig := buildPeConfig args
  let processingElements ← buildProcessingElements args ranges peConfig
  let connections ← buildConnections args
  let memories := buildMemories args
  let fabrics := buildFabrics args
  let caches ← buildCaches args
  pure (.map [("memory", ranges), ("config", peConfig), ("fabrics", fabrics),
    ("processing_elements", processingElements), ("memories", memories), ("caches", caches),
    ("connections", connections)])

/-- A platform `build_platform` returns is a mapping of its seven sections, in this order. -/
theorem buildPlatform_eq_ok {args : Args} {platform : Yaml} (h : buildPlatform args = .ok platform) :
    ∃ processingElements connections caches,
      buildProcessingElements args (buildMemoryMaps args) (buildPeConfig args) =
        .ok processingElements ∧
      buildConnections args = .ok connections ∧ buildCaches args = .ok caches ∧
      platform = .map [("memory", buildMemoryMaps args), ("config", buildPeConfig args),
        ("fabrics", buildFabrics args), ("processing_elements", processingElements),
        ("memories", buildMemories args), ("caches", caches), ("connections", connections)] := by
  simp only [buildPlatform, Except.bind_eq_ok, Except.pure_eq_ok] at h
  obtain ⟨pes, hpes, conns, hconns, caches, hcaches, rfl⟩ := h
  exact ⟨pes, conns, caches, hpes, hconns, hcaches, rfl⟩

/-! ### The generators' positions -/

section Positions

variable {args : Args}

theorem gridPosition_of_pos {numRows : Int} (hR : 0 < numRows) (id : Int) :
    gridPosition numRows id = .ok (id / numRows, id % numRows) := by
  rw [gridPosition, if_neg (by omega), Int.fdiv_eq_ediv _ hR.le, Int.fmod_eq_emod _ hR.le]

theorem mapM_gridPosition {numRows : Int} (hR : 0 < numRows) (ids : List Int) :
    ids.mapM (gridPosition numRows) = .ok (ids.map fun id => (id / numRows, id % numRows)) :=
  Except.mapM_eq_ok_iff.mpr (List.forall₂_map_right_iff.mpr
    (List.forall₂_same.mpr fun id _ => gridPosition_of_pos hR id))

/-- With at least one row, `PeIdGen` yields the positions of ids `0, …, C * R - H - 1`. -/
theorem peIdGen_eq (hR : 0 < args.numRows) :
    peIdGen args = .ok ((peIds args).map fun id => (id / args.numRows, id % args.numRows)) :=
  mapM_gridPosition hR _

/-- With at least one row, `HbmIdGen` yields the positions of ids `C * R - H, …, C * R - 1`. -/
theorem hbmIdGen_eq (hR : 0 < args.numRows) :
    hbmIdGen args = .ok ((hbmIds args).map fun id => (id / args.numRows, id % args.numRows)) :=
  mapM_gridPosition hR _

theorem peIdGen_length {pes : List (Int × Int)} (h : peIdGen args = .ok pes) :
    pes.length = (args.numColumns * args.numRows - args.numHbms).toNat := by
  rw [← (Except.mapM_eq_ok_iff.mp h).length_eq, peIds, List.length_map, List.length_range]

theorem hbmIdGen_length {hbms : List (Int × Int)} (h : hbmIdGen args = .ok hbms) :
    hbms.length = args.numHbms.toNat := by
  rw [← (Except.mapM_eq_ok_iff.mp h).length_eq, hbmIds, List.length_map, List.length_range]

end Positions

/-- Names that share a prefix are equal exactly when their rests are. -/
theorem string_append_injective (s : String) : Function.Injective (s ++ ·) := fun _ _ h =>
  String.ext (List.append_cancel_left (congrArg String.data h))

/-! ### When `build_platform` returns

`parse_args` checks neither the grid nor the caches, and `build_platform` raises
`ZeroDivisionError` when a generator divides by zero rows or a configured cache level has
no ways. -/

section Returns

variable {args : Args}

theorem gridPosition_ok_iff {numRows id : Int} :
    (∃ position, gridPosition numRows id = .ok position) ↔ numRows ≠ 0 := by
  unfold gridPosition
  split <;> simp_all

/-- `PeIdGen` runs to exhaustion unless it yields an id and there are no rows. -/
theorem peIdGen_ok_iff : (∃ pes, peIdGen args = .ok pes) ↔
    args.numRows ≠ 0 ∨ args.numColumns * args.numRows - args.numHbms ≤ 0 := by
  simp only [peIdGen, Except.mapM_ok_iff, gridPosition_ok_iff, peIds, List.mem_map,
    List.mem_range, forall_exists_index, and_imp]
  constructor
  · intro h
    by_contra hc
    push_neg at hc
    exact h _ 0 (by omega) rfl hc.1
  · rintro (h | h) _ k hk _
    · exact h
    · omega

/-- `HbmIdGen` runs to exhaustion unless it yields an id and there are no rows. -/
theorem hbmIdGen_ok_iff : (∃ hbms, hbmIdGen args = .ok hbms) ↔
    args.numRows ≠ 0 ∨ args.numHbms ≤ 0 := by
  simp only [hbmIdGen, Except.mapM_ok_iff, gridPosition_ok_iff, hbmIds, List.mem_map,
    List.mem_range, forall_exists_index, and_imp]
  constructor
  · intro h
    by_contra hc
    push_neg at hc
    exact h _ 0 (by omega) rfl hc.1
  · rintro (h | h) _ k hk _
    · exact h
    · omega

theorem levelCache_ok_iff {name : String} {kib bytesPerCycle numWays latency : Int} :
    (∃ caches, levelCache name kib bytesPerCycle numWays latency = .ok caches) ↔
      (kib ≠ 0 → numWays ≠ 0) := by
  unfold levelCache buildCache
  by_cases hkib : kib = 0 <;> by_cases hways : numWays = 0 <;> simp [hkib, hways]

/-- A PE position's caches are built exactly when each configured level has ways. -/
theorem positionCaches_ok_iff {column row : Int} :
    (∃ caches, positionCaches args column row = .ok caches) ↔
      (args.l1Kib ≠ 0 → args.l1NumWays ≠ 0) ∧ (args.l2Kib ≠ 0 → args.l2NumWays ≠ 0) := by
  rw [← @levelCache_ok_iff (createName "l1" column row) args.l1Kib args.l1BytesPerCycle
      args.l1NumWays args.l1Latency,
    ← @levelCache_ok_iff (createName "l2" column row) args.l2Kib args.l2BytesPerCycle
      args.l2NumWays args.l2Latency]
  simp only [positionCaches, Except.bind_eq_ok, Except.pure_eq_ok]
  constructor
  · rintro ⟨_, l1, hl1, l2, hl2, -⟩
    exact ⟨⟨l1, hl1⟩, l2, hl2⟩
  · rintro ⟨⟨l1, hl1⟩, l2, hl2⟩
    exact ⟨_, l1, hl1, l2, hl2, rfl⟩

/-- The caches are built when neither level is configured, and otherwise exactly when
`PeIdGen` runs and either yields no position or finds ways at each configured level. -/
theorem buildCaches_ok_iff : (∃ caches, buildCaches args = .ok caches) ↔
    (args.l1Kib = 0 ∧ args.l2Kib = 0) ∨ (∃ pes, peIdGen args = .ok pes) ∧
      (args.numColumns * args.numRows - args.numHbms ≤ 0 ∨
        (args.l1Kib ≠ 0 → args.l1NumWays ≠ 0) ∧ (args.l2Kib ≠ 0 → args.l2NumWays ≠ 0)) := by
  unfold buildCaches
  split
  · rename_i hnone
    simp [hnone]
  · rename_i hsome
    have hpositions : ∀ pes : List (Int × Int), peIdGen args = .ok pes →
        ((∃ css, pes.mapM (fun p => positionCaches args p.1 p.2) = .ok css) ↔
          (args.numColumns * args.numRows - args.numHbms ≤ 0 ∨
            (args.l1Kib ≠ 0 → args.l1NumWays ≠ 0) ∧ (args.l2Kib ≠ 0 → args.l2NumWays ≠ 0))) := by
      intro pes hpes
      have hempty : pes = [] ↔ args.numColumns * args.numRows - args.numHbms ≤ 0 := by
        rw [← List.length_eq_zero, peIdGen_length hpes]
        omega
      rw [Except.mapM_ok_iff, ← hempty]
      simp only [positionCaches_ok_iff]
      constructor
      · intro h
        rcases pes with _ | ⟨p, pes⟩
        · exact .inl rfl
        · exact .inr (h p (List.mem_cons_self _ _))
      · rintro (rfl | h) p hp
        · exact absurd hp (List.not_mem_nil _)
        · exact h
    simp only [Except.bind_eq_ok, Except.pure_eq_ok, hsome, false_or]
    constructor
    · rintro ⟨_, _, -, pes, hpes, css, hcss, -⟩
      exact ⟨⟨pes, hpes⟩, (hpositions pes hpes).mp ⟨css, hcss⟩⟩
    · rintro ⟨⟨pes, hpes⟩, h⟩
      obtain ⟨css, hcss⟩ := (hpositions pes hpes).mpr h
      exact ⟨_, (), trivial, pes, hpes, css, hcss, rfl⟩

/-- `build_platform` returns exactly when no generator yields an id on a fabric without
rows and, if there is a PE, every configured cache level has ways; otherwise one of its
divisions raises. `parse_args` checks none of these conditions. -/
theorem buildPlatform_ok_iff :
    ((∃ platform, buildPlatform args = .ok platform) ↔
      (args.numRows ≠ 0 ∨ args.numHbms = 0) ∧
        (args.numColumns * args.numRows - args.numHbms ≤ 0 ∨
          (args.l1Kib ≠ 0 → args.l1NumWays ≠ 0) ∧ (args.l2Kib ≠ 0 → args.l2NumWays ≠ 0))) ∧
    (parseArgs args = .ok args ↔
      args.fabricModel ∈ fabricModelChoices ∧ (args.l2Kib ≠ 0 → args.l1Kib ≠ 0)) := by
  refine ⟨?_, parseArgs_ok_iff⟩
  have hsections : (∃ platform, buildPlatform args = .ok platform) ↔
      (∃ pes, peIdGen args = .ok pes) ∧ (∃ hbms, hbmIdGen args = .ok hbms) ∧
        ∃ caches, buildCaches args = .ok caches := by
    constructor
    · rintro ⟨platform, h⟩
      obtain ⟨_, _, caches, hpe, hconn, hcaches, -⟩ := buildPlatform_eq_ok h
      simp only [buildProcessingElements, Except.bind_eq_ok] at hpe
      simp only [buildConnections, Except.bind_eq_ok] at hconn
      obtain ⟨pes, hpes, -⟩ := hpe
      obtain ⟨-, -, hbms, hhbms, -⟩ := hconn
      exact ⟨⟨pes, hpes⟩, ⟨hbms, hhbms⟩, caches, hcaches⟩
    · rintro ⟨⟨pes, hpes⟩, ⟨hbms, hhbms⟩, caches, hcaches⟩
      cases h : buildPlatform args with
      | ok platform => exact ⟨platform, rfl⟩
      | error e =>
        simp only [buildPlatform, buildProcessingElements, buildConnections, hpes, hhbms,
          hcaches] at h
        cases h
  rw [hsections, peIdGen_ok_iff, hbmIdGen_ok_iff, buildCaches_ok_iff, peIdGen_ok_iff]
  by_cases hR : args.numRows = 0
  · -- without rows, only the empty grid with no HBM is built
    rw [hR, mul_zero]
    constructor
    · rintro ⟨h1, h2, -⟩
      exact ⟨.inr (by omega), .inl (by omega)⟩
    · rintro ⟨h | h, -⟩
      · exact absurd rfl h
      · exact ⟨.inr (by omega), .inr (by omega), .inr ⟨.inr (by omega), .inl (by omega)⟩⟩
  · constructor
    · rintro ⟨-, -, ⟨h1, h2⟩ | ⟨-, h⟩⟩
      · exact ⟨.inl hR, .inr ⟨fun h => absurd h1 h, fun h => absurd h2 h⟩⟩
      · exact ⟨.inl hR, h⟩
    · rintro ⟨-, h⟩
      exact ⟨.inl hR, .inl hR, .inr ⟨.inl hR, h⟩⟩

end Returns

/-- The default arguments on a grid without rows: two HBMs and no PE position. -/
def zeroRowArgs : Args := { defaultArgs with numRows := 0 }

/-- The default arguments with a 4 KiB L1 cache of no ways. -/
def noWayArgs : Args := { defaultArgs with l1Kib := 4, l1NumWays := 0 }

/-- `parse_args` accepts zero rows with the default two HBMs, and an L1 cache of 4 KiB with
no ways; `build_platform` raises on both. -/
theorem buildPlatform_ok_iff_accepted :
    (parseArgs zeroRowArgs = .ok zeroRowArgs ∧
      ¬ ∃ platform, buildPlatform zeroRowArgs = .ok platform) ∧
    parseArgs noWayArgs = .ok noWayArgs ∧ ¬ ∃ platform, buildPlatform noWayArgs = .ok platform :=
  have hzero := @buildPlatform_ok_iff zeroRowArgs
  have hways := @buildPlatform_ok_iff noWayArgs
  ⟨⟨hzero.2.mpr (by decide), fun h => absurd (hzero.1.mp h) (by decide)⟩,
    hways.2.mpr (by decide), fun h => absurd (hways.1.mp h) (by decide)⟩

/-- A cache with ways holds at most its configured capacity and misses less than one set
of it: `num_sets * num_ways * LINE_SIZE_BYTES ≤ kib * 1024`, with one more set above it. -/
theorem buildCache_capacity {name : String} {kib bytesPerCycle numWays latency : Int}
    (hways : 0 < numWays) :
    ∃ cache numSets, buildCache name kib bytesPerCycle numWays latency = .ok cache ∧
      cache.getItem "num_sets" = .ok (.int numSets) ∧
      cache.getItem "num_ways" = .ok (.int numWays) ∧
      cache.getItem "line_size_bytes" = .ok (.int lineSizeBytes) ∧
      numSets * numWays * lineSizeBytes ≤ kib * 1024 ∧
      kib * 1024 < (numSets + 1) * numWays * lineSizeBytes := by
  rw [buildCache, if_neg hways.ne']
  refine ⟨_, _, rfl, rfl, rfl, rfl, ?_⟩
  have hline : lineSizeBytes = 32 := rfl
  rw [hline, Int.fdiv_eq_ediv _ hways.le, Int.fdiv_eq_ediv _ (by decide)]
  have hbelow := Int.ediv_mul_le (kib * 1024) hways.ne'
  have habove := Int.lt_ediv_add_one_mul_self (kib * 1024) hways
  have hbelow' := Int.ediv_mul_le (kib * 1024 / numWays) (by decide : (32 : Int) ≠ 0)
  have habove' := Int.lt_ediv_add_one_mul_self (kib * 1024 / numWays) (by decide : (0 : Int) < 32)
  constructor <;> nlinarith

/-- A 64 KiB cache of 4 ways has 512 sets of 32-byte lines. -/
theorem buildCache_capacity_l1 :
    (0 : Int) < 4 ∧ ∃ cache numSets, buildCache "l1_0_0" 64 32 4 5 = .ok cache ∧
      cache.getItem "num_sets" = .ok (.int numSets) ∧
      cache.getItem "num_ways" = .ok (.int 4) ∧
      cache.getItem "line_size_bytes" = .ok (.int lineSizeBytes) ∧
      numSets * 4 * lineSizeBytes ≤ 64 * 1024 ∧ 64 * 1024 < (numSets + 1) * 4 * lineSizeBytes :=
  ⟨by decide, buildCache_capacity (by decide)⟩

/-- The running base address of HBM `i + k` is the loop's start plus `k` sizes. -/
theorem hbmEntries_eq (entry : Nat → Int → Yaml) (size : Int) :
    ∀ (n i : Nat) (base : Int),
      hbmEntries entry size n i base = (List.range n).map fun k => entry (i + k) (base + k * size)
  | 0, _, _ => rfl
  | n + 1, i, base => by
    rw [hbmEntries, hbmEntries_eq entry size n (i + 1) (base + size), List.range_succ_eq_map]
    simp only [List.map_cons, List.map_map, Nat.add_zero, Nat.cast_zero, zero_mul, add_zero,
      Function.comp_def, Nat.cast_succ]
    congr 1
    refine List.map_congr_left fun k _ => ?_
    rw [Nat.add_assoc, Nat.add_comm 1 k, add_assoc, add_comm size, ← add_one_mul]

end Gwr
