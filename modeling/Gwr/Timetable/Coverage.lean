import Gwr.Timetable.Lowering
import Gwr.Timetable.Placement

/-!
# Every named slot is moved in full

For capacities of at least one byte, the records of every named input or output slot
tile the slot's tensor: `⌈size / sram⌉` chunks from the address the layout gave the
tensor, covering its bytes exactly, whatever the PE and its capacity
(`onnxToGwrTimetable_slots_cover`). On a well-formed platform the converter fails only on
a graph node without a name: every lookup of a node tensor succeeds, because the tensor
table holds every named node input and output and the layout places every entry of it
(`onnxToGwrTimetable_raises_iff`).

The script checks neither the capacities nor the device names. A device written as a
list cannot be a dictionary key, so the layout raises `TypeError` on a graph whose nodes
are all named (`onnxToGwrTimetable_unhashable_device`); and a negative capacity turns the
ceiling division of a slot negative, so the slot gets no record and the conversion still
returns (`onnxToGwrTimetable_negative_sram`). A non-negative capacity is enough: a zero
one raises, so every named slot's records still cover its tensor, at least one record
each, of at least one byte each (`onnxToGwrTimetable_slots_nonempty`).

## Main definitions

* `SlotsCover` — the record groups of a node's named slots each cover their tensor

## Main results

* `onnxToGwrTimetable_slots_cover`
* `onnxToGwrTimetable_raises_iff`
* `onnxToGwrTimetable_slots_nonempty`
-/

set_option autoImplicit false

namespace Gwr

/-- The record groups of the named slots of `names` each cover their tensor: group `j` is
the split of the `j`-th named slot's tensor, from the address the layout gave it, with
the id format `slotId`. -/
def SlotsCover (tensors : PyDict String TensorRecord) (tensorAddresses : PyDict String Int)
    (slotId : Nat → String) (opType : String) (pe : Yaml) (sramBytes : Int)
    (names : List String) (groups : List (List TimetableNode)) : Prop :=
  List.Forall₂ (fun (slot : Nat × String) recs => ∃ addr record,
      tensorAddresses.get? slot.2 = some addr ∧ tensors.get? slot.2 = some record ∧
      CoversTensor recs (slotId slot.1) opType pe addr record.sizeBytes sramBytes)
    (nonemptySlots names) groups

/-- Every group of a covering holds a record, since every tensor of the table has a byte. -/
theorem SlotsCover.ne_nil {tensors : PyDict String TensorRecord}
    {tensorAddresses : PyDict String Int} {slotId : Nat → String} {opType : String} {pe : Yaml}
    {sramBytes : Int} {names : List String} {groups : List (List TimetableNode)}
    (htable : TableOk tensors)
    (h : SlotsCover tensors tensorAddresses slotId opType pe sramBytes names groups) :
    ∀ recs ∈ groups, recs ≠ [] := fun recs hrecs => by
  obtain ⟨_, -, _, record, -, hrecord, hcovers⟩ := exists_of_forall₂_right h recs hrecs
  exact hcovers.ne_nil (htable _ (PyDict.get?_eq_some_iff.mp hrecord)).2

/-! ### One slot -/

section Slot

variable {tensors : PyDict String TensorRecord} {tensorAddresses : PyDict String Int}
  {baseId opType : String} {pe : Yaml} {sramBytes : Int} {tensorName : String}

/-- A slot split without error, at a non-negative capacity, covers its tensor: the split
raised on a zero capacity, and every tensor has at least one byte. -/
theorem slotOps_covers (hcap : 0 ≤ sramBytes) (htable : TableOk tensors)
    {recs : List TimetableNode}
    (h : slotOps tensors tensorAddresses baseId opType pe sramBytes tensorName = .ok recs) :
    ∃ addr record, tensorAddresses.get? tensorName = some addr ∧
      tensors.get? tensorName = some record ∧
      CoversTensor recs baseId opType pe addr record.sizeBytes sramBytes := by
  simp only [slotOps, Except.bind_eq_ok, PyDict.getItem_eq_ok] at h
  obtain ⟨addr, haddr, record, hrecord, hsplit⟩ := h
  have hsize : 1 ≤ record.sizeBytes := (htable _ (PyDict.get?_eq_some_iff.mp hrecord)).2
  have hcap' : sramBytes ≠ 0 := by
    rintro rfl
    simp [splitMemoryOp] at hsplit
  obtain ⟨recs', hsplit', hcovers⟩ : ∃ recs', splitMemoryOp baseId opType pe addr
      record.sizeBytes sramBytes = .ok recs' ∧
      CoversTensor recs' baseId opType pe addr record.sizeBytes sramBytes :=
    splitMemoryOp_covers (by omega) (by omega)
  rw [hsplit'] at hsplit
  cases hsplit
  exact ⟨addr, record, haddr, hrecord, hcovers⟩

/-- A slot whose tensor has an address and a record is split without error at a non-zero
capacity. -/
theorem slotOps_ok (hcap : sramBytes ≠ 0) (haddr : tensorName ∈ tensorAddresses.keys)
    (hrecord : tensorName ∈ tensors.keys) :
    ∃ recs, slotOps tensors tensorAddresses baseId opType pe sramBytes tensorName = .ok recs := by
  obtain ⟨addr, haddr⟩ := PyDict.mem_keys_iff_exists_get?.mp haddr
  obtain ⟨record, hrecord⟩ := PyDict.mem_keys_iff_exists_get?.mp hrecord
  simp [slotOps, haddr, hrecord, splitMemoryOp, hcap]

/-- A slot split without error, at a non-negative capacity, has at least one record,
and each of its records moves at least one byte. -/
theorem slotOps_records (hcap : 0 ≤ sramBytes) (htable : TableOk tensors)
    {recs : List TimetableNode}
    (h : slotOps tensors tensorAddresses baseId opType pe sramBytes tensorName = .ok recs) :
    recs ≠ [] ∧ ∀ r ∈ recs, ∀ id op pe' addr numBytes,
      r = .memory id op pe' addr numBytes → 1 ≤ numBytes := by
  obtain ⟨_, record, -, hrecord, hcovers⟩ := slotOps_covers hcap htable h
  exact ⟨hcovers.ne_nil (htable _ (PyDict.get?_eq_some_iff.mp hrecord)).2,
    fun _ hr _ _ _ _ _ hmem => hcovers.numBytes_pos hr hmem⟩

end Slot

/-! ### One node -/

section Node

variable {tensors : PyDict String TensorRecord} {tensorAddresses : PyDict String Int}

/-- `_calculate_num_ops` returns on every tensor of a table of usable records. -/
theorem calculateNumOps_ok (htable : TableOk tensors) {outputName : String}
    (h : outputName ∈ tensors.keys) : ∃ numOps, calculateNumOps tensors outputName = .ok numOps := by
  obtain ⟨⟨shape, dtype, sizeBytes⟩, hrecord⟩ := PyDict.mem_keys_iff_exists_get?.mp h
  have hshape := (htable _ (PyDict.get?_eq_some_iff.mp hrecord)).1
  cases shape with
  | none => cases hshape
  | some shape => exact ⟨max 1 (getTensorNumElements shape), by simp [calculateNumOps, hrecord]⟩

/-- The loop over a node's outputs returns when every named output has a record. -/
theorem computeConfig_ok (htable : TableOk tensors) :
    ∀ (outputs : List String) (acc : Int × String),
      (∀ name ∈ outputs, name ≠ "" → name ∈ tensors.keys) →
      ∃ cfg, outputs.foldlM (computeStep tensors) acc = .ok cfg
  | [], acc, _ => ⟨acc, rfl⟩
  | name :: outputs, acc, h => by
    have hstep : ∃ acc', computeStep tensors acc name = .ok acc' := by
      unfold computeStep
      split_ifs with hname
      · exact ⟨acc, rfl⟩
      · obtain ⟨numOps, hnum⟩ := calculateNumOps_ok htable (h name (List.mem_cons_self _ _) hname)
        simp [hnum]
    obtain ⟨acc', hacc'⟩ := hstep
    obtain ⟨cfg, hcfg⟩ := computeConfig_ok htable outputs acc' fun n hn =>
      h n (List.mem_cons_of_mem _ hn)
    exact ⟨cfg, by simp [List.foldlM_cons, hacc', hcfg]⟩

/-- A named node whose named tensors all have records and addresses is lowered, on any
PE of non-zero capacity. -/
theorem exists_loweredAs {platformConfig : Yaml} {peNames : List Yaml} {peIndex : Nat}
    {onnxNode : NodeProto} {pe : Yaml} {sramBytes : Int} (htable : TableOk tensors)
    (hkeys : ∀ name ∈ onnxNode.input ++ onnxNode.output, name ≠ "" →
      name ∈ tensors.keys ∧ name ∈ tensorAddresses.keys)
    (hname : onnxNode.name ≠ "") (hpe : peNames[peIndex]? = some pe)
    (hsram : getPeSramBytes platformConfig pe = .ok sramBytes) (hcap : sramBytes ≠ 0) :
    ∃ b, LoweredAs tensors tensorAddresses platformConfig peNames peIndex onnxNode b := by
  have hslots : ∀ names : List String, (∀ name ∈ names, name ≠ "" →
      name ∈ tensors.keys ∧ name ∈ tensorAddresses.keys) → ∀ (slotId : Nat → String) opType,
      ∃ groups, List.Forall₂ (fun slot recs => slotOps tensors tensorAddresses (slotId slot.1)
        opType pe sramBytes slot.2 = .ok recs) (nonemptySlots names) groups := by
    intro names hnames slotId opType
    refine exists_forall₂_of_forall fun slot hslot => ?_
    obtain ⟨hmem, hne⟩ : slot ∈ names.enum ∧ slot.2 ≠ "" := by simpa [nonemptySlots] using hslot
    have := hnames slot.2 (List.snd_mem_of_mem_enum hmem) hne
    exact slotOps_ok hcap this.2 this.1
  obtain ⟨loads, hloads⟩ := hslots onnxNode.input
    (fun n hn => hkeys n (List.mem_append_left _ hn)) (loadId onnxNode.name) "load"
  obtain ⟨stores, hstores⟩ := hslots onnxNode.output
    (fun n hn => hkeys n (List.mem_append_right _ hn)) (storeId onnxNode.name) "store"
  obtain ⟨⟨numOps, dtype⟩, hcfg⟩ := computeConfig_ok htable onnxNode.output (1, "fp32")
    fun n hn hne => (hkeys n (List.mem_append_right _ hn) hne).1
  exact ⟨⟨pe, sramBytes, loads, .compute (computeId onnxNode.name)
    (mapOnnxOpToGwrOp onnxNode.opType) pe dtype numOps, stores⟩, hname, hpe, hsram, hloads,
    ⟨numOps, dtype, hcfg, rfl⟩, hstores⟩

end Node

/-! ### The whole graph -/

/-- Every slot of every run at non-negative capacities covers its tensor. -/
theorem onnxToGwrTimetable_slotsCover {model : ModelProto} {platformConfig : Yaml}
    {tt : Timetable}
    (hcap : ∀ peName sramBytes, getPeSramBytes platformConfig peName = .ok sramBytes →
      0 ≤ sramBytes)
    (h : onnxToGwrTimetable model platformConfig = .ok tt) :
    ∃ tensorAddresses blocks,
      layoutTensors (collectTensors model) platformConfig = .ok tensorAddresses ∧
      tt.nodes = (blocks.map Block.nodes).flatten ∧
      List.Forall₂ (fun (onnxNode : NodeProto) b =>
          getPeSramBytes platformConfig b.pe = .ok b.sramBytes ∧
          SlotsCover (collectTensors model) tensorAddresses (loadId onnxNode.name) "load" b.pe
            b.sramBytes onnxNode.input b.loads ∧
          SlotsCover (collectTensors model) tensorAddresses (storeId onnxNode.name) "store" b.pe
            b.sramBytes onnxNode.output b.stores)
        model.graph.node blocks := by
  obtain ⟨addrs, _, blocks, haddrs, -, hblocks, rfl⟩ := onnxToGwrTimetable_eq_ok_iff.mp h
  have htable := tableOk_collectTensors model
  refine ⟨addrs, blocks, haddrs, rfl, ?_⟩
  rw [← List.enum_map_snd model.graph.node, List.forall₂_map_left_iff]
  refine hblocks.imp fun _ b hb => ⟨hb.sramBytes_eq, ?_, ?_⟩
  · exact hb.loads_eq.imp fun _ _ hslot => slotOps_covers (hcap _ _ hb.sramBytes_eq) htable hslot
  · exact hb.stores_eq.imp fun _ _ hslot => slotOps_covers (hcap _ _ hb.sramBytes_eq) htable hslot

/-- For capacities of at least one byte, every named input slot of every graph node gets
the records that tile its tensor at the address the layout gave it, `⌈size / sram⌉` of
them, and so does every named output slot. -/
theorem onnxToGwrTimetable_slots_cover {model : ModelProto} {platformConfig : Yaml}
    {tt : Timetable}
    (hcap : ∀ peName sramBytes, getPeSramBytes platformConfig peName = .ok sramBytes →
      1 ≤ sramBytes)
    (h : onnxToGwrTimetable model platformConfig = .ok tt) :
    ∃ tensorAddresses blocks,
      layoutTensors (collectTensors model) platformConfig = .ok tensorAddresses ∧
      tt.nodes = (blocks.map Block.nodes).flatten ∧
      List.Forall₂ (fun (onnxNode : NodeProto) b =>
          getPeSramBytes platformConfig b.pe = .ok b.sramBytes ∧
          SlotsCover (collectTensors model) tensorAddresses (loadId onnxNode.name) "load" b.pe
            b.sramBytes onnxNode.input b.loads ∧
          SlotsCover (collectTensors model) tensorAddresses (storeId onnxNode.name) "store" b.pe
            b.sramBytes onnxNode.output b.stores)
        model.graph.node blocks :=
  onnxToGwrTimetable_slotsCover (fun p c hc => by have := hcap p c hc; omega) h

/-- A graph node named `n` reading `x` and writing `y`. -/
def copyModel : ModelProto := ⟨⟨[⟨"n", "Relu", ["x"], ["y"]⟩], [], [], [], []⟩⟩

/-- A platform with one memory range on `hbm0` and one PE `pe0` of the default capacity. -/
def defaultPePlatform : Yaml :=
  .map [("memory_maps", .seq [.map [("ranges", .seq [.map [("device", .str "hbm0"),
      ("base_address", .str "0x0")]])]]),
    ("processing_elements", .seq [.map [("name", .str "pe0")]])]

/-- Every name resolves to the default capacity on `defaultPePlatform`. -/
theorem getPeSramBytes_defaultPePlatform (peName : Yaml) :
    getPeSramBytes defaultPePlatform peName = .ok defaultSramBytes := by
  by_cases hname : Yaml.str "pe0" = peName <;>
    simp [getPeSramBytes, defaultPePlatform, findSramBytes, Yaml.getItem, Yaml.lookup, hname]

/-- Three nodes in a chain: `a` reads `x` and writes `y`; `b` reads `y`, has an empty
second input, reads `x` as its third and writes `z`; `c` reads `z` and writes `w`. -/
def chainModel : ModelProto :=
  ⟨⟨[⟨"a", "Relu", ["x"], ["y"]⟩, ⟨"b", "Add", ["y", "", "x"], ["z"]⟩,
    ⟨"c", "Relu", ["z"], ["w"]⟩], [], [], [], []⟩⟩

/-- A platform with one memory range on `hbm0` and two PEs with 2 and 3 bytes of SRAM, the
second written as the string `"0x3"`. -/
def smallSramPlatform : Yaml :=
  .map [("memory_maps", .seq [.map [("ranges", .seq [.map [("device", .str "hbm0"),
      ("base_address", .str "0x0")]])]]),
    ("processing_elements", .seq [.map [("name", .str "pe0"),
        ("config", .map [("sram_bytes", .int 2)])],
      .map [("name", .str "pe1"), ("config", .map [("sram_bytes", .str "0x3")])]])]

/-- The capacities of `smallSramPlatform`: `pe0` has 2 bytes, `pe1` 3 bytes, and any other
name the default. -/
theorem getPeSramBytes_smallSramPlatform (peName : Yaml) :
    getPeSramBytes smallSramPlatform peName = .ok (if peName = .str "pe0" then 2
      else if peName = .str "pe1" then 3 else defaultSramBytes) := by
  by_cases h0 : peName = .str "pe0"
  · subst h0; rfl
  by_cases h1 : peName = .str "pe1"
  · subst h1; rfl
  simp [getPeSramBytes, smallSramPlatform, findSramBytes, Yaml.getItem, Yaml.lookup, h0, h1,
    Ne.symm h0, Ne.symm h1]

theorem one_le_getPeSramBytes_smallSramPlatform :
    ∀ peName sramBytes, getPeSramBytes smallSramPlatform peName = .ok sramBytes →
      1 ≤ sramBytes := fun peName sramBytes h => by
  rw [getPeSramBytes_smallSramPlatform] at h
  cases h
  split_ifs <;> decide

/-- What the converter emits for `chainModel` on `smallSramPlatform`: `x`, `y`, `z` and `w`
at `0`, `64`, `128` and `192` on `hbm0`, each moved in two chunks, of 2 bytes each on `pe0`
and of 3 and 1 bytes on `pe1`. -/
def chainTimetable : Timetable :=
  ⟨[.memory "a_load_0_chunk_0" "load" (.str "pe0") 0 2,
    .memory "a_load_0_chunk_1" "load" (.str "pe0") 2 2,
    .compute "a_compute" "mul" (.str "pe0") "fp32" 1,
    .memory "a_store_0_chunk_0" "store" (.str "pe0") 64 2,
    .memory "a_store_0_chunk_1" "store" (.str "pe0") 66 2,
    .memory "b_load_0_chunk_0" "load" (.str "pe1") 64 3,
    .memory "b_load_0_chunk_1" "load" (.str "pe1") 67 1,
    .memory "b_load_2_chunk_0" "load" (.str "pe1") 0 3,
    .memory "b_load_2_chunk_1" "load" (.str "pe1") 3 1,
    .compute "b_compute" "add" (.str "pe1") "fp32" 1,
    .memory "b_store_0_chunk_0" "store" (.str "pe1") 128 3,
    .memory "b_store_0_chunk_1" "store" (.str "pe1") 131 1,
    .memory "c_load_0_chunk_0" "load" (.str "pe0") 128 2,
    .memory "c_load_0_chunk_1" "load" (.str "pe0") 130 2,
    .compute "c_compute" "mul" (.str "pe0") "fp32" 1,
    .memory "c_store_0_chunk_0" "store" (.str "pe0") 192 2,
    .memory "c_store_0_chunk_1" "store" (.str "pe0") 194 2],
  [⟨"a_load_0_chunk_0", "a_compute", "data"⟩, ⟨"a_load_0_chunk_1", "a_compute", "data"⟩,
    ⟨"a_compute", "a_store_0_chunk_0", "data"⟩, ⟨"a_compute", "a_store_0_chunk_1", "data"⟩,
    ⟨"b_load_0_chunk_0", "b_compute", "data"⟩, ⟨"b_load_0_chunk_1", "b_compute", "data"⟩,
    ⟨"b_load_2_chunk_0", "b_compute", "data"⟩, ⟨"b_load_2_chunk_1", "b_compute", "data"⟩,
    ⟨"b_compute", "b_store_0_chunk_0", "data"⟩, ⟨"b_compute", "b_store_0_chunk_1", "data"⟩,
    ⟨"c_load_0_chunk_0", "c_compute", "data"⟩, ⟨"c_load_0_chunk_1", "c_compute", "data"⟩,
    ⟨"c_compute", "c_store_0_chunk_0", "data"⟩, ⟨"c_compute", "c_store_0_chunk_1", "data"⟩]⟩

theorem slots_cover_chainModel :
    (∀ peName sramBytes, getPeSramBytes smallSramPlatform peName = .ok sramBytes →
      1 ≤ sramBytes) ∧
    onnxToGwrTimetable chainModel smallSramPlatform = .ok chainTimetable ∧
    ∃ tensorAddresses blocks,
      layoutTensors (collectTensors chainModel) smallSramPlatform = .ok tensorAddresses ∧
      chainTimetable.nodes = (blocks.map Block.nodes).flatten ∧
      List.Forall₂ (fun (onnxNode : NodeProto) b =>
          getPeSramBytes smallSramPlatform b.pe = .ok b.sramBytes ∧
          SlotsCover (collectTensors chainModel) tensorAddresses (loadId onnxNode.name) "load"
            b.pe b.sramBytes onnxNode.input b.loads ∧
          SlotsCover (collectTensors chainModel) tensorAddresses (storeId onnxNode.name) "store"
            b.pe b.sramBytes onnxNode.output b.stores)
        chainModel.graph.node blocks :=
  have hconv : onnxToGwrTimetable chainModel smallSramPlatform = .ok chainTimetable := rfl
  ⟨one_le_getPeSramBytes_smallSramPlatform, hconv,
    onnxToGwrTimetable_slots_cover one_le_getPeSramBytes_smallSramPlatform hconv⟩

/-! ### Failures -/

/-- On a platform whose ranges are well formed, with scalar device names, whose PEs are
named and whose PE names resolve to capacities of at least one byte, the converter raises
exactly when some graph node has no name: every lookup of a named node tensor succeeds. -/
theorem onnxToGwrTimetable_raises_iff {model : ModelProto} {platformConfig : Yaml}
    {ranges peNames : List Yaml}
    (hranges : memoryRanges platformConfig = .ok ranges)
    (hentries : ∀ rangeInfo ∈ ranges, ∃ entry, rangeEntry rangeInfo = .ok entry)
    (hpes : processingElementNames platformConfig = .ok peNames)
    (hsram : ∀ peName ∈ peNames, ∃ sramBytes,
      getPeSramBytes platformConfig peName = .ok sramBytes ∧ 1 ≤ sramBytes) :
    ((∃ err, onnxToGwrTimetable model platformConfig = .error err) ↔
      ∃ onnxNode ∈ model.graph.node, onnxNode.name = "") ∧
    ∃ tensorAddresses, layoutTensors (collectTensors model) platformConfig = .ok tensorAddresses ∧
      ∀ onnxNode ∈ model.graph.node, ∀ name ∈ onnxNode.input ++ onnxNode.output, name ≠ "" →
        (∃ addr, tensorAddresses.get? name = some addr) ∧
        (∃ record, (collectTensors model).get? name = some record) ∧
        ∃ numOps, calculateNumOps (collectTensors model) name = .ok numOps := by
  obtain ⟨rs, hparse⟩ := exists_forall₂_of_forall hentries
  obtain ⟨addrs, hlayout, haddrs⟩ := layoutTensors_keys (collectTensors model) hranges hparse
  have htable := tableOk_collectTensors model
  have hkeys : ∀ onnxNode ∈ model.graph.node, ∀ name ∈ onnxNode.input ++ onnxNode.output,
      name ≠ "" → name ∈ (collectTensors model).keys ∧ name ∈ addrs.keys :=
    fun _ hnode _ hname hne =>
      have hrecord := mem_keys_collectTensors hnode hname hne
      ⟨hrecord, haddrs _ hrecord⟩
  refine ⟨⟨fun ⟨err, herr⟩ => ?_, fun ⟨onnxNode, hnode, hname⟩ => ?_⟩, addrs, hlayout,
    fun onnxNode hnode name hname hne => ?_⟩
  · -- when every node is named, every node is lowered, so the run returns
    by_contra hnamed
    push_neg at hnamed
    have hK : 0 < peNames.length := List.length_pos.mpr (processingElementNames_ne_nil hpes)
    have hlowered : ∀ entry ∈ model.graph.node.enum, ∃ b, LoweredAs (collectTensors model) addrs
        platformConfig peNames (entry.1 % peNames.length) entry.2 b := by
      rintro ⟨k, onnxNode⟩ hentry
      have hnode := List.snd_mem_of_mem_enum hentry
      have hpe := List.getElem?_eq_getElem (Nat.mod_lt k hK)
      obtain ⟨sramBytes, hsramBytes, hcap⟩ := hsram _ (List.getElem?_mem hpe)
      exact exists_loweredAs htable (hkeys onnxNode hnode) (hnamed onnxNode hnode) hpe hsramBytes
        (by omega)
    obtain ⟨blocks, hblocks⟩ := exists_forall₂_of_forall hlowered
    have := onnxToGwrTimetable_eq_ok_iff.mpr ⟨addrs, peNames, blocks, hlayout, hpes, hblocks, rfl⟩
    rw [herr] at this
    cases this
  · -- a node without a name is lowered to no block
    cases hconv : onnxToGwrTimetable model platformConfig with
    | error err => exact ⟨err, rfl⟩
    | ok tt =>
      obtain ⟨_, _, blocks, -, -, hblocks, -⟩ := onnxToGwrTimetable_eq_ok_iff.mp hconv
      obtain ⟨k, hk⟩ := List.mem_iff_getElem?.mp hnode
      obtain ⟨b, -, hb⟩ := exists_of_forall₂_left hblocks (k, onnxNode)
        (List.mk_mem_enum_iff_getElem?.mpr hk)
      exact absurd hname hb.name_ne
  · obtain ⟨hrecord, haddr⟩ := hkeys onnxNode hnode name hname hne
    exact ⟨PyDict.mem_keys_iff_exists_get?.mp haddr, PyDict.mem_keys_iff_exists_get?.mp hrecord,
      calculateNumOps_ok htable hrecord⟩

/-- The range of `defaultPePlatform`. -/
def hbm0Range : Yaml := .map [("device", .str "hbm0"), ("base_address", .str "0x0")]

theorem raises_iff_copyModel :
    memoryRanges defaultPePlatform = .ok [hbm0Range] ∧
    (∀ rangeInfo ∈ [hbm0Range], ∃ entry, rangeEntry rangeInfo = .ok entry) ∧
    processingElementNames defaultPePlatform = .ok [.str "pe0"] ∧
    (∀ peName ∈ [Yaml.str "pe0"], ∃ sramBytes,
      getPeSramBytes defaultPePlatform peName = .ok sramBytes ∧ 1 ≤ sramBytes) ∧
    ((∃ err, onnxToGwrTimetable copyModel defaultPePlatform = .error err) ↔
      ∃ onnxNode ∈ copyModel.graph.node, onnxNode.name = "") ∧
    ∃ tensorAddresses, layoutTensors (collectTensors copyModel) defaultPePlatform =
        .ok tensorAddresses ∧
      ∀ onnxNode ∈ copyModel.graph.node, ∀ name ∈ onnxNode.input ++ onnxNode.output, name ≠ "" →
        (∃ addr, tensorAddresses.get? name = some addr) ∧
        (∃ record, (collectTensors copyModel).get? name = some record) ∧
        ∃ numOps, calculateNumOps (collectTensors copyModel) name = .ok numOps := by
  have hranges : memoryRanges defaultPePlatform = .ok [hbm0Range] := rfl
  have hentries : ∀ rangeInfo ∈ [hbm0Range], ∃ entry, rangeEntry rangeInfo = .ok entry := by
    simp only [List.mem_singleton, forall_eq]
    exact ⟨_, rfl⟩
  have hpes : processingElementNames defaultPePlatform = .ok [.str "pe0"] := rfl
  have hsram : ∀ peName ∈ [Yaml.str "pe0"], ∃ sramBytes,
      getPeSramBytes defaultPePlatform peName = .ok sramBytes ∧ 1 ≤ sramBytes :=
    fun peName _ => ⟨_, getPeSramBytes_defaultPePlatform peName, by decide⟩
  exact ⟨hranges, hentries, hpes, hsram,
    onnxToGwrTimetable_raises_iff hranges hentries hpes hsram⟩

/-- A platform whose only range names its device by a list, with one PE of 1 KiB. -/
def listDevicePlatform : Yaml :=
  .map [("memory_maps", .seq [.map [("ranges", .seq [.map [("device", .seq []),
      ("base_address", .str "0x0")]])]]),
    ("processing_elements", .seq [.map [("name", .str "pe0"),
      ("config", .map [("sram_bytes", .int 1024)])]])]

/-- One graph node, named `n`. -/
def namedNodeModel : ModelProto := ⟨⟨[⟨"n", "Relu", [], []⟩], [], [], [], []⟩⟩

/-- A device given as a list raises `TypeError` in the layout's dictionary test, although
the range is a mapping with a parseable base, the PE has a name, a mapping config and a
capacity of 1 KiB, and every graph node is named. -/
theorem onnxToGwrTimetable_unhashable_device :
    parseBaseAddress (.str "0x0") = .ok 0 ∧
    processingElementNames listDevicePlatform = .ok [.str "pe0"] ∧
    getPeSramBytes listDevicePlatform (.str "pe0") = .ok 1024 ∧
    (∀ onnxNode ∈ namedNodeModel.graph.node, onnxNode.name ≠ "") ∧
    onnxToGwrTimetable namedNodeModel listDevicePlatform = .error .typeError :=
  ⟨rfl, rfl, rfl, by decide, rfl⟩

/-! ### Capacities -/

/-- At non-negative capacities the records of every named slot of every graph node still
cover its tensor, a zero capacity having raised: each named input slot has at least one load
record, and each named output slot at least one store record, on the node's PE and with the
slot's id. Every memory record moves at least one byte. -/
theorem onnxToGwrTimetable_slots_nonempty {model : ModelProto} {platformConfig : Yaml}
    {tt : Timetable}
    (hcap : ∀ peName sramBytes, getPeSramBytes platformConfig peName = .ok sramBytes →
      0 ≤ sramBytes)
    (h : onnxToGwrTimetable model platformConfig = .ok tt) :
    (∃ tensorAddresses blocks,
      layoutTensors (collectTensors model) platformConfig = .ok tensorAddresses ∧
      tt.nodes = (blocks.map Block.nodes).flatten ∧
      List.Forall₂ (fun (onnxNode : NodeProto) b =>
          getPeSramBytes platformConfig b.pe = .ok b.sramBytes ∧
          SlotsCover (collectTensors model) tensorAddresses (loadId onnxNode.name) "load" b.pe
            b.sramBytes onnxNode.input b.loads ∧
          SlotsCover (collectTensors model) tensorAddresses (storeId onnxNode.name) "store" b.pe
            b.sramBytes onnxNode.output b.stores ∧
          (∀ recs ∈ b.loads, recs ≠ []) ∧ ∀ recs ∈ b.stores, recs ≠ [])
        model.graph.node blocks) ∧
    ∀ r ∈ tt.nodes, ∀ id op pe addr numBytes, r = .memory id op pe addr numBytes →
      1 ≤ numBytes := by
  have htable := tableOk_collectTensors model
  obtain ⟨addrs, blocks, hlayout, hnodes, hcover⟩ := onnxToGwrTimetable_slotsCover hcap h
  refine ⟨⟨addrs, blocks, hlayout, hnodes, hcover.imp fun _ _ ⟨hsram, hloads, hstores⟩ =>
    ⟨hsram, hloads, hstores, hloads.ne_nil htable, hstores.ne_nil htable⟩⟩, ?_⟩
  obtain ⟨_, _, blocks, -, -, hblocks, rfl⟩ := onnxToGwrTimetable_eq_ok_iff.mp h
  intro r hr id op pe addr numBytes hmem
  obtain ⟨_, hl, hr⟩ := List.mem_flatten.mp hr
  obtain ⟨b, hb, rfl⟩ := List.mem_map.mp hl
  obtain ⟨_, -, hlowered⟩ := exists_of_forall₂_right hblocks b hb
  have hcap' := hcap _ _ hlowered.sramBytes_eq
  simp only [Block.nodes, List.mem_append, List.mem_singleton, List.mem_flatten] at hr
  rcases hr with (⟨recs, hrecs, hr⟩ | rfl) | ⟨recs, hrecs, hr⟩
  · obtain ⟨_, -, hs⟩ := exists_of_forall₂_right hlowered.loads_eq recs hrecs
    exact (slotOps_records hcap' htable hs).2 r hr _ _ _ _ _ hmem
  · obtain ⟨numOps, dtype, -, hcompute⟩ := hlowered.compute_eq
    rw [hcompute] at hmem
    cases hmem
  · obtain ⟨_, -, hs⟩ := exists_of_forall₂_right hlowered.stores_eq recs hrecs
    exact (slotOps_records hcap' htable hs).2 r hr _ _ _ _ _ hmem

theorem slots_nonempty_chainModel :
    (∀ peName sramBytes, getPeSramBytes smallSramPlatform peName = .ok sramBytes →
      0 ≤ sramBytes) ∧
    onnxToGwrTimetable chainModel smallSramPlatform = .ok chainTimetable ∧
    (∃ tensorAddresses blocks,
      layoutTensors (collectTensors chainModel) smallSramPlatform = .ok tensorAddresses ∧
      chainTimetable.nodes = (blocks.map Block.nodes).flatten ∧
      List.Forall₂ (fun (onnxNode : NodeProto) b =>
          getPeSramBytes smallSramPlatform b.pe = .ok b.sramBytes ∧
          SlotsCover (collectTensors chainModel) tensorAddresses (loadId onnxNode.name) "load"
            b.pe b.sramBytes onnxNode.input b.loads ∧
          SlotsCover (collectTensors chainModel) tensorAddresses (storeId onnxNode.name) "store"
            b.pe b.sramBytes onnxNode.output b.stores ∧
          (∀ recs ∈ b.loads, recs ≠ []) ∧ ∀ recs ∈ b.stores, recs ≠ [])
        chainModel.graph.node blocks) ∧
    ∀ r ∈ chainTimetable.nodes, ∀ id op pe addr numBytes, r = .memory id op pe addr numBytes →
      1 ≤ numBytes :=
  have hcap : ∀ peName sramBytes, getPeSramBytes smallSramPlatform peName = .ok sramBytes →
      0 ≤ sramBytes := fun peName sramBytes h =>
    zero_le_one.trans (one_le_getPeSramBytes_smallSramPlatform peName sramBytes h)
  have hconv : onnxToGwrTimetable chainModel smallSramPlatform = .ok chainTimetable := rfl
  ⟨hcap, hconv, onnxToGwrTimetable_slots_nonempty hcap hconv⟩

/-- A platform whose only PE declares a capacity of `-1` bytes. -/
def negativeSramPlatform : Yaml :=
  .map [("memory_maps", .seq [.map [("ranges", .seq [hbm0Range])]]),
    ("processing_elements", .seq [.map [("name", .str "pe0"),
      ("config", .map [("sram_bytes", .int (-1))])]])]

/-- A graph node `n` that reads the tensor `x`. -/
def readerModel : ModelProto := ⟨⟨[⟨"n", "Add", ["x"], []⟩], [], [], [], []⟩⟩

/-- At a capacity of `-1` bytes the 4-byte input `x` is split into `(4 - 2) // -1 = -2`
chunks, that is none: the conversion returns with no load record for the named slot. -/
theorem onnxToGwrTimetable_negative_sram :
    getPeSramBytes negativeSramPlatform (.str "pe0") = .ok (-1) ∧
    onnxToGwrTimetable readerModel negativeSramPlatform =
      .ok ⟨[.compute "n_compute" "add" (.str "pe0") "fp32" 1], []⟩ :=
  ⟨rfl, rfl⟩

end Gwr
