import Mathlib.Data.Int.CardIntervalMod
import Gwr.Timetable.Coverage

/-!
# Round-robin assignment of nodes to processing elements

The node loop of `onnx_to_gwr_timetable` keeps a cursor over `pe_names` that moves on by
one, modulo `K`, after every node, and every record of a node's block names the PE under
the cursor. So node `k` runs on `pe_names[k mod K]`: its load chunks, its one compute
record and its store chunks all carry that name, and its chunks are cut at that PE's
`sram_bytes`. When the `K` names are distinct, PE `i` receives the compute records of the
nodes `k ≡ i (mod K)`: `⌈(G - i) / K⌉` of them for a graph of `G` nodes.

## Main results

* `LoweredAs.records` — a block's loads and stores are memory records, its compute record
  is a compute record, and all of them are on the block's PE
* `countP_compute_blocks` — with distinct names, a PE's compute records are the blocks
  lowered with the cursor on it
* `onnxToGwrTimetable_assignment` — the block structure of the output, the PE of every
  record, and the number of compute records per PE
-/

set_option autoImplicit false

namespace Gwr

/-- Every record of a split is a memory record on the given PE. -/
theorem splitMemoryOp_memory {baseId opType : String} {pe : Yaml} {addr size cap : Int}
    {recs : List TimetableNode} (h : splitMemoryOp baseId opType pe addr size cap = .ok recs) :
    ∀ r ∈ recs, r.kind = "memory" ∧ r.pe = pe := by
  unfold splitMemoryOp at h
  split at h
  · cases h
  · cases h
    simp only [List.mem_map, List.mem_range]
    rintro r ⟨i, -, rfl⟩
    exact ⟨rfl, rfl⟩

section Slots

variable {tensors : PyDict String TensorRecord} {tensorAddresses : PyDict String Int}
  {opType : String} {pe : Yaml} {sramBytes : Int}

theorem slotOps_memory {baseId tensorName : String} {recs : List TimetableNode}
    (h : slotOps tensors tensorAddresses baseId opType pe sramBytes tensorName = .ok recs) :
    ∀ r ∈ recs, r.kind = "memory" ∧ r.pe = pe := by
  simp only [slotOps, Except.bind_eq_ok] at h
  obtain ⟨_, -, _, -, h⟩ := h
  exact splitMemoryOp_memory h

/-- The records of a node's named slots are memory records on its PE. -/
theorem slots_memory {slotId : Nat → String} {slots : List (Nat × String)}
    {groups : List (List TimetableNode)}
    (h : List.Forall₂ (fun slot recs => slotOps tensors tensorAddresses (slotId slot.1) opType pe
      sramBytes slot.2 = .ok recs) slots groups) :
    ∀ r ∈ groups.flatten, r.kind = "memory" ∧ r.pe = pe := by
  intro r hr
  obtain ⟨recs, hrecs, hr⟩ := List.mem_flatten.mp hr
  obtain ⟨slot, -, hslot⟩ := exists_of_forall₂_right h recs hrecs
  exact slotOps_memory hslot r hr

end Slots

namespace LoweredAs

variable {tensors : PyDict String TensorRecord} {tensorAddresses : PyDict String Int}
  {platformConfig : Yaml} {peNames : List Yaml} {peIndex : Nat} {onnxNode : NodeProto} {b : Block}

/-- A block's loads and stores are memory records and its compute record is a compute
record, all on the block's PE. -/
theorem records (h : LoweredAs tensors tensorAddresses platformConfig peNames peIndex onnxNode b) :
    (∀ r ∈ b.loads.flatten ++ b.stores.flatten, r.kind = "memory" ∧ r.pe = b.pe) ∧
      b.compute.kind = "compute" ∧ b.compute.pe = b.pe := by
  obtain ⟨numOps, dtype, -, hcompute⟩ := h.compute_eq
  refine ⟨fun r hr => ?_, by rw [hcompute]; rfl, by rw [hcompute]; rfl⟩
  rcases List.mem_append.mp hr with hr | hr
  · exact slots_memory h.loads_eq r hr
  · exact slots_memory h.stores_eq r hr

/-- A block holds exactly one compute record, on the block's PE. -/
theorem countP_compute (h : LoweredAs tensors tensorAddresses platformConfig peNames peIndex onnxNode b)
    (pe : Yaml) :
    b.nodes.countP (fun r => r.kind = "compute" ∧ r.pe = pe) = if b.pe = pe then 1 else 0 := by
  obtain ⟨hmemory, hkind, hpe⟩ := h.records
  have hnone : ∀ rs : List TimetableNode, (∀ r ∈ rs, r.kind = "memory" ∧ r.pe = b.pe) →
      rs.countP (fun r => r.kind = "compute" ∧ r.pe = pe) = 0 :=
    fun rs hrs => List.countP_eq_zero.mpr fun r hr => by simp [(hrs r hr).1]
  rw [Block.nodes, List.countP_append, List.countP_append,
    hnone _ fun r hr => hmemory r (List.mem_append_left _ hr),
    hnone _ fun r hr => hmemory r (List.mem_append_right _ hr), List.countP_cons, List.countP_nil]
  simp [hkind, hpe]

end LoweredAs

section Count

variable {tensors : PyDict String TensorRecord} {tensorAddresses : PyDict String Int}
  {platformConfig : Yaml} {peNames : List Yaml}

/-- With distinct PE names, PE `i` holds one compute record for each block lowered at a
cursor `≡ i`. -/
theorem countP_compute_blocks (hnodup : peNames.Nodup) {i : Nat} (hi : i < peNames.length) :
    ∀ {entries : List (Nat × NodeProto)} {blocks : List Block},
      List.Forall₂ (fun (entry : Nat × NodeProto) b => LoweredAs tensors tensorAddresses
        platformConfig peNames (entry.1 % peNames.length) entry.2 b) entries blocks →
      (blocks.map Block.nodes).flatten.countP (fun r => r.kind = "compute" ∧ r.pe = peNames[i]) =
        entries.countP (fun entry => entry.1 % peNames.length = i)
  | [], [], .nil => rfl
  | entry :: _, b :: _, .cons hb hblocks => by
    have hpos : 0 < peNames.length := by omega
    obtain ⟨hlt, hpe⟩ := List.getElem?_eq_some_iff.mp hb.pe_eq
    have hsame : b.pe = peNames[i] ↔ entry.1 % peNames.length = i := by
      rw [← hpe, hnodup.getElem_inj_iff]
    rw [List.map_cons, List.flatten_cons, List.countP_append, hb.countP_compute,
      countP_compute_blocks hnodup hi hblocks, List.countP_cons]
    by_cases hk : entry.1 % peNames.length = i <;> simp [hsame, hk, Nat.add_comm]

/-- Among the node indices below `G`, `⌈(G - i) / K⌉` are `≡ i (mod K)`. -/
theorem countP_enum_mod {K i : Nat} (hi : i < K) (onnxNodes : List NodeProto) :
    ((onnxNodes.enum.countP fun entry => entry.1 % K = i : Nat) : ℤ) =
      ⌈((onnxNodes.length : ℚ) - i) / K⌉ := by
  have hcount : onnxNodes.enum.countP (fun entry => entry.1 % K = i) =
      onnxNodes.length.count (· ≡ i [MOD K]) := by
    rw [Nat.count, ← List.enum_map_fst, List.countP_map]
    refine List.countP_congr fun entry _ => ?_
    simp [Nat.ModEq, Nat.mod_eq_of_lt hi]
  rw [hcount, Nat.count_modEq_card_eq_ceil _ (by omega), Nat.mod_eq_of_lt hi]

end Count

/-- When the converter returns, its records are one block per graph node, in graph order:
the load chunks of the node's named inputs, one compute record, the store chunks of its
named outputs. Node `k`'s block is on `pe_names[k mod K]`, in every record, and its chunks
are cut at that PE's `sram_bytes`. With distinct names, PE `i` receives `⌈(G - i) / K⌉`
compute records. -/
theorem onnxToGwrTimetable_assignment {model : ModelProto} {platformConfig : Yaml}
    {tt : Timetable} (h : onnxToGwrTimetable model platformConfig = .ok tt) :
    ∃ tensorAddresses peNames blocks,
      processingElementNames platformConfig = .ok peNames ∧ 0 < peNames.length ∧
      List.Forall₂ (fun (entry : Nat × NodeProto) b => LoweredAs (collectTensors model)
          tensorAddresses platformConfig peNames (entry.1 % peNames.length) entry.2 b)
        model.graph.node.enum blocks ∧
      tt.nodes = (blocks.map Block.nodes).flatten ∧
      (∀ b ∈ blocks, (∀ r ∈ b.loads.flatten ++ b.stores.flatten, r.kind = "memory" ∧ r.pe = b.pe) ∧
        b.compute.kind = "compute" ∧ b.compute.pe = b.pe) ∧
      (peNames.Nodup → ∀ i (hi : i < peNames.length),
        ((tt.nodes.countP fun r => r.kind = "compute" ∧ r.pe = peNames[i] : Nat) : ℤ) =
          ⌈((model.graph.node.length : ℚ) - i) / peNames.length⌉) := by
  obtain ⟨addrs, peNames, blocks, -, hpe, hblocks, rfl⟩ := onnxToGwrTimetable_eq_ok_iff.mp h
  refine ⟨addrs, peNames, blocks, hpe, List.length_pos.mpr (processingElementNames_ne_nil hpe),
    hblocks, rfl, fun b hb => ?_, fun hnodup i hi => ?_⟩
  · obtain ⟨entry, -, hlowered⟩ := exists_of_forall₂_right hblocks b hb
    exact hlowered.records
  · rw [countP_compute_blocks hnodup hi hblocks, countP_enum_mod hi]

/-- `defaultPePlatform` with a second PE, `pe1`. -/
def twoPePlatform : Yaml :=
  .map [("memory_maps", .seq [.map [("ranges", .seq [hbm0Range])]]),
    ("processing_elements", .seq [.map [("name", .str "pe0")], .map [("name", .str "pe1")]])]

/-- Three nodes on two PEs: the converter returns, and the cursor wraps around. -/
theorem onnxToGwrTimetable_assignment_chainModel :
    ∃ tt, onnxToGwrTimetable chainModel twoPePlatform = .ok tt ∧
      ∃ tensorAddresses peNames blocks,
        processingElementNames twoPePlatform = .ok peNames ∧ 0 < peNames.length ∧
        List.Forall₂ (fun (entry : Nat × NodeProto) b => LoweredAs (collectTensors chainModel)
            tensorAddresses twoPePlatform peNames (entry.1 % peNames.length) entry.2 b)
          chainModel.graph.node.enum blocks ∧
        tt.nodes = (blocks.map Block.nodes).flatten ∧
        (∀ b ∈ blocks, (∀ r ∈ b.loads.flatten ++ b.stores.flatten,
            r.kind = "memory" ∧ r.pe = b.pe) ∧ b.compute.kind = "compute" ∧ b.compute.pe = b.pe) ∧
        (peNames.Nodup → ∀ i (hi : i < peNames.length),
          ((tt.nodes.countP fun r => r.kind = "compute" ∧ r.pe = peNames[i] : Nat) : ℤ) =
            ⌈((chainModel.graph.node.length : ℚ) - i) / peNames.length⌉) := by
  obtain ⟨tt, h⟩ : ∃ tt, onnxToGwrTimetable chainModel twoPePlatform = .ok tt := ⟨_, rfl⟩
  exact ⟨tt, h, onnxToGwrTimetable_assignment h⟩

end Gwr
