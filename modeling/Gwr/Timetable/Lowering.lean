import Gwr.Timetable.Chunks
import Gwr.Timetable.Layout

/-!
# Lowering the graph to timetable records

`onnx_to_gwr_timetable` lays the tensors out, reads the names of the platform's
processing elements, and walks the graph's nodes in order with a round-robin PE cursor.
Node `k` becomes a block of records on the PE the cursor names: the load chunks of each
named input slot, one compute record, and the store chunks of each named output slot,
with an edge from every load chunk to the compute record and from the compute record to
every store chunk.

`lowerNode_eq_ok_iff` says everything one iteration of the node loop can do, and
`lowerNodes_eq_ok_iff` lifts it to the loop: a run returns exactly when every node is
lowered to a `Block`, the cursor of node `k` being `k mod K`, and its records and edges
are the concatenation of the blocks'.

## Main definitions

* `getPeSramBytes` — `_get_pe_sram_bytes`
* `calculateNumOps` — `_calculate_num_ops`
* `lowerNode` — one iteration of the node loop
* `onnxToGwrTimetable` — `onnx_to_gwr_timetable`
* `Block`, `LoweredAs` — what one graph node is lowered to

## Main results

* `lowerNode_eq_ok_iff`, `lowerNodes_eq_ok_iff`, `onnxToGwrTimetable_eq_ok_iff`
-/

set_option autoImplicit false

namespace Gwr

/-! ### The helpers of the node loop -/

/-- `DEFAULT_SRAM_BYTES`. -/
def defaultSramBytes : Int := 1024 * 1024

/-- The table of `_dtype_to_string`. -/
def dtypeNames : List (Int × String) :=
  [(TensorProto.float, "fp32"), (TensorProto.float16, "fp16"), (TensorProto.bfloat16, "bf16"),
    (TensorProto.double, "fp64"), (TensorProto.int8, "int8"), (TensorProto.int16, "int16"),
    (TensorProto.int32, "int32"), (TensorProto.int64, "int64"), (TensorProto.uint8, "uint8"),
    (TensorProto.uint16, "uint16"), (TensorProto.uint32, "uint32"),
    (TensorProto.uint64, "uint64"), (TensorProto.bool, "bool")]

/-- `_dtype_to_string`: an element type missing from the table prints as `"fp32"`. -/
def dtypeToString (dtype : Int) : String :=
  ((dtypeNames.find? (·.1 = dtype)).map Prod.snd).getD "fp32"

/-- The table of `_map_onnx_op_to_gwr_op`. -/
def opMap : List (String × String) :=
  [("Add", "add"), ("Sub", "add"), ("Mul", "add"), ("Div", "add"), ("MatMul", "mul"),
    ("Conv", "mul"), ("Relu", "mul"), ("Sigmoid", "mul"), ("Tanh", "mul"),
    ("BatchNormalization", "mul"), ("MaxPool", "mul"), ("AveragePool", "mul"),
    ("Flatten", "mul"), ("Reshape", "mul"), ("Transpose", "mul"), ("Concat", "mul"),
    ("Softmax", "mul"), ("Gemm", "mul"), ("Cast", "mul"), ("Constant", "mul"),
    ("Gather", "mul"), ("GroupQueryAttention", "mul"), ("MatMulNBits", "mul"), ("QMoE", "mul"),
    ("ReduceSum", "mul"), ("Shape", "mul"), ("SimplifiedLayerNormalization", "mul"),
    ("SkipSimplifiedLayerNormalization", "mul")]

/-- `_map_onnx_op_to_gwr_op`: an operator missing from the table becomes `"add"`. -/
def mapOnnxOpToGwrOp (opType : String) : String :=
  ((opMap.find? (·.1 = opType)).map Prod.snd).getD "add"

/-- `d[key]` on a dictionary keyed by tensor names. -/
def PyDict.getItem {ν : Type} (d : PyDict String ν) (key : String) : Except PyError ν :=
  match d.get? key with
  | some v => .ok v
  | none => .error (.keyError key)

@[simp] theorem PyDict.getItem_eq_ok {ν : Type} {d : PyDict String ν} {key : String} {v : ν} :
    d.getItem key = .ok v ↔ d.get? key = some v := by
  unfold PyDict.getItem; split <;> rename_i h <;> simp [h]

/-- `_calculate_num_ops`: the element count of an output tensor, at least `1`. -/
def calculateNumOps (tensors : PyDict String TensorRecord) (outputName : String) :
    Except PyError Int :=
  match tensors.get? outputName with
  | none => .error (.valueError ("Output tensor '" ++ outputName ++ "' not found in tensors"))
  | some ⟨none, _, _⟩ => .error (.valueError
      ("Output tensor '" ++ outputName ++ "' has unknown shape; cannot calculate num ops"))
  | some ⟨some shape, _, _⟩ => .ok (max 1 (getTensorNumElements shape))

/-- `sram_bytes` as `_get_pe_sram_bytes` reads it: a string is a `_`-separated prefixed
literal, anything else goes through `int()`. -/
def parseSramBytes (sramBytes : Yaml) : Except PyError Int :=
  match sramBytes with
  | .str s => parseSeparatedBase0 s
  | v => v.toInt

/-- The loop of `_get_pe_sram_bytes`: the first PE named `peName` that has a `sram_bytes`
entry gives the capacity, one without is passed over. Every PE the loop reaches must be
a mapping with a `name`. -/
def findSramBytes (peName : Yaml) : List Yaml → Except PyError Int
  | [] => .ok defaultSramBytes
  | pe :: pes => do
    if (← pe.getItem "name") = peName then
      let sramBytes ← (← pe.get "config" (.map [])).get "sram_bytes"
      if sramBytes = .null then findSramBytes peName pes else parseSramBytes sramBytes
    else findSramBytes peName pes

/-- `_get_pe_sram_bytes`. -/
def getPeSramBytes (platformConfig peName : Yaml) : Except PyError Int := do
  findSramBytes peName (← (← platformConfig.get "processing_elements" (.seq [])).iter)

/-- The named entries of a node's input or output list, with their positions: the
script's `enumerate` loops skip the empty names. -/
def nonemptySlots (names : List String) : List (Nat × String) :=
  names.enum.filter fun slot => slot.2 ≠ ""

/-- The records of one named slot: the tensor's address and its size, read in this
order, and the transfer split at the PE's capacity. -/
def slotOps (tensors : PyDict String TensorRecord) (tensorAddresses : PyDict String Int)
    (baseId opType : String) (peName : Yaml) (sramBytes : Int) (tensorName : String) :
    Except PyError (List TimetableNode) := do
  let addr ← tensorAddresses.getItem tensorName
  let record ← tensors.getItem tensorName
  splitMemoryOp baseId opType peName addr record.sizeBytes sramBytes

/-- One iteration of the loop over a node's outputs that sizes its compute record. -/
def computeStep (tensors : PyDict String TensorRecord) (acc : Int × String)
    (outputName : String) : Except PyError (Int × String) :=
  if outputName = "" then .ok acc
  else do
    let numOps ← calculateNumOps tensors outputName
    pure (max acc.1 numOps, ((tensors.get? outputName).map (dtypeToString ·.dtype)).getD acc.2)

/-- `max_num_ops` and `dtype_str`: the largest `_calculate_num_ops` of a named output
(at least `1`), and the dtype of the last named output (`"fp32"` if none). -/
def computeConfig (tensors : PyDict String TensorRecord) (outputs : List String) :
    Except PyError (Int × String) :=
  outputs.foldlM (computeStep tensors) (1, "fp32")

/-! ### The node loop -/

/-- The node loop's state: the PE cursor, and the records and edges emitted so far. -/
structure LowerState where
  currentPeIndex : Nat
  nodes : List TimetableNode
  edges : List TimetableEdge

/-- The edges of one graph node: from each load chunk to the compute record, then from
the compute record to each store chunk. -/
def dataEdges (loadOps : List TimetableNode) (computeId : String)
    (storeOps : List TimetableNode) : List TimetableEdge :=
  loadOps.map (fun op => ⟨op.id, computeId, "data"⟩) ++
    storeOps.map fun op => ⟨computeId, op.id, "data"⟩

/-- One iteration of the node loop. -/
def lowerNode (tensors : PyDict String TensorRecord) (tensorAddresses : PyDict String Int)
    (platformConfig : Yaml) (peNames : List Yaml) (st : LowerState) :
    Nat × NodeProto → Except PyError LowerState
  | (onnxNodeIndex, onnxNode) => do
    if onnxNode.name = "" then
      throw (.valueError ("Node at index " ++ toString onnxNodeIndex ++ " is missing a name"))
    let nodeName := onnxNode.name
    let peName ← pyIndex peNames st.currentPeIndex
    let sramBytes ← getPeSramBytes platformConfig peName
    let loadOps ← (nonemptySlots onnxNode.input).mapM fun slot =>
      slotOps tensors tensorAddresses (loadId nodeName slot.1) "load" peName sramBytes slot.2
    let (maxNumOps, dtypeStr) ← computeConfig tensors onnxNode.output
    let storeOps ← (nonemptySlots onnxNode.output).mapM fun slot =>
      slotOps tensors tensorAddresses (storeId nodeName slot.1) "store" peName sramBytes slot.2
    pure
      { currentPeIndex := (st.currentPeIndex + 1) % peNames.length
        nodes := st.nodes ++ loadOps.flatten ++
          [.compute (computeId nodeName) (mapOnnxOpToGwrOp onnxNode.opType) peName dtypeStr
            maxNumOps] ++ storeOps.flatten
        edges := st.edges ++ dataEdges loadOps.flatten (computeId nodeName) storeOps.flatten }

/-- `pe_names`: the `name` of each processing element, once there is at least one. -/
def processingElementNames (platformConfig : Yaml) : Except PyError (List Yaml) := do
  let pes ← platformConfig.get "processing_elements" (.seq [])
  if !pes.truthy then throw (.valueError "No processing elements found in platform configuration")
  (← pes.iter).mapM (·.getItem "name")

/-- `onnx_to_gwr_timetable`. -/
def onnxToGwrTimetable (model : ModelProto) (platformConfig : Yaml) :
    Except PyError Timetable := do
  let tensors := collectTensors model
  let tensorAddresses ← layoutTensors tensors platformConfig
  let peNames ← processingElementNames platformConfig
  let st ← model.graph.node.enum.foldlM (lowerNode tensors tensorAddresses platformConfig peNames)
    ⟨0, [], []⟩
  pure ⟨st.nodes, st.edges⟩

/-- A platform that passes the check has at least one PE name. -/
theorem processingElementNames_ne_nil {platformConfig : Yaml} {peNames : List Yaml}
    (h : processingElementNames platformConfig = .ok peNames) : peNames ≠ [] := by
  simp only [processingElementNames, Except.bind_eq_ok] at h
  obtain ⟨pes, -, h⟩ := h
  split at h
  · simp at h
  · rename_i htruthy
    obtain ⟨items, hitems, hnames⟩ := Except.bind_eq_ok.mp (by simpa using h)
    have hlen := (Except.mapM_eq_ok_iff.mp hnames).length_eq
    have hne := Yaml.iter_ne_nil (by simpa using htruthy) hitems
    rintro rfl
    exact hne (List.length_eq_zero.mp hlen)

/-! ### What one node is lowered to -/

/-- What lowering one graph node appends: the PE it runs on and that PE's capacity, the
chunks of each named input slot, the compute record, and the chunks of each named output
slot. -/
structure Block where
  pe : Yaml
  sramBytes : Int
  loads : List (List TimetableNode)
  compute : TimetableNode
  stores : List (List TimetableNode)

namespace Block

/-- The block's records, in emission order. -/
def nodes (b : Block) : List TimetableNode := b.loads.flatten ++ [b.compute] ++ b.stores.flatten

/-- The block's edges, in emission order. -/
def edges (b : Block) : List TimetableEdge := dataEdges b.loads.flatten b.compute.id b.stores.flatten

end Block

/-- Block `b` is what the loop emits for `onnxNode` when the PE cursor is at `peIndex`:
the node is named, the PE is `pe_names[peIndex]` with its capacity, the `j`-th group of
loads is the split of the `j`-th named input slot (id `<name>_load_<slot>`), likewise for
stores, and the compute record is sized by the outputs. -/
structure LoweredAs (tensors : PyDict String TensorRecord) (tensorAddresses : PyDict String Int)
    (platformConfig : Yaml) (peNames : List Yaml) (peIndex : Nat) (onnxNode : NodeProto)
    (b : Block) : Prop where
  name_ne : onnxNode.name ≠ ""
  pe_eq : peNames[peIndex]? = some b.pe
  sramBytes_eq : getPeSramBytes platformConfig b.pe = .ok b.sramBytes
  loads_eq : List.Forall₂ (fun slot recs => slotOps tensors tensorAddresses
    (loadId onnxNode.name slot.1) "load" b.pe b.sramBytes slot.2 = .ok recs)
    (nonemptySlots onnxNode.input) b.loads
  compute_eq : ∃ numOps dtype, computeConfig tensors onnxNode.output = .ok (numOps, dtype) ∧
    b.compute = .compute (computeId onnxNode.name) (mapOnnxOpToGwrOp onnxNode.opType) b.pe
      dtype numOps
  stores_eq : List.Forall₂ (fun slot recs => slotOps tensors tensorAddresses
    (storeId onnxNode.name slot.1) "store" b.pe b.sramBytes slot.2 = .ok recs)
    (nonemptySlots onnxNode.output) b.stores

section Loop

variable {tensors : PyDict String TensorRecord} {tensorAddresses : PyDict String Int}
  {platformConfig : Yaml} {peNames : List Yaml}

/-- One iteration of the node loop returns exactly when the node is lowered to a block,
which it appends, moving the cursor on. -/
theorem lowerNode_eq_ok_iff {st st' : LowerState} {k : Nat} {onnxNode : NodeProto} :
    lowerNode tensors tensorAddresses platformConfig peNames st (k, onnxNode) = .ok st' ↔
      ∃ b, LoweredAs tensors tensorAddresses platformConfig peNames st.currentPeIndex onnxNode b ∧
        st' = ⟨(st.currentPeIndex + 1) % peNames.length, st.nodes ++ b.nodes,
          st.edges ++ b.edges⟩ := by
  by_cases hname : onnxNode.name = ""
  · refine iff_of_false (by simp [lowerNode, hname]) ?_
    rintro ⟨b, hb, -⟩
    exact hb.name_ne hname
  simp only [lowerNode, hname, if_false, Except.bind_eq_ok, Except.pure_eq_ok, pyIndex_eq_ok,
    ← Except.mapM_eq_ok_iff, Prod.exists]
  constructor
  · rintro ⟨-, -, pe, hpe, sramBytes, hsram, loads, hloads, numOps, dtype, hcfg, stores, hstores,
      hst⟩
    refine ⟨⟨pe, sramBytes, loads, .compute (computeId onnxNode.name)
      (mapOnnxOpToGwrOp onnxNode.opType) pe dtype numOps, stores⟩,
      ⟨hname, hpe, hsram, Except.mapM_eq_ok_iff.mp hloads, ⟨numOps, dtype, hcfg, rfl⟩,
        Except.mapM_eq_ok_iff.mp hstores⟩, ?_⟩
    simpa [Block.nodes, Block.edges] using hst.symm
  · rintro ⟨b, ⟨-, hpe, hsram, hloads, ⟨numOps, dtype, hcfg, hcompute⟩, hstores⟩, rfl⟩
    refine ⟨(), trivial, b.pe, hpe, b.sramBytes, hsram, b.loads, Except.mapM_eq_ok_iff.mpr hloads,
      numOps, dtype, hcfg, b.stores, Except.mapM_eq_ok_iff.mpr hstores, ?_⟩
    simp [Block.nodes, Block.edges, hcompute]

/-- The node loop from node `n` on returns exactly when every node is lowered to a block
with the cursor at its index mod `K`; the records and edges are the blocks'. -/
theorem lowerNodes_eq_ok_iff {K : Nat} (hK : peNames.length = K) :
    ∀ (onnxNodes : List NodeProto) (n : Nat) (st st' : LowerState), st.currentPeIndex = n % K →
      ((onnxNodes.enumFrom n).foldlM (lowerNode tensors tensorAddresses platformConfig peNames)
          st = .ok st' ↔
        ∃ blocks, List.Forall₂ (fun (entry : Nat × NodeProto) b =>
            LoweredAs tensors tensorAddresses platformConfig peNames (entry.1 % K) entry.2 b)
            (onnxNodes.enumFrom n) blocks ∧
          st' = ⟨(n + onnxNodes.length) % K, st.nodes ++ (blocks.map Block.nodes).flatten,
            st.edges ++ (blocks.map Block.edges).flatten⟩)
  | [], n, st, st', hst => by
    obtain ⟨i, nodes, edges⟩ := st
    simp only at hst
    subst hst
    simp [pure, Except.pure, eq_comm]
  | onnxNode :: onnxNodes, n, st, st', hst => by
    simp only [List.enumFrom_cons, List.foldlM_cons, Except.bind_eq_ok, lowerNode_eq_ok_iff,
      List.forall₂_cons_left_iff]
    constructor
    · rintro ⟨_, ⟨b, hb, rfl⟩, hrest⟩
      rw [lowerNodes_eq_ok_iff hK onnxNodes (n + 1) _ st' (by simp [hst, hK, Nat.add_mod])]
        at hrest
      obtain ⟨blocks, hblocks, rfl⟩ := hrest
      refine ⟨b :: blocks, ⟨b, blocks, by rwa [← hst], hblocks, rfl⟩, ?_⟩
      simp [Nat.add_right_comm n 1, Nat.add_assoc]
    · rintro ⟨_, ⟨b, blocks, hb, hblocks, rfl⟩, rfl⟩
      refine ⟨_, ⟨b, by rwa [hst], rfl⟩, ?_⟩
      rw [lowerNodes_eq_ok_iff hK onnxNodes (n + 1) _ _ (by simp [hst, hK, Nat.add_mod])]
      refine ⟨blocks, hblocks, ?_⟩
      simp [Nat.add_right_comm n 1, Nat.add_assoc]

/-- The converter returns exactly when the layout and the PE names succeed and every
graph node is lowered to a block, node `k` on PE `k mod K`; the timetable is the blocks'
concatenation. -/
theorem onnxToGwrTimetable_eq_ok_iff {model : ModelProto} {tt : Timetable} :
    onnxToGwrTimetable model platformConfig = .ok tt ↔
      ∃ tensorAddresses peNames blocks,
        layoutTensors (collectTensors model) platformConfig = .ok tensorAddresses ∧
        processingElementNames platformConfig = .ok peNames ∧
        List.Forall₂ (fun (entry : Nat × NodeProto) b => LoweredAs (collectTensors model)
          tensorAddresses platformConfig peNames (entry.1 % peNames.length) entry.2 b)
          model.graph.node.enum blocks ∧
        tt = ⟨(blocks.map Block.nodes).flatten, (blocks.map Block.edges).flatten⟩ := by
  simp only [onnxToGwrTimetable, Except.bind_eq_ok, Except.pure_eq_ok]
  constructor
  · rintro ⟨addrs, haddrs, peNames, hpe, st, hrun, rfl⟩
    rw [List.enum, lowerNodes_eq_ok_iff rfl _ 0 ⟨0, [], []⟩ _ (Nat.zero_mod _).symm] at hrun
    obtain ⟨blocks, hblocks, rfl⟩ := hrun
    exact ⟨addrs, peNames, blocks, haddrs, hpe, hblocks, by simp⟩
  · rintro ⟨addrs, peNames, blocks, haddrs, hpe, hblocks, rfl⟩
    refine ⟨addrs, haddrs, peNames, hpe, ⟨model.graph.node.length % peNames.length,
      (blocks.map Block.nodes).flatten, (blocks.map Block.edges).flatten⟩, ?_, rfl⟩
    rw [List.enum, lowerNodes_eq_ok_iff rfl _ 0 ⟨0, [], []⟩ _ (Nat.zero_mod _).symm]
    exact ⟨blocks, hblocks, by simp⟩

end Loop

end Gwr
