import Gwr.Timetable.Assignment

/-!
# The compute records

For each graph node the converter emits one compute record, `<name>_compute`, carrying the
GWR operation its ONNX operator maps to, the PE under the cursor, a dtype and an operation
count. The loop over the node's outputs sizes it: `max_num_ops` starts at `1` and keeps the
largest `_calculate_num_ops` of a named output, and `dtype_str` starts at `"fp32"` and is
overwritten by every named output that has a record.

Read as a whole, the loop computes a maximum and a last element (`OutputsSized`): the
operation count is the largest element count of a named output, `1` for a node without
one, and the dtype is that of the last named output. So the timetable's compute records
are one per graph node, in graph order, each sized by its node's outputs.

## Main definitions

* `OutputsSized` — what the loop over a node's outputs computes from a start value

## Main results

* `computeStep_eq_ok` — everything one iteration of the loop can do
* `foldlM_computeStep` — the loop computes `OutputsSized`
* `onnxToGwrTimetable_compute` — the compute records of every run
-/

set_option autoImplicit false

namespace Gwr

/-- What the loop over the outputs `outputs` computes from `start`, read from the table:
the count is at least the start's, bounds the element count of every named output (each
of which has a record with a shape), and is the start's or one of those counts; the dtype
is that of the last named output with a record, the start's if there is none. -/
structure OutputsSized (tensors : PyDict String TensorRecord) (start : Int × String)
    (outputs : List String) (result : Int × String) : Prop where
  start_le : start.1 ≤ result.1
  le : ∀ o ∈ outputs, o ≠ "" → ∃ r shape, tensors.get? o = some r ∧ r.shape = some shape ∧
    getTensorNumElements shape ≤ result.1
  eq_or : result.1 = start.1 ∨ ∃ o ∈ outputs, o ≠ "" ∧ ∃ r shape, tensors.get? o = some r ∧
    r.shape = some shape ∧ getTensorNumElements shape = result.1
  dtype_eq : result.2 = (((outputs.filter (· ≠ "")).filterMap fun o =>
    (tensors.get? o).map (dtypeToString ·.dtype)).getLast?).getD start.2

section Loop

variable {tensors : PyDict String TensorRecord}

/-- One iteration of the loop over outputs: an unnamed output changes nothing; a named one
needs a record with a shape, raises the count to its element count and sets the dtype to
its own. -/
theorem computeStep_eq_ok {acc acc' : Int × String} {o : String} :
    computeStep tensors acc o = .ok acc' ↔ (o = "" ∧ acc' = acc) ∨
      (o ≠ "" ∧ ∃ r shape, tensors.get? o = some r ∧ r.shape = some shape ∧
        acc' = (max acc.1 (getTensorNumElements shape), dtypeToString r.dtype)) := by
  unfold computeStep
  by_cases ho : o = ""
  · simp [ho, eq_comm]
  · rw [if_neg ho]
    cases hget : tensors.get? o with
    | none => simp [calculateNumOps, hget, ho]
    | some r =>
      rcases r with ⟨_ | shape, dtype, sizeBytes⟩
      · simp [calculateNumOps, hget, ho]
      · simp [calculateNumOps, hget, ho, max_eq_right (getTensorNumElements_pos shape), eq_comm]

theorem OutputsSized.nil (acc : Int × String) : OutputsSized tensors acc [] acc :=
  ⟨le_rfl, fun _ h => absurd h (List.not_mem_nil _), .inl rfl, rfl⟩

/-- What the rest of the loop computes after one iteration, the whole loop computes. -/
theorem OutputsSized.cons {acc acc' result : Int × String} {o : String} {outputs : List String}
    (hstep : computeStep tensors acc o = .ok acc')
    (hrest : OutputsSized tensors acc' outputs result) :
    OutputsSized tensors acc (o :: outputs) result := by
  obtain ⟨hstart, hle, heq, hdtype⟩ := hrest
  rcases computeStep_eq_ok.mp hstep with ⟨ho, rfl⟩ | ⟨ho, r, shape, hget, hshape, rfl⟩
  · -- an unnamed output is skipped
    refine ⟨hstart, fun o' ho' hne => hle o' ?_ hne, ?_, ?_⟩
    · rcases List.mem_cons.mp ho' with rfl | h
      · exact absurd ho hne
      · exact h
    · exact heq.imp_right fun ⟨o', ho', h⟩ => ⟨o', List.mem_cons_of_mem _ ho', h⟩
    · simpa [ho] using hdtype
  · -- a named output raises the count to its element count and takes over the dtype
    have hmax : max acc.1 (getTensorNumElements shape) ≤ result.1 := hstart
    refine ⟨le_of_max_le_left hmax, fun o' ho' hne => ?_, ?_, ?_⟩
    · rcases List.mem_cons.mp ho' with rfl | h
      · exact ⟨r, shape, hget, hshape, le_of_max_le_right hmax⟩
      · exact hle o' h hne
    · rcases heq with h | ⟨o', ho', h⟩
      · rcases max_choice acc.1 (getTensorNumElements shape) with hc | hc <;> rw [hc] at h
        · exact .inl h
        · exact .inr ⟨o, List.mem_cons_self _ _, ho, r, shape, hget, hshape, h.symm⟩
      · exact .inr ⟨o', List.mem_cons_of_mem _ ho', h⟩
    · rw [hdtype, List.filter_cons_of_pos (by simpa using ho), List.filterMap_cons_some
        (by rw [hget]; rfl), List.getLast?_cons, Option.getD_some]

/-- The loop over a node's outputs, from any start, computes `OutputsSized`. -/
theorem foldlM_computeStep :
    ∀ (outputs : List String) (acc result : Int × String),
      outputs.foldlM (computeStep tensors) acc = .ok result →
      OutputsSized tensors acc outputs result
  | [], acc, result, h => by
    cases h
    exact .nil acc
  | o :: outputs, acc, result, h => by
    rw [List.foldlM_cons] at h
    obtain ⟨acc', hstep, hrest⟩ := Except.bind_eq_ok.mp h
    exact .cons hstep (foldlM_computeStep outputs acc' result hrest)

end Loop

/-! ### The compute records of a run -/

/-- A lowered block's only compute record is its own. -/
theorem LoweredAs.filter_compute {tensors : PyDict String TensorRecord}
    {tensorAddresses : PyDict String Int} {platformConfig : Yaml} {peNames : List Yaml}
    {peIndex : Nat} {onnxNode : NodeProto} {b : Block}
    (h : LoweredAs tensors tensorAddresses platformConfig peNames peIndex onnxNode b) :
    b.nodes.filter (fun r => r.kind = "compute") = [b.compute] := by
  obtain ⟨hmemory, hkind, -⟩ := h.records
  have hnone : ∀ rs : List TimetableNode, (∀ r ∈ rs, r.kind = "memory" ∧ r.pe = b.pe) →
      rs.filter (fun r => r.kind = "compute") = [] :=
    fun rs hrs => List.filter_eq_nil_iff.mpr fun r hr => by simp [(hrs r hr).1]
  rw [Block.nodes, List.filter_append, List.filter_append,
    hnone _ fun r hr => hmemory r (List.mem_append_left _ hr),
    hnone _ fun r hr => hmemory r (List.mem_append_right _ hr), List.filter_singleton]
  simp [hkind]

/-- The compute records of a sequence of blocks that hold one each are the blocks' own. -/
theorem filter_compute_flatten {blocks : List Block}
    (h : ∀ b ∈ blocks, b.nodes.filter (fun r => r.kind = "compute") = [b.compute]) :
    (blocks.map Block.nodes).flatten.filter (fun r => r.kind = "compute") =
      blocks.map Block.compute := by
  induction blocks with
  | nil => rfl
  | cons b blocks ih =>
    rw [List.map_cons, List.flatten_cons, List.filter_append, h b (List.mem_cons_self _ _),
      ih fun b' hb' => h b' (List.mem_cons_of_mem _ hb')]
    rfl

/-- The compute records of every run are one per graph node, in graph order: node `k`'s is
`<name>_compute`, with the GWR operation of its ONNX operator, and its operation count and
dtype are the largest element count of a named output (`1` if there is none, or if every
named output has one element) and the dtype of the last named output (`fp32` if there is
none). -/
theorem onnxToGwrTimetable_compute {model : ModelProto} {platformConfig : Yaml} {tt : Timetable}
    (h : onnxToGwrTimetable model platformConfig = .ok tt) :
    List.Forall₂ (fun (onnxNode : NodeProto) (r : TimetableNode) =>
        ∃ pe numOps dtype, r = .compute (computeId onnxNode.name)
            (mapOnnxOpToGwrOp onnxNode.opType) pe dtype numOps ∧
          OutputsSized (collectTensors model) (1, "fp32") onnxNode.output (numOps, dtype))
      model.graph.node (tt.nodes.filter fun r => r.kind = "compute") := by
  obtain ⟨addrs, peNames, blocks, -, -, hblocks, rfl⟩ := onnxToGwrTimetable_eq_ok_iff.mp h
  rw [filter_compute_flatten fun b hb => by
      obtain ⟨_, -, hlowered⟩ := exists_of_forall₂_right hblocks b hb
      exact hlowered.filter_compute,
    ← List.enum_map_snd model.graph.node, List.forall₂_map_left_iff,
    List.forall₂_map_right_iff]
  refine hblocks.imp fun _ b hb => ?_
  obtain ⟨numOps, dtype, hcfg, hrec⟩ := hb.compute_eq
  exact ⟨b.pe, numOps, dtype, hrec, foldlM_computeStep _ _ _ hcfg⟩

/-- On `chainModel` the nodes `a`, `b` and `c` get the compute records `a_compute`,
`b_compute` and `c_compute`, in this order, on the PEs of the round robin. -/
theorem onnxToGwrTimetable_compute_chainModel :
    onnxToGwrTimetable chainModel smallSramPlatform = .ok chainTimetable ∧
      List.Forall₂ (fun (onnxNode : NodeProto) (r : TimetableNode) =>
          ∃ pe numOps dtype, r = .compute (computeId onnxNode.name)
              (mapOnnxOpToGwrOp onnxNode.opType) pe dtype numOps ∧
            OutputsSized (collectTensors chainModel) (1, "fp32") onnxNode.output (numOps, dtype))
        chainModel.graph.node (chainTimetable.nodes.filter fun r => r.kind = "compute") :=
  have hconv : onnxToGwrTimetable chainModel smallSramPlatform = .ok chainTimetable := rfl
  ⟨hconv, onnxToGwrTimetable_compute hconv⟩

end Gwr
