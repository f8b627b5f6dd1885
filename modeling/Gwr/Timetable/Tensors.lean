import Mathlib.Algebra.BigOperators.Group.List
import Mathlib.Tactic.Linarith
import Gwr.Onnx
import Gwr.Python.Dict

/-!
# Tensor metadata resolution

`_collect_tensors` gives every tensor name of the graph a shape, an element type and a
byte size. It runs three loops over one dictionary: declared tensors (value info, graph
inputs, graph outputs), which fall back to a same-named initializer's metadata and then
to a one-element `FLOAT` placeholder; initializers, which overwrite any entry of their
name; and node inputs and outputs not yet present, which get the placeholder.

Since the initializer loop runs after the declarations and overwrites, an initializer's
own dims and data type win over any declaration of its name; among declarations the last
one wins, even when it says less than an earlier one. The first loop's comment and its
fallback describe the opposite precedence, a declared shape and type first and the
initializer's only in their absence, which the overwrite defeats
(`collectTensors_initializedInput`).

## Main definitions

* `TensorRecord` — the `(shape, dtype, size_bytes)` triple of a tensor
* `collectTensors` — `_collect_tensors`

## Main results

* `mem_keys_collectTensors` — every non-empty node input and output name has a record
* `RecordOk` holds of every record: its shape is known and it occupies at least a byte
* `collectTensors_keys_records` — the keys are the names the loops visit, in order of first
  occurrence, and every record's size is the product of its usable dimensions times the
  element width
* `get?_collectTensors` — the record of each name: the last initializer of that name,
  else its last declaration, else the placeholder
-/

set_option autoImplicit false

namespace Gwr

/-- The record `_collect_tensors` stores for a tensor: `(shape, dtype, size_bytes)`. A
shape entry is `none` for an unknown dimension. -/
structure TensorRecord where
  shape : Option (List (Option Int))
  dtype : Int
  sizeBytes : Int
  deriving Repr, DecidableEq, Inhabited

/-- `_DTYPE_SIZES`: the width in bytes of each element type. -/
def dtypeSizes : List (Int × Int) :=
  [(TensorProto.float, 4), (TensorProto.uint8, 1), (TensorProto.int8, 1),
    (TensorProto.uint16, 2), (TensorProto.int16, 2), (TensorProto.int32, 4),
    (TensorProto.int64, 8), (TensorProto.bool, 1), (TensorProto.float16, 2),
    (TensorProto.double, 8), (TensorProto.uint32, 4), (TensorProto.uint64, 8),
    (TensorProto.complex64, 8), (TensorProto.complex128, 16), (TensorProto.bfloat16, 2)]

/-- `_DTYPE_SIZES.get(dtype, 4)`. -/
def elemSizeBytes (dtype : Int) : Int := ((dtypeSizes.find? (·.1 = dtype)).map Prod.snd).getD 4

/-- `_get_tensor_num_elements`: the product of the dimensions, an unknown or
non-positive one counting as `1`. -/
def getTensorNumElements (shape : List (Option Int)) : Int :=
  shape.foldl (fun numElements dim => match dim with
    | some d => if d ≤ 0 then numElements * 1 else numElements * d
    | none => numElements * 1) 1

/-- `_get_tensor_size_bytes`. -/
def getTensorSizeBytes (shape : List (Option Int)) (dtype : Int) : Int :=
  getTensorNumElements shape * elemSizeBytes dtype

/-- One dimension as `_shape_from_type_proto` records it. -/
def Dimension.toOption : Dimension → Option Int
  | .dimValue v => some v
  | .dimParam _ => none
  | .unset => none

/-- `_shape_from_type_proto`. -/
def shapeFromTypeProto (typeProto : TypeProto) : Option (List (Option Int)) :=
  typeProto.tensorType.bind fun tensorType => tensorType.shape.map (·.map Dimension.toOption)

/-- `_dtype_from_type_proto`. -/
def dtypeFromTypeProto (typeProto : TypeProto) : Option Int :=
  typeProto.tensorType.bind (·.elemType)

/-- The record of a tensor of the given shape and element type. -/
def TensorRecord.ofShape (shape : List (Option Int)) (dtype : Int) : TensorRecord :=
  ⟨some shape, dtype, getTensorSizeBytes shape dtype⟩

/-- The one-element `FLOAT` placeholder of an undeclared tensor. -/
def placeholderRecord : TensorRecord := .ofShape [some 1] TensorProto.float

/-- `initializer_map = {init.name: init for init in graph.initializer}`. -/
def initializerMap (initializers : List TensorProto) : PyDict String TensorProto :=
  initializers.foldl (fun m init => m.insert init.name init) .empty

/-- The first loop's body: a declared tensor, falling back to a same-named initializer's
metadata and then to `[1]` and `FLOAT`. -/
def declareTensor (inits : PyDict String TensorProto) (tensors : PyDict String TensorRecord)
    (vi : ValueInfoProto) : PyDict String TensorRecord :=
  let init := inits.get? vi.name
  let shape := (shapeFromTypeProto vi.type).orElse fun _ => init.map (·.dims.map some)
  let dtype := (dtypeFromTypeProto vi.type).orElse fun _ => init.map (·.dataType)
  tensors.insert vi.name (.ofShape (shape.getD [some 1]) (dtype.getD TensorProto.float))

/-- The second loop's body: an initializer's own dims and data type. `hasattr(init, "dims")`
and `hasattr(init, "data_type")` hold of every `TensorProto`, so their fallbacks are dead. -/
def initializerTensor (tensors : PyDict String TensorRecord) (init : TensorProto) :
    PyDict String TensorRecord :=
  tensors.insert init.name (.ofShape (init.dims.map some) init.dataType)

/-- The third loop's body: a placeholder for a non-empty node input or output not yet
present. -/
def placeholderTensor (tensors : PyDict String TensorRecord) (tensorName : String) :
    PyDict String TensorRecord :=
  if tensorName = "" then tensors
  else if tensorName ∈ tensors.keys then tensors
  else tensors.insert tensorName placeholderRecord

/-- The names the third loop visits: each node's inputs, then its outputs. -/
def nodeTensorNames (graph : GraphProto) : List String :=
  graph.node.flatMap fun node => node.input ++ node.output

/-- `_collect_tensors`. -/
def collectTensors (model : ModelProto) : PyDict String TensorRecord :=
  let graph := model.graph
  let inits := initializerMap graph.initializer
  let declared := (graph.valueInfo ++ graph.input ++ graph.output).foldl (declareTensor inits) .empty
  let initialized := graph.initializer.foldl initializerTensor declared
  (nodeTensorNames graph).foldl placeholderTensor initialized

/-! ### Every record is usable -/

theorem elemSizeBytes_pos (dtype : Int) : 1 ≤ elemSizeBytes dtype := by
  unfold elemSizeBytes
  cases h : dtypeSizes.find? (·.1 = dtype) with
  | none => decide
  | some e =>
    have : e ∈ dtypeSizes := List.mem_of_find?_eq_some h
    simp only [dtypeSizes, List.mem_cons, List.mem_nil_iff, or_false] at this
    rcases this with rfl | rfl | rfl | rfl | rfl | rfl | rfl | rfl | rfl | rfl | rfl | rfl |
      rfl | rfl | rfl <;> decide

/-- `_DTYPE_SIZES.get(dtype, 4)` looks the type up in the table, `4` when it is missing. -/
theorem elemSizeBytes_eq_lookup (dtype : Int) :
    elemSizeBytes dtype = (dtypeSizes.lookup dtype).getD 4 := by
  suffices h : ∀ l : List (Int × Int), (l.find? (·.1 = dtype)).map Prod.snd = l.lookup dtype by
    rw [elemSizeBytes, h]
  intro l
  induction l with
  | nil => rfl
  | cons e l ih =>
    obtain ⟨k, w⟩ := e
    by_cases hk : k = dtype
    · simp [List.lookup_cons, hk]
    · simp [List.lookup_cons, hk, ih, beq_false_of_ne (Ne.symm hk)]

theorem getTensorNumElements_pos (shape : List (Option Int)) : 1 ≤ getTensorNumElements shape := by
  unfold getTensorNumElements
  refine List.foldlRecOn (motive := fun n => 1 ≤ n) shape _ 1 le_rfl ?_
  intro n hn dim _
  rcases dim with _ | d
  · simpa using hn
  · dsimp only
    split_ifs with hd
    · simpa using hn
    · nlinarith

theorem getTensorSizeBytes_pos (shape : List (Option Int)) (dtype : Int) :
    1 ≤ getTensorSizeBytes shape dtype := by
  have := getTensorNumElements_pos shape
  have := elemSizeBytes_pos dtype
  unfold getTensorSizeBytes
  nlinarith

theorem getTensorNumElements_append_singleton (shape : List (Option Int)) (dim : Option Int) :
    getTensorNumElements (shape ++ [dim]) =
      getTensorNumElements shape * (dim.filter (0 < ·)).getD 1 := by
  simp only [getTensorNumElements, List.foldl_append, List.foldl_cons, List.foldl_nil]
  rcases dim with _ | d
  · simp
  · by_cases hd : 0 < d
    · simp [hd, not_le.mpr hd, Option.filter]
    · simp [hd, le_of_not_lt hd, Option.filter]

/-- The element count is the product of the dimensions, an unknown or non-positive one
counting as `1`. -/
theorem getTensorNumElements_eq_prod (shape : List (Option Int)) :
    getTensorNumElements shape = (shape.map fun dim => (dim.filter (0 < ·)).getD 1).prod := by
  induction shape using List.reverseRecOn with
  | nil => rfl
  | append_singleton shape dim ih =>
    rw [getTensorNumElements_append_singleton, ih, List.map_append, List.prod_append,
      List.map_singleton, List.prod_singleton]

/-- A record `_calculate_num_ops` and the lowering can use: a known shape and at least
one byte. -/
def RecordOk (r : TensorRecord) : Prop := r.shape.isSome ∧ 1 ≤ r.sizeBytes

theorem recordOk_ofShape (shape : List (Option Int)) (dtype : Int) :
    RecordOk (.ofShape shape dtype) :=
  ⟨rfl, getTensorSizeBytes_pos shape dtype⟩

/-- Every entry of a table satisfies `RecordOk`. -/
def TableOk (tensors : PyDict String TensorRecord) : Prop :=
  ∀ e ∈ tensors.entries, RecordOk e.2

/-- Every record of the table is built by `TensorRecord.ofShape`. -/
theorem exists_ofShape_of_mem_collectTensors (model : ModelProto) :
    ∀ e ∈ (collectTensors model).entries, ∃ shape dtype, e.2 = .ofShape shape dtype := by
  let Inv := fun t : PyDict String TensorRecord =>
    ∀ e ∈ t.entries, ∃ shape dtype, e.2 = TensorRecord.ofShape shape dtype
  have hinsert : ∀ t name shape dtype, Inv t → Inv (t.insert name (.ofShape shape dtype)) :=
    fun _ _ shape dtype ht => PyDict.forall_insert
      (P := fun r => ∃ shape dtype, r = TensorRecord.ofShape shape dtype) ht ⟨shape, dtype, rfl⟩
  refine List.foldlRecOn (motive := Inv) _ _ _ ?_ fun t ht name _ => ?_
  · refine List.foldlRecOn (motive := Inv) _ _ _ ?_ fun t ht init _ => hinsert _ _ _ _ ht
    exact List.foldlRecOn (motive := Inv) _ _ _ (fun _ h => absurd h (List.not_mem_nil _))
      fun t ht vi _ => hinsert _ _ _ _ ht
  · unfold placeholderTensor
    split_ifs
    · exact ht
    · exact ht
    · exact hinsert _ _ _ _ ht

theorem tableOk_collectTensors (model : ModelProto) : TableOk (collectTensors model) := by
  intro e he
  obtain ⟨shape, dtype, he⟩ := exists_ofShape_of_mem_collectTensors model e he
  exact he ▸ recordOk_ofShape shape dtype

/-! ### The keys and their order -/

theorem keys_placeholderTensor (tensors : PyDict String TensorRecord) (name : String) :
    (placeholderTensor tensors name).keys = if name ≠ "" then
      (if name ∈ tensors.keys then tensors.keys else tensors.keys ++ [name]) else tensors.keys := by
  unfold placeholderTensor
  split_ifs <;> simp_all [PyDict.keys_insert]

/-- The three loops assign, in order, the declared names, the initializers' names and the
named node inputs and outputs; a name keeps the position of its first assignment. -/
theorem keys_collectTensors (model : ModelProto) :
    (collectTensors model).keys =
      ((model.graph.valueInfo ++ model.graph.input ++ model.graph.output).map (·.name) ++
        model.graph.initializer.map (·.name) ++
        (model.graph.node.flatMap fun node => node.input ++ node.output).filter (· ≠ "")).eraseDups := by
  have hdeclared := PyDict.keys_foldl (declareTensor (initializerMap model.graph.initializer))
    ValueInfoProto.name (fun _ => true) (fun _ _ => by simp [declareTensor, PyDict.keys_insert])
    (show PyDict.empty.keys = ([] : List String).eraseDups from rfl)
    (model.graph.valueInfo ++ model.graph.input ++ model.graph.output)
  have hinit := PyDict.keys_foldl initializerTensor TensorProto.name (fun _ => true)
    (fun _ _ => by simp [initializerTensor, PyDict.keys_insert]) hdeclared model.graph.initializer
  have hnodes := PyDict.keys_foldl placeholderTensor id (fun name => name ≠ "")
    (fun _ _ => by simpa using keys_placeholderTensor _ _) hinit (nodeTensorNames model.graph)
  simpa [collectTensors, nodeTensorNames] using hnodes

/-- Every non-empty input and output name of every node has a record: the lowering's
lookups of node tensors never fail. -/
theorem mem_keys_collectTensors {model : ModelProto} {node : NodeProto} {name : String}
    (hnode : node ∈ model.graph.node) (hname : name ∈ node.input ++ node.output)
    (hne : name ≠ "") : name ∈ (collectTensors model).keys := by
  rw [keys_collectTensors, mem_eraseDups]
  exact List.mem_append_right _
    (List.mem_filter.mpr ⟨List.mem_flatMap.mpr ⟨node, hnode, hname⟩, decide_eq_true hne⟩)

/-- `_collect_tensors` gives a record to exactly the names of the declarations, the
initializers and the named node inputs and outputs, in order of first occurrence; every
record has a shape, and its size is the product of its known positive dimensions times
the element type's width in `_DTYPE_SIZES`, `4` for a type the table lacks. -/
theorem collectTensors_keys_records (model : ModelProto) :
    (collectTensors model).keys =
      ((model.graph.valueInfo ++ model.graph.input ++ model.graph.output).map (·.name) ++
        model.graph.initializer.map (·.name) ++
        (model.graph.node.flatMap fun node => node.input ++ node.output).filter (· ≠ "")).eraseDups ∧
    ∀ e ∈ (collectTensors model).entries, ∃ shape, e.2.shape = some shape ∧
      e.2.sizeBytes =
        (shape.map fun dim => (dim.filter (0 < ·)).getD 1).prod *
          (dtypeSizes.lookup e.2.dtype).getD 4 ∧
      1 ≤ e.2.sizeBytes :=
  ⟨keys_collectTensors model, fun e he => by
    obtain ⟨shape, dtype, he⟩ := exists_ofShape_of_mem_collectTensors model e he
    rw [he]
    exact ⟨shape, rfl, by rw [TensorRecord.ofShape, getTensorSizeBytes,
      getTensorNumElements_eq_prod, elemSizeBytes_eq_lookup], getTensorSizeBytes_pos shape dtype⟩⟩

/-! ### The record of each name -/

/-- `initializer_map` keeps the last initializer of each name. -/
theorem get?_initializerMap (initializers : List TensorProto) (name : String) :
    (initializerMap initializers).get? name = initializers.reverse.find? (·.name = name) := by
  simpa using PyDict.get?_foldl_insert _ TensorProto.name id (fun _ _ => rfl) name initializers .empty

/-- The node loop adds the placeholder for a named node tensor that has no record yet. -/
theorem get?_foldl_placeholderTensor (name : String) :
    ∀ (names : List String) (tensors : PyDict String TensorRecord),
      (names.foldl placeholderTensor tensors).get? name =
        (tensors.get? name).or (if name ≠ "" ∧ name ∈ names then some placeholderRecord else none)
  | [], tensors => by simp
  | n :: names, tensors => by
    rw [List.foldl_cons, get?_foldl_placeholderTensor name names]
    unfold placeholderTensor
    by_cases hn : n = ""
    · subst hn
      by_cases hname : name = "" <;> simp [hname]
    by_cases hname : name = n
    · subst hname
      by_cases hk : name ∈ tensors.keys
      · obtain ⟨r, hr⟩ := PyDict.mem_keys_iff_exists_get?.mp hk
        simp [hn, hk, hr]
      · simp [hn, hk, PyDict.get?_eq_none_iff.mpr hk]
    · simp only [List.mem_cons, hname, false_or]
      split_ifs <;> simp [hname]

/-- The record of each name: the dims and data type of the last initializer of that name
if there is one, whatever the declarations say; otherwise the shape and element type of
its last declaration, each falling back to `[1]` and `FLOAT`; otherwise the placeholder,
for a named node tensor. -/
theorem get?_collectTensors (model : ModelProto) (name : String) :
    (collectTensors model).get? name =
      match model.graph.initializer.reverse.find? (·.name = name) with
      | some init => some (.ofShape (init.dims.map some) init.dataType)
      | none =>
        match (model.graph.valueInfo ++ model.graph.input ++ model.graph.output).reverse.find?
            (·.name = name) with
        | some vi => some (.ofShape ((shapeFromTypeProto vi.type).getD [some 1])
            ((dtypeFromTypeProto vi.type).getD TensorProto.float))
        | none =>
          if name ≠ "" ∧ name ∈ model.graph.node.flatMap (fun node => node.input ++ node.output)
          then some placeholderRecord else none := by
  rw [collectTensors, get?_foldl_placeholderTensor,
    PyDict.get?_foldl_insert initializerTensor TensorProto.name _ (fun _ _ => rfl),
    PyDict.get?_foldl_insert (declareTensor _) ValueInfoProto.name _ (fun _ _ => rfl)]
  cases hinit : model.graph.initializer.reverse.find? (·.name = name) with
  | some init => rfl
  | none =>
    cases hvi : (model.graph.valueInfo ++ model.graph.input ++ model.graph.output).reverse.find?
        (·.name = name) with
    | some vi =>
      have hname : vi.name = name := by simpa using List.find?_some hvi
      simp [get?_initializerMap, hname, hinit]
    | none => simp [nodeTensorNames]

/-- A graph input `x` declared as a `FLOAT` tensor of shape `[2]` that is also an `INT64`
initializer of dims `[3]`. -/
def initializedInputModel : ModelProto :=
  ⟨⟨[], [], [⟨"x", ⟨some ⟨some TensorProto.float, some [.dimValue 2]⟩⟩⟩], [],
    [⟨"x", [3], TensorProto.int64⟩]⟩⟩

/-- A tensor `x` declared with shape `[2]` in `value_info`, then again without a shape as a
graph output. -/
def redeclaredOutputModel : ModelProto :=
  ⟨⟨[], [⟨"x", ⟨some ⟨some TensorProto.float, some [.dimValue 2]⟩⟩⟩], [],
    [⟨"x", ⟨some ⟨some TensorProto.float, none⟩⟩⟩], []⟩⟩

/-- The first loop's comment keeps a declared shape and element type and takes a
same-named initializer's only when the declaration lacks them, but the initializer loop
then overwrites every initializer's name: the graph input `x`, declared `FLOAT` of shape
`[2]` (8 bytes), gets the initializer's `INT64` dims `[3]` (24 bytes). Among declarations
the last one wins: `x` declared with shape `[2]` and again without one gets `[1]`. -/
theorem collectTensors_initializedInput :
    (∃ vi ∈ initializedInputModel.graph.input, vi.name = "x" ∧
      shapeFromTypeProto vi.type = some [some 2] ∧
      dtypeFromTypeProto vi.type = some TensorProto.float) ∧
    getTensorSizeBytes [some 2] TensorProto.float = 8 ∧
    (collectTensors initializedInputModel).get? "x" =
      some ⟨some [some 3], TensorProto.int64, 24⟩ ∧
    (∃ vi ∈ redeclaredOutputModel.graph.valueInfo, vi.name = "x" ∧
      shapeFromTypeProto vi.type = some [some 2]) ∧
    (collectTensors redeclaredOutputModel).get? "x" =
      some ⟨some [some 1], TensorProto.float, 4⟩ := by
  refine ⟨⟨_, List.mem_singleton_self _, rfl, rfl, rfl⟩, rfl, ?_,
    ⟨_, List.mem_singleton_self _, rfl, rfl⟩, ?_⟩ <;>
  · rw [get?_collectTensors]
    rfl

end Gwr
