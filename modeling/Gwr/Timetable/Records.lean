import Gwr.Python.Int

/-!
# Timetable records and their ids

The converter emits memory records (`kind: memory`, `op: load | store`, with an
address and a byte count) and compute records (`kind: compute`, with a dtype and an
operation count), joined by `data` edges. Every record's id is built from its graph
node's name: `<name>_compute`, `<name>_load_<j>` and `<name>_store_<j>` for slot `j`,
and `..._chunk_<i>` when a slot is split into several chunks.

Node names are arbitrary strings and may themselves contain `_load_` or `_chunk_`, yet
the id grammar is unambiguous: reading an id from its end recovers the node name, the
role, the slot and the chunk (`decodeReversed_id`). So distinct keys give distinct ids.

## Main definitions

* `TimetableNode`, `TimetableEdge`, `Timetable` — the converter's output
* `loadId`, `storeId`, `computeId`, `chunkId` — the id formats
* `RecordKey` — what an id names, and `RecordKey.id`

## Main results

* `decodeReversed_id` — ids decode back to their key
* `RecordKey.id_injective` — the id map is injective over arbitrary node names
-/

set_option autoImplicit false

namespace Gwr

/-- A timetable record: a memory record carries `{addr, num_bytes}`, a compute record
`{dtype, num_ops}`; both name their processing element by its platform `name` value. -/
inductive TimetableNode where
  | memory (id op : String) (pe : Yaml) (addr numBytes : Int)
  | compute (id op : String) (pe : Yaml) (dtype : String) (numOps : Int)
  deriving DecidableEq

namespace TimetableNode

/-- The record's `id`. -/
def id : TimetableNode → String
  | memory id .. | compute id .. => id

/-- The record's `kind`. -/
def kind : TimetableNode → String
  | memory .. => "memory"
  | compute .. => "compute"

/-- The record's `pe`. -/
def pe : TimetableNode → Yaml
  | memory _ _ pe .. | compute _ _ pe .. => pe

@[simp] theorem id_memory (id op : String) (pe : Yaml) (addr numBytes : Int) :
    (memory id op pe addr numBytes).id = id := rfl

@[simp] theorem id_compute (id op : String) (pe : Yaml) (dtype : String) (numOps : Int) :
    (compute id op pe dtype numOps).id = id := rfl

@[simp] theorem pe_memory (id op : String) (pe : Yaml) (addr numBytes : Int) :
    (memory id op pe addr numBytes).pe = pe := rfl

@[simp] theorem pe_compute (id op : String) (pe : Yaml) (dtype : String) (numOps : Int) :
    (compute id op pe dtype numOps).pe = pe := rfl

end TimetableNode

/-- A dependency edge `{from, to, kind}`. -/
structure TimetableEdge where
  fromId : String
  toId : String
  kind : String
  deriving DecidableEq

/-- The converter's output `{nodes, edges}`. -/
structure Timetable where
  nodes : List TimetableNode
  edges : List TimetableEdge
  deriving DecidableEq

/-! ### Ids -/

/-- `f"{node_name}_{kind}_{index}"`, the shared format of load and store ids. -/
def slotId (nodeName kind : String) (index : Nat) : String :=
  nodeName ++ "_" ++ kind ++ "_" ++ toString index

/-- `load_id = f"{node_name}_load_{input_index}"`. -/
def loadId (nodeName : String) (inputIndex : Nat) : String := slotId nodeName "load" inputIndex

/-- `store_id = f"{node_name}_store_{output_index}"`. -/
def storeId (nodeName : String) (outputIndex : Nat) : String :=
  slotId nodeName "store" outputIndex

/-- `compute_id = f"{node_name}_compute"`. -/
def computeId (nodeName : String) : String := nodeName ++ "_compute"

/-- `chunk_id = f"{base_id}_chunk_{chunk_index}"`. -/
def chunkId (baseId : String) (chunkIndex : Nat) : String :=
  baseId ++ "_chunk_" ++ toString chunkIndex

/-- A slot's base id, suffixed with the chunk index when the slot has several chunks. -/
def withChunk (baseId : String) : Option Nat → String
  | none => baseId
  | some i => chunkId baseId i

/-- What an id names: a graph node's compute record, or a chunk of one of its load or
store slots (`none` for a slot emitted as a single record). -/
inductive RecordKey where
  | compute (nodeName : String)
  | load (nodeName : String) (slot : Nat) (chunk : Option Nat)
  | store (nodeName : String) (slot : Nat) (chunk : Option Nat)
  deriving DecidableEq

/-- The id the converter writes for a key. -/
def RecordKey.id : RecordKey → String
  | .compute n => computeId n
  | .load n j c => withChunk (loadId n j) c
  | .store n j c => withChunk (storeId n j) c

/-! ### Reading ids back -/

/-- Split a reversed id at its final `_<decimal>`: the number and what precedes the `_`. -/
def splitNumber (r : List Char) : Option (Nat × List Char) :=
  let ds := r.takeWhile Char.isDigit
  if ds = [] then none
  else match r.dropWhile Char.isDigit with
    | '_' :: rest => (readDigits 10 ds.reverse).map (·, rest)
    | _ => none

/-- The slot kind before a reversed `_<slot>` suffix. -/
def decodeSlot (r : List Char) : Option (Bool × String) :=
  match r with
  | 'd' :: 'a' :: 'o' :: 'l' :: '_' :: name => some (true, String.mk name.reverse)
  | 'e' :: 'r' :: 'o' :: 't' :: 's' :: '_' :: name => some (false, String.mk name.reverse)
  | _ => none

/-- The key of a memory record, given its kind, name, slot and chunk. -/
def memoryKey : Bool → String → Nat → Option Nat → RecordKey
  | true => .load
  | false => .store

/-- Read an id from its last character back to its first. -/
def decodeReversed (r : List Char) : Option RecordKey :=
  match splitNumber r with
  | none => match r with
    | 'e' :: 't' :: 'u' :: 'p' :: 'm' :: 'o' :: 'c' :: '_' :: name =>
      some (.compute (String.mk name.reverse))
    | _ => none
  | some (n, rest) => match rest with
    | 'k' :: 'n' :: 'u' :: 'h' :: 'c' :: '_' :: rest' => do
      let (j, rest'') ← splitNumber rest'
      let (isLoad, name) ← decodeSlot rest''
      pure (memoryKey isLoad name j (some n))
    | _ => do
      let (isLoad, name) ← decodeSlot rest
      pure (memoryKey isLoad name n none)

theorem splitNumber_digits (n : Nat) (rest : List Char) :
    splitNumber ((Nat.toDigits 10 n).reverse ++ '_' :: rest) = some (n, rest) := by
  have hdigit : ∀ c ∈ (Nat.toDigits 10 n).reverse, c.isDigit = true :=
    fun c hc => isDigit_of_mem_toDigits (List.mem_reverse.mp hc)
  have hne : (Nat.toDigits 10 n).reverse ≠ [] := by simpa using toDigits_ne_nil 10 n
  simp [splitNumber, List.takeWhile_append_of_pos hdigit, List.dropWhile_append_of_pos hdigit,
    hne, readDigits_toDigits (by decide : 2 ≤ 10) (by decide : 10 ≤ 16)]

private theorem data_toString (n : Nat) : (toString n).data = Nat.toDigits 10 n := rfl

private theorem reverse_slotId (nodeName kind : String) (n : Nat) :
    (slotId nodeName kind n).data.reverse =
      (Nat.toDigits 10 n).reverse ++ '_' :: (kind.data.reverse ++ '_' :: nodeName.data.reverse) := by
  simp [slotId, data_toString]

private theorem reverse_chunkId (baseId : String) (i : Nat) :
    (chunkId baseId i).data.reverse =
      (Nat.toDigits 10 i).reverse ++ '_' :: ('k' :: 'n' :: 'u' :: 'h' :: 'c' :: '_' :: baseId.data.reverse) := by
  simp [chunkId, data_toString]

private theorem reverse_computeId (nodeName : String) :
    (computeId nodeName).data.reverse =
      'e' :: 't' :: 'u' :: 'p' :: 'm' :: 'o' :: 'c' :: '_' :: nodeName.data.reverse := by
  simp [computeId]

/-- A chunk id reads back as its chunk index, then as its slot's id. -/
private theorem decodeReversed_chunkId (baseId : String) (c : Nat) :
    decodeReversed (chunkId baseId c).data.reverse = (do
      let (j, rest) ← splitNumber baseId.data.reverse
      let (isLoad, name) ← decodeSlot rest
      pure (memoryKey isLoad name j (some c))) := by
  rw [reverse_chunkId]
  unfold decodeReversed
  rw [splitNumber_digits]
  rfl

/-- Every id decodes back to its key. Once the numbers are read (`splitNumber_digits`),
the rest of each case is evaluation: the matches are on literal characters. -/
theorem decodeReversed_id (k : RecordKey) : decodeReversed k.id.toList.reverse = some k := by
  have hname (n : String) : String.mk n.data.reverse.reverse = n := by simp
  cases k with
  | compute n =>
    rw [RecordKey.id, String.toList, reverse_computeId]
    exact congrArg (some ∘ RecordKey.compute) (hname n)
  | load n j c =>
    cases c with
    | none =>
      rw [RecordKey.id, withChunk, loadId, String.toList, reverse_slotId]
      unfold decodeReversed
      rw [splitNumber_digits]
      exact congrArg (fun name => some (RecordKey.load name j none)) (hname n)
    | some c =>
      rw [RecordKey.id, withChunk, loadId, String.toList, decodeReversed_chunkId, reverse_slotId,
        splitNumber_digits]
      exact congrArg (fun name => some (RecordKey.load name j (some c))) (hname n)
  | store n j c =>
    cases c with
    | none =>
      rw [RecordKey.id, withChunk, storeId, String.toList, reverse_slotId]
      unfold decodeReversed
      rw [splitNumber_digits]
      exact congrArg (fun name => some (RecordKey.store name j none)) (hname n)
    | some c =>
      rw [RecordKey.id, withChunk, storeId, String.toList, decodeReversed_chunkId, reverse_slotId,
        splitNumber_digits]
      exact congrArg (fun name => some (RecordKey.store name j (some c))) (hname n)

/-- Distinct keys have distinct ids, whatever the node names. -/
theorem RecordKey.id_injective : Function.Injective RecordKey.id := fun k k' h => by
  have := decodeReversed_id k
  rw [h, decodeReversed_id k'] at this
  exact Option.some.inj this.symm

end Gwr
