import Mathlib.Tactic.Linarith
import Gwr.Timetable.Records

/-!
# Splitting a memory transfer into SRAM-sized chunks

`_split_memory_op` cuts the transfer of one tensor into `(total + sram - 1) // sram`
records: chunk `i` starts `i * sram` bytes into the tensor and moves
`min(sram, total - i * sram)` bytes. A slot with one chunk keeps its base id; otherwise
each chunk's id is suffixed with `_chunk_<i>`.

For a positive capacity and a non-negative size the chunks tile the tensor: there are
`⌈size / sram⌉` of them, each between one byte and `sram` bytes, each starting where the
previous one ends, together covering exactly `[addr, addr + size)` (`splitMemoryOp_covers`).
The script never checks the capacity: `0` raises `ZeroDivisionError`, and a negative one
is floor-divided, which can yield no chunk at all or chunks of negative size.

## Main definitions

* `splitMemoryOp` — `_split_memory_op`
* `CoversTensor` — what the records of one slot should be
-/

set_option autoImplicit false

namespace Gwr

/-- `_split_memory_op`. Python's `//` is `Int.fdiv`, and `range` of a non-positive count
is empty; a zero `sram_bytes` raises before any record is built. -/
def splitMemoryOp (baseId opType : String) (peName : Yaml) (baseAddr totalSizeBytes sramBytes : Int) :
    Except PyError (List TimetableNode) :=
  if sramBytes = 0 then .error .zeroDivisionError
  else
    let numChunks := (totalSizeBytes + sramBytes - 1).fdiv sramBytes
    .ok ((List.range numChunks.toNat).map fun (chunkIndex : Nat) =>
      let offset := (chunkIndex : Int) * sramBytes
      .memory (if numChunks = 1 then baseId else chunkId baseId chunkIndex) opType peName
        (baseAddr + offset) (min sramBytes (totalSizeBytes - offset)))

/-- The records of one slot cover the tensor's bytes `[addr, addr + size)`: `⌈size / cap⌉`
chunks, the `i`-th with the id `<baseId>_chunk_<i>` (just `<baseId>` when it is the only
one), at `addr + i * cap` moving `min cap (size - i * cap)` bytes, between one byte and
`cap` bytes, each ending where the next begins. -/
structure CoversTensor (recs : List TimetableNode) (baseId opType : String) (pe : Yaml)
    (addr size cap : Int) : Prop where
  length_eq : (recs.length : Int) = ⌈(size : ℚ) / cap⌉
  get_eq : ∀ i (hi : i < recs.length), recs.get ⟨i, hi⟩ =
    .memory (if recs.length = 1 then baseId else baseId ++ "_chunk_" ++ toString i) opType pe
      (addr + i * cap) (min cap (size - i * cap))
  bytes_mem : ∀ i < recs.length, 1 ≤ min cap (size - i * cap) ∧ min cap (size - i * cap) ≤ cap
  consecutive : ∀ i, i + 1 < recs.length → addr + (i + 1) * cap = addr + i * cap + min cap (size - i * cap)
  disjoint : ∀ i i', i < i' → i' < recs.length → addr + i * cap + min cap (size - i * cap) ≤ addr + i' * cap
  covers : ∀ x, (∃ i < recs.length, addr + i * cap ≤ x ∧ x < addr + i * cap + min cap (size - i * cap)) ↔
    addr ≤ x ∧ x < addr + size

namespace CoversTensor

variable {recs : List TimetableNode} {baseId opType : String} {pe : Yaml} {addr size cap : Int}

/-- A tensor of at least one byte gets at least one record. -/
theorem ne_nil (h : CoversTensor recs baseId opType pe addr size cap) (hsize : 1 ≤ size) :
    recs ≠ [] := by
  obtain ⟨i, hi, -⟩ := (h.covers addr).mpr ⟨le_rfl, by omega⟩
  exact List.ne_nil_of_length_pos (by omega)

/-- Every record of the slot moves at least one byte. -/
theorem numBytes_pos (h : CoversTensor recs baseId opType pe addr size cap)
    {r : TimetableNode} (hr : r ∈ recs) {id op : String} {pe' : Yaml} {addr' numBytes : Int}
    (hmem : r = .memory id op pe' addr' numBytes) : 1 ≤ numBytes := by
  obtain ⟨⟨i, hi⟩, rfl⟩ := List.mem_iff_get.mp hr
  rw [h.get_eq i hi] at hmem
  cases hmem
  exact (h.bytes_mem i hi).1

end CoversTensor

section Arithmetic

variable {size cap : Int}

/-- The chunk count is `⌈size / cap⌉` and covers `size`: `(n - 1) * cap < size ≤ n * cap`. -/
private theorem chunkCount_bounds (size : Int) (hcap : 1 ≤ cap) :
    ((size + cap - 1).fdiv cap - 1) * cap < size ∧ size ≤ (size + cap - 1).fdiv cap * cap := by
  rw [Int.fdiv_eq_ediv _ (by omega)]
  have below := Int.ediv_mul_le (size + cap - 1) (by omega : cap ≠ 0)
  have above := Int.lt_ediv_add_one_mul_self (size + cap - 1) (by omega : 0 < cap)
  constructor <;> nlinarith

theorem chunkCount_nonneg (hcap : 1 ≤ cap) (hsize : 0 ≤ size) : 0 ≤ (size + cap - 1).fdiv cap := by
  rw [Int.fdiv_eq_ediv _ (by omega)]
  exact Int.ediv_nonneg (by omega) (by omega)

/-- Every chunk starts inside the tensor. -/
private theorem offset_lt (hcap : 1 ≤ cap) {i : ℕ} (hi : (i : Int) < (size + cap - 1).fdiv cap) :
    (i : Int) * cap < size := by
  have := (chunkCount_bounds size hcap).1
  have : ((i : Int) + 1) * cap ≤ (size + cap - 1).fdiv cap * cap :=
    mul_le_mul_of_nonneg_right (by omega) (by omega)
  nlinarith

end Arithmetic

/-- For a positive capacity, the records `_split_memory_op` returns cover the tensor. -/
theorem splitMemoryOp_covers {baseId opType : String} {pe : Yaml} {addr size cap : Int}
    (hcap : 1 ≤ cap) (hsize : 0 ≤ size) :
    ∃ recs, splitMemoryOp baseId opType pe addr size cap = .ok recs ∧
      CoversTensor recs baseId opType pe addr size cap := by
  set n := (size + cap - 1).fdiv cap with hn
  have hn0 : 0 ≤ n := chunkCount_nonneg hcap hsize
  have hbounds := chunkCount_bounds size hcap
  have hlen : ((List.range n.toNat).length : Int) = n := by simp [hn0]
  refine ⟨(List.range n.toNat).map fun (i : Nat) => .memory (if n = 1 then baseId else chunkId baseId i)
      opType pe (addr + i * cap) (min cap (size - i * cap)),
    by simp [splitMemoryOp, show cap ≠ 0 by omega, hn], ?_⟩
  have hlt : ∀ {i : ℕ}, i < n.toNat → (i : Int) * cap < size :=
    fun hi => offset_lt hcap (by omega)
  constructor
  · simp [hlen, ceil_div_eq_fdiv size cap (by omega), ← hn, hn0]
  · intro i hi
    have hone : n = 1 ↔ n.toNat = 1 := by omega
    simp [hone, chunkId]
  · intro i hi
    simp only [List.length_map, List.length_range] at hi
    exact ⟨le_min hcap (by linarith [hlt hi]), min_le_left _ _⟩
  · intro i hi
    simp only [List.length_map, List.length_range] at hi
    have : ((i : Int) + 1) * cap < size := by exact_mod_cast hlt hi
    rw [min_eq_left (by linarith)]
    ring
  · intro i i' hii' _
    have : ((i : Int) + 1) * cap ≤ (i' : Int) * cap :=
      mul_le_mul_of_nonneg_right (by exact_mod_cast hii') (by omega)
    linarith [min_le_left cap (size - i * cap)]
  · intro x
    simp only [List.length_map, List.length_range]
    constructor
    · rintro ⟨i, _, hlo, hhi⟩
      have : (0 : Int) ≤ i * cap := by positivity
      constructor
      · linarith
      · linarith [min_le_right cap (size - i * cap)]
    · rintro ⟨hlo, hhi⟩
      set q := (x - addr) / cap
      have hq0 : 0 ≤ q := Int.ediv_nonneg (by omega) (by omega)
      have hqlo : q * cap ≤ x - addr := Int.ediv_mul_le (x - addr) (by omega)
      have hqhi : x - addr < (q + 1) * cap := Int.lt_ediv_add_one_mul_self (x - addr) (by omega)
      have hqn : q < n := by
        by_contra hge
        have : n * cap ≤ q * cap := mul_le_mul_of_nonneg_right (by omega) (by omega)
        linarith
      refine ⟨q.toNat, by omega, ?_⟩
      rw [Int.toNat_of_nonneg hq0]
      have : x - (addr + q * cap) < min cap (size - q * cap) := lt_min (by linarith) (by linarith)
      exact ⟨by linarith, by linarith⟩

/-! ### Ids of the chunks -/

theorem chunkId_injective (baseId : String) : Function.Injective (chunkId baseId) := by
  intro i i' h
  have : (toString i).data = (toString i').data := by
    simpa [chunkId, String.ext_iff] using h
  exact toString_injective (String.ext this)

/-- The records of one slot have pairwise distinct ids, each the slot's base id with or
without a chunk suffix. -/
theorem splitMemoryOp_ids {baseId opType : String} {pe : Yaml} {addr size cap : Int}
    {recs : List TimetableNode} (h : splitMemoryOp baseId opType pe addr size cap = .ok recs) :
    (recs.map TimetableNode.id).Nodup ∧ ∀ r ∈ recs, ∃ c, r.id = withChunk baseId c := by
  unfold splitMemoryOp at h
  split_ifs at h
  cases h
  refine ⟨?_, ?_⟩
  · rw [List.map_map]
    by_cases hone : (size + cap - 1).fdiv cap = 1
    · simp [hone, List.range_succ]
    · simpa [hone, Function.comp_def] using (List.nodup_range _).map (chunkId_injective baseId)
  · simp only [List.mem_map, List.mem_range]
    rintro _ ⟨i, -, rfl⟩
    exact ⟨if (size + cap - 1).fdiv cap = 1 then none else some i, by split_ifs <;> rfl⟩

end Gwr
