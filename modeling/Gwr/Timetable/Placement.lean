import Mathlib.Algebra.BigOperators.Ring
import Mathlib.Algebra.Order.BigOperators.Group.Finset
import Gwr.Timetable.Layout

/-!
# What the layout computes

The placement loop of `_layout_tensors` is a state machine over the size-sorted tensors.
This module states its invariant after every prefix of the tensors and derives the
closed form of every address: tensor `i` of the sorted order sits on device `i mod D`,
at that device's base plus the aligned sizes of the earlier tensors placed there. Two
tensors on one device therefore never overlap, and the descending order keeps the
devices' totals within one largest tensor of each other.

## Main definitions

* `firstRanges` — each device with the base of its first range, in order of first
  appearance: the claim's `d_j` and `b_j`
* `advance` — how far placing a prefix of the tensors moves one device's cursor

## Main results

* `initDeviceAddresses_entries` — the first loop builds exactly `firstRanges`
* `placed_foldl` — the placement invariant, by induction over the sorted tensors
-/

set_option autoImplicit false

namespace Gwr

open Finset

/-! ### The devices and their bases -/

/-- Each device with the base of its first range, in order of first appearance. -/
def firstRanges (rs : List (Yaml × Int)) : List (Yaml × Int) :=
  (rs.enum.filter fun e => e.2.1 ∉ (rs.take e.1).map Prod.fst).map Prod.snd

theorem firstRanges_append_singleton (rs : List (Yaml × Int)) (r : Yaml × Int) :
    firstRanges (rs ++ [r]) = firstRanges rs ++ if r.1 ∈ rs.map Prod.fst then [] else [r] := by
  unfold firstRanges
  rw [List.enum_append, List.enumFrom_singleton, List.filter_append, List.map_append]
  congr 1
  · congr 1
    apply List.filter_congr
    intro e he
    rw [List.take_append_of_le_length (List.fst_lt_of_mem_enum he).le]
  · split_ifs with h <;> simp [h]

theorem mem_map_fst_firstRanges {x : Yaml} (rs : List (Yaml × Int)) :
    x ∈ (firstRanges rs).map Prod.fst ↔ x ∈ rs.map Prod.fst := by
  induction rs using List.reverseRecOn with
  | nil => simp [firstRanges]
  | append_singleton rs r ih =>
    rw [firstRanges_append_singleton, List.map_append, List.mem_append, ih, List.map_append,
      List.mem_append]
    split_ifs with h
    · simp only [List.map_nil, List.not_mem_nil, or_false, List.map_cons, List.mem_singleton]
      exact ⟨Or.inl, fun h' => h'.elim id (· ▸ h)⟩
    · rfl

/-- Ranges of distinct devices are each their device's first. -/
theorem firstRanges_of_nodup {rs : List (Yaml × Int)} (h : (rs.map Prod.fst).Nodup) :
    firstRanges rs = rs := by
  induction rs using List.reverseRecOn with
  | nil => rfl
  | append_singleton rs r ih =>
    rw [List.map_append, List.nodup_append] at h
    rw [firstRanges_append_singleton, ih h.1, if_neg fun hr => h.2.2 hr (by simp)]

/-- The first loop of `_layout_tensors` builds each device's first base, in order of
first appearance. -/
theorem initDeviceAddresses_entries {ranges : List Yaml} {rs : List (Yaml × Int)}
    (hparse : List.Forall₂ (fun r e => rangeEntry r = .ok e) ranges rs) :
    ∃ devs, initDeviceAddresses ranges = .ok devs ∧ devs.entries = firstRanges rs := by
  suffices ∀ (pre : List (Yaml × Int)) (d : PyDict Yaml Int), d.entries = firstRanges pre →
      ∃ devs, ranges.foldlM initDevice d = .ok devs ∧ devs.entries = firstRanges (pre ++ rs) from
    this [] .empty rfl
  induction hparse with
  | nil => exact fun pre d hd => ⟨d, rfl, by simpa using hd⟩
  | @cons r entry ranges rest hr _ ih =>
    intro pre d hd
    have hiff : entry.1 ∈ d.keys ↔ entry.1 ∈ pre.map Prod.fst := by
      rw [PyDict.keys, hd, mem_map_fst_firstRanges]
    have hstep : ∃ d', initDevice d r = .ok d' ∧ d'.entries = firstRanges (pre ++ [entry]) := by
      rw [firstRanges_append_singleton]
      by_cases hmem : entry.1 ∈ d.keys
      · exact ⟨d, by simp [initDevice, hr, hmem], by simp [hiff.mp hmem, hd]⟩
      · exact ⟨d.insert entry.1 entry.2, by simp [initDevice, hr, hmem], by
          simp [mt hiff.mpr hmem, PyDict.entries_insert_of_not_mem hmem, hd]⟩
    obtain ⟨d', hd', hentries⟩ := hstep
    obtain ⟨devs, hfold, hdevs⟩ := ih (pre ++ [entry]) d' hentries
    refine ⟨devs, ?_, by simpa using hdevs⟩
    rw [List.foldlM_cons, hd']
    exact hfold

/-! ### The placement loop -/

/-- The name of the `i`-th tensor in placement order. -/
def nameAt (t : List (String × TensorRecord)) (i : ℕ) : String := (t.map Prod.fst).getD i ""

/-- The size of the `i`-th tensor in placement order; `0` past the end. -/
def sizeAt (t : List (String × TensorRecord)) (i : ℕ) : Int := (t.map (·.2.sizeBytes)).getD i 0

/-- How far placing the first `n` tensors moves the cursor of device `j` of `D`. -/
def advance (t : List (String × TensorRecord)) (D j n : ℕ) : Int :=
  ∑ i ∈ (range n).filter (· % D = j), alignedSizeBytes (sizeAt t i)

/-- The `j`-th device. -/
def deviceAt (devs : List (Yaml × Int)) (j : ℕ) : Yaml := (devs.map Prod.fst).getD j .null

/-- The base address of the `j`-th device. -/
def baseAt (devs : List (Yaml × Int)) (j : ℕ) : Int := (devs.map Prod.snd).getD j 0

/-- The closed form of the address of the `i`-th tensor: the base of device `i mod D`
plus the aligned sizes of the earlier tensors placed on it. -/
def placedAddress (devs : List (Yaml × Int)) (t : List (String × TensorRecord)) (i : ℕ) : Int :=
  baseAt devs (i % devs.length) + advance t devs.length (i % devs.length) i

/-- The placement loop's invariant after the first `n` tensors of `t`, starting from
the cursors `devs`. -/
structure Placed (devs : PyDict Yaml Int) (t : List (String × TensorRecord)) (n : ℕ)
    (st : LayoutState) : Prop where
  index_eq : st.currentDeviceIndex = n % devs.entries.length
  keys_eq : st.deviceAddresses.keys = devs.keys
  cursor_eq : ∀ j < devs.entries.length, st.deviceAddresses.get? (deviceAt devs.entries j) =
    some (baseAt devs.entries j + advance t devs.entries.length j n)
  names_eq : st.tensorAddresses.keys = (t.map Prod.fst).take n
  address_eq : ∀ i < n, st.tensorAddresses.get? (nameAt t i) = some (placedAddress devs.entries t i)

theorem advance_succ (t : List (String × TensorRecord)) (D j n : ℕ) :
    advance t D j (n + 1) = advance t D j n + if n % D = j then alignedSizeBytes (sizeAt t n) else 0 := by
  simp only [advance, range_succ, filter_insert]
  split_ifs with h
  · rw [sum_insert (by simp), add_comm]
  · rw [add_zero]

private theorem index_eq_of_nodup {α : Type} {l : List α} (hnodup : l.Nodup) {i j : ℕ}
    (hi : i < l.length) (hj : j < l.length) (h : l.get ⟨i, hi⟩ = l.get ⟨j, hj⟩) : i = j :=
  congrArg Fin.val (hnodup.get_inj_iff.mp h)

theorem deviceAt_injective {devs : PyDict Yaml Int} {j j' : ℕ} (hj : j < devs.entries.length)
    (hj' : j' < devs.entries.length) (h : deviceAt devs.entries j = deviceAt devs.entries j') :
    j = j' := by
  have hnodup := devs.nodup_keys
  simp only [deviceAt, List.getD_eq_getElem?_getD, List.getElem?_map, List.getElem?_eq_getElem hj,
    List.getElem?_eq_getElem hj', Option.map_some', Option.getD_some] at h
  exact index_eq_of_nodup hnodup (by simpa using hj) (by simpa using hj') (by simpa using h)

theorem deviceAt_mem_keys {devs : PyDict Yaml Int} {j : ℕ} (hj : j < devs.entries.length) :
    deviceAt devs.entries j ∈ devs.keys := by
  simp only [deviceAt, List.getD_eq_getElem?_getD, List.getElem?_map, List.getElem?_eq_getElem hj,
    Option.map_some', Option.getD_some, PyDict.keys]
  exact List.mem_map_of_mem _ (List.getElem_mem _)

variable {devs : PyDict Yaml Int} {t : List (String × TensorRecord)} {n : ℕ} {st : LayoutState}

/-- One placement step keeps the invariant. -/
theorem placed_allocate (hD : 0 < devs.entries.length) (hnodup : (t.map Prod.fst).Nodup)
    (hn : n < t.length) (h : Placed devs t n st) :
    Placed devs t (n + 1) (allocate devs.keys st t[n]) := by
  set D := devs.entries.length
  have hj0 : n % D < D := Nat.mod_lt _ hD
  have hdevice : devs.keys.getD st.currentDeviceIndex .null = deviceAt devs.entries (n % D) := by
    rw [h.index_eq]; rfl
  have haddr : (st.deviceAddresses.get? (deviceAt devs.entries (n % D))).getD 0 =
      placedAddress devs.entries t n := by
    rw [h.cursor_eq _ hj0]; rfl
  have hsize : t[n].2.sizeBytes = sizeAt t n := by simp [sizeAt, hn]
  have hname : t[n].1 = nameAt t n := by simp [nameAt, hn]
  have hfresh : nameAt t n ∉ st.tensorAddresses.keys := by
    rw [h.names_eq]
    intro hmem
    have hdisj : List.Disjoint ((t.map Prod.fst).take n) ((t.map Prod.fst).drop n) :=
      List.disjoint_of_nodup_append (by rwa [List.take_append_drop])
    have := hdisj hmem
    exact this (List.mem_iff_getElem.mpr ⟨0, by simp; omega, by simp [nameAt, hn]⟩)
  have hlen : devs.keys.length = D := List.length_map _ _
  constructor
  · simp only [allocate, h.index_eq, hlen]
    rw [Nat.add_mod (n % D), Nat.mod_mod, ← Nat.add_mod]
  · simp only [allocate, hdevice]
    rw [PyDict.keys_insert, h.keys_eq, if_pos (deviceAt_mem_keys hj0)]
  · intro j hj
    simp only [allocate, hdevice, haddr, hsize, PyDict.get?_insert, advance_succ]
    by_cases hjn : n % D = j
    · subst hjn
      simp [placedAddress, baseAt, add_assoc]
    · have hne : deviceAt devs.entries j ≠ deviceAt devs.entries (n % D) :=
        fun heq => hjn (deviceAt_injective hj0 hj heq.symm)
      simp [hne, hjn, h.cursor_eq j hj]
  · simp only [allocate]
    rw [PyDict.keys_insert, if_neg (hname ▸ hfresh), h.names_eq, List.take_succ, hname]
    simp [nameAt, hn]
  · intro i hi
    simp only [allocate, hdevice, haddr, hname, PyDict.get?_insert]
    rcases Nat.lt_succ_iff_lt_or_eq.mp hi with hi | rfl
    · have hne : nameAt t i ≠ nameAt t n := by
        intro heq
        have := index_eq_of_nodup hnodup (show i < (t.map Prod.fst).length by simp; omega)
          (show n < (t.map Prod.fst).length by simpa using hn)
          (by simpa [nameAt, hn, show i < t.length by omega] using heq)
        omega
      simp [hne, h.address_eq i hi]
    · simp

theorem placed_init : Placed devs t 0 ⟨devs, 0, .empty⟩ where
  index_eq := (Nat.zero_mod _).symm
  keys_eq := rfl
  cursor_eq j hj := by
    rw [PyDict.get?_eq_some_iff]
    simp [deviceAt, baseAt, advance, List.getElem?_eq_getElem hj]
  names_eq := rfl
  address_eq _ h := absurd h (Nat.not_lt_zero _)

/-- The placement invariant after every prefix of the tensors. -/
theorem placed_take (hD : 0 < devs.entries.length) (hnodup : (t.map Prod.fst).Nodup) :
    ∀ n ≤ t.length, Placed devs t n ((t.take n).foldl (allocate devs.keys) ⟨devs, 0, .empty⟩)
  | 0, _ => placed_init
  | n + 1, hn => by
    rw [List.take_succ, List.getElem?_eq_getElem hn, Option.toList_some, List.foldl_append,
      List.foldl_cons, List.foldl_nil]
    exact placed_allocate hD hnodup hn (placed_take hD hnodup n (by omega))

/-- The placement invariant once every tensor is placed. -/
theorem placed_foldl (hD : 0 < devs.entries.length) (hnodup : (t.map Prod.fst).Nodup) :
    Placed devs t t.length (t.foldl (allocate devs.keys) ⟨devs, 0, .empty⟩) := by
  simpa using placed_take hD hnodup t.length le_rfl

/-! ### `_layout_tensors` -/

theorem nodup_sortedTensors (tensors : PyDict String TensorRecord) :
    ((sortedTensors tensors).map Prod.fst).Nodup :=
  ((List.perm_insertionSort _ _).map Prod.fst).nodup_iff.mpr tensors.nodup_keys

theorem firstRanges_ne_nil {rs : List (Yaml × Int)} (h : rs ≠ []) : firstRanges rs ≠ [] := by
  obtain ⟨r, rest, rfl⟩ := List.exists_cons_of_ne_nil h
  have : r.1 ∈ (firstRanges (r :: rest)).map Prod.fst :=
    (mem_map_fst_firstRanges _).mpr (List.mem_cons_self _ _)
  exact List.ne_nil_of_mem (List.mem_map.mp this).choose_spec.1

/-- With well-formed ranges, `_layout_tensors` runs its placement loop from the cursors of
`firstRanges`. -/
theorem layoutState_eq (tensors : PyDict String TensorRecord) {platformConfig : Yaml}
    {ranges : List Yaml} {rs : List (Yaml × Int)}
    (hranges : memoryRanges platformConfig = .ok ranges)
    (hparse : List.Forall₂ (fun r e => rangeEntry r = .ok e) ranges rs) :
    ∃ devs : PyDict Yaml Int, devs.entries = firstRanges rs ∧ 0 < devs.entries.length ∧
      layoutState tensors platformConfig =
        .ok ((sortedTensors tensors).foldl (allocate devs.keys) ⟨devs, 0, .empty⟩) := by
  obtain ⟨devs, hinit, hdevs⟩ := initDeviceAddresses_entries hparse
  have hrs : rs ≠ [] := fun h => memoryRanges_ne_nil hranges (List.forall₂_nil_right_iff.mp (h ▸ hparse))
  have hpos : 0 < devs.entries.length := List.length_pos.mpr (hdevs ▸ firstRanges_ne_nil hrs)
  have hkeys : devs.keys ≠ [] := by simpa [PyDict.keys, ← List.length_pos] using hpos
  refine ⟨devs, hdevs, hpos, ?_⟩
  simp only [layoutState, hranges, hinit, bind, Except.bind, hkeys, if_false]
  rfl

/-- With well-formed ranges, `_layout_tensors` returns, and gives every tensor an address. -/
theorem layoutTensors_keys (tensors : PyDict String TensorRecord) {platformConfig : Yaml}
    {ranges : List Yaml} {rs : List (Yaml × Int)}
    (hranges : memoryRanges platformConfig = .ok ranges)
    (hparse : List.Forall₂ (fun r e => rangeEntry r = .ok e) ranges rs) :
    ∃ tensorAddresses, layoutTensors tensors platformConfig = .ok tensorAddresses ∧
      ∀ name ∈ tensors.keys, name ∈ tensorAddresses.keys := by
  obtain ⟨devs, -, hpos, heq⟩ := layoutState_eq tensors hranges hparse
  have hplaced := placed_foldl hpos (nodup_sortedTensors tensors)
  refine ⟨_, by rw [layoutTensors, heq]; rfl, fun name hname => ?_⟩
  rw [hplaced.names_eq, List.take_of_length_le (by simp)]
  exact ((List.perm_insertionSort _ _).map Prod.fst).mem_iff.mpr hname

/-! ### Sizes in placement order -/

section Sizes

variable {tensors : PyDict String TensorRecord}

/-- Insertion sort leaves the tensors in descending order of size. -/
theorem sorted_sortedTensors (tensors : PyDict String TensorRecord) :
    (sortedTensors tensors).Sorted fun a b => b.2.sizeBytes ≤ a.2.sizeBytes := by
  haveI : IsTotal (String × TensorRecord) fun a b => b.2.sizeBytes ≤ a.2.sizeBytes :=
    ⟨fun _ _ => le_total _ _⟩
  haveI : IsTrans (String × TensorRecord) fun a b => b.2.sizeBytes ≤ a.2.sizeBytes :=
    ⟨fun _ _ _ h₁ h₂ => h₂.trans h₁⟩
  exact List.sorted_insertionSort _ _

/-- The sort is stable: tensors of equal size keep their insertion order. -/
theorem pair_sublist_sortedTensors {a b : String × TensorRecord}
    (h : [a, b].Sublist tensors.entries) (hsize : a.2.sizeBytes = b.2.sizeBytes) :
    [a, b].Sublist (sortedTensors tensors) :=
  List.pair_sublist_insertionSort hsize.ge h

theorem sizeAt_of_length_le {t : List (String × TensorRecord)} {k : ℕ} (hk : t.length ≤ k) :
    sizeAt t k = 0 := by
  simp [sizeAt, List.getElem?_eq_none hk]

theorem sizeAt_nonneg (hsizes : ∀ e ∈ tensors.entries, 0 ≤ e.2.sizeBytes) (k : ℕ) :
    0 ≤ sizeAt (sortedTensors tensors) k := by
  rw [sizeAt, List.getD_eq_getElem?_getD, List.getElem?_map]
  cases h : (sortedTensors tensors)[k]? with
  | none => exact le_rfl
  | some e => exact hsizes e ((List.perm_insertionSort _ _).subset (List.getElem?_mem h))

/-- Sizes never grow along the placement order, the zero padding past its end included. -/
theorem sizeAt_antitone (hsizes : ∀ e ∈ tensors.entries, 0 ≤ e.2.sizeBytes) {k k' : ℕ}
    (hk : k ≤ k') : sizeAt (sortedTensors tensors) k' ≤ sizeAt (sortedTensors tensors) k := by
  rcases lt_or_le k' (sortedTensors tensors).length with hk' | hk'
  · rcases hk.lt_or_eq with hlt | rfl
    · have := (sorted_sortedTensors tensors).rel_get_of_lt (a := ⟨k, by omega⟩) (b := ⟨k', hk'⟩) hlt
      simpa [sizeAt, hk', show k < (sortedTensors tensors).length by omega] using this
    · exact le_rfl
  · rw [sizeAt_of_length_le hk']
    exact sizeAt_nonneg hsizes k

end Sizes

/-! ### Sums over the tensors of one device -/

theorem advance_mono (t : List (String × TensorRecord)) (D j : ℕ)
    (hnonneg : ∀ k, 0 ≤ alignedSizeBytes (sizeAt t k)) {n m : ℕ} (h : n ≤ m) :
    advance t D j n ≤ advance t D j m :=
  sum_le_sum_of_subset_of_nonneg (filter_subset_filter _ (range_subset.mpr h))
    fun k _ _ => hnonneg k

theorem dvd_advance (t : List (String × TensorRecord)) (D j n : ℕ) : 64 ∣ advance t D j n :=
  dvd_sum fun _ _ => dvd_alignedSizeBytes _

/-- The terms of residue `j` among the first `M * D` indices are those at `k * D + j`. -/
theorem sum_range_mul_ite (a : ℕ → ℤ) {D j : ℕ} (hj : j < D) :
    ∀ M, ∑ i ∈ range (M * D), (if i % D = j then a i else 0) = ∑ k ∈ range M, a (k * D + j)
  | 0 => by simp
  | M + 1 => by
    rw [Nat.succ_mul, sum_range_add, sum_range_mul_ite a hj M, sum_range_succ]
    congr 1
    rw [sum_congr rfl fun x hx => by rw [Nat.mul_add_mod', Nat.mod_eq_of_lt (mem_range.mp hx)],
      sum_ite_eq', if_pos (mem_range.mpr hj)]

/-- A device's total advance is the sum over every `D`-th tensor from its own index. -/
theorem advance_eq_stride (t : List (String × TensorRecord)) {D j : ℕ} (hj : j < D) :
    advance t D j t.length = ∑ k ∈ range t.length, alignedSizeBytes (sizeAt t (k * D + j)) := by
  have hzero : ∀ k, t.length ≤ k → alignedSizeBytes (sizeAt t k) = 0 := fun k hk => by
    rw [sizeAt_of_length_le hk]; rfl
  rw [advance, sum_subset (filter_subset_filter _ (range_subset.mpr
      (Nat.le_mul_of_pos_right t.length (by omega : 0 < D)))) fun k hk hk' => hzero k (by
        simp only [mem_filter, mem_range, not_and] at hk hk'
        by_contra hlt
        exact hk' (by omega) hk.2), sum_filter, sum_range_mul_ite _ hj]

/-- After the `i`-th tensor, its device's cursor stands at least the tensor's aligned
size past where the tensor was placed. -/
theorem advance_add_le (t : List (String × TensorRecord)) (D : ℕ)
    (hnonneg : ∀ k, 0 ≤ alignedSizeBytes (sizeAt t k)) {i m : ℕ} (h : i < m) :
    advance t D (i % D) i + alignedSizeBytes (sizeAt t i) ≤ advance t D (i % D) m := by
  have := advance_mono t D (i % D) hnonneg (Nat.succ_le_of_lt h)
  rwa [advance_succ, if_pos rfl] at this

/-! ### The claims about the layout -/

/-- For ranges that are mappings with a scalar device and a parseable base, `_layout_tensors`
places the `i`-th tensor of the size-sorted order (descending, a permutation of the table,
equal sizes in insertion order) on device `i mod D`, at that device's base plus the
64-byte-rounded sizes of the earlier tensors placed there. Hence tensors on one device do
not overlap, lie a multiple of 64 bytes past its base, and move strictly upwards when they
are not empty. -/
theorem layoutTensors_addresses {tensors : PyDict String TensorRecord} {platformConfig : Yaml}
    {ranges : List Yaml} {rs : List (Yaml × Int)}
    (hranges : memoryRanges platformConfig = .ok ranges)
    (hparse : List.Forall₂ (fun (rangeInfo : Yaml) (entry : Yaml × Int) =>
      rangeInfo.get "device" (.str "hbm0") = .ok entry.1 ∧ entry.1.hashable ∧
      ∃ baseStr, rangeInfo.get "base_address" (.str "0x0") = .ok baseStr ∧
        parseBaseAddress baseStr = .ok entry.2) ranges rs)
    (hsizes : ∀ e ∈ tensors.entries, 0 ≤ e.2.sizeBytes) :
    let D := (firstRanges rs).length
    let t := sortedTensors tensors
    let addr : ℕ → ℤ := fun i => baseAt (firstRanges rs) (i % D) +
      ∑ i' ∈ (range i).filter (· % D = i % D), 64 * ⌈(sizeAt t i' : ℚ) / 64⌉
    (t.Sorted (fun a b => b.2.sizeBytes ≤ a.2.sizeBytes) ∧ t.Perm tensors.entries ∧
      ∀ a b, [a, b].Sublist tensors.entries → a.2.sizeBytes = b.2.sizeBytes → [a, b].Sublist t) ∧
    ∃ addrs, layoutTensors tensors platformConfig = .ok addrs ∧
      (∀ i < t.length, addrs.get? (nameAt t i) = some (addr i)) ∧
      (∀ i i', i < i' → i' < t.length → i % D = i' % D → addr i + sizeAt t i ≤ addr i') ∧
      (∀ i < t.length, 64 ∣ addr i - baseAt (firstRanges rs) (i % D)) ∧
      (∀ i, i + D < t.length → 1 ≤ sizeAt t i → addr i < addr (i + D)) := by
  intro D t addr
  obtain ⟨devs, hdevs, hpos, hstate⟩ :=
    layoutState_eq tensors hranges (hparse.imp fun _ _ h => rangeEntry_eq_ok_iff.mpr h)
  have hP := placed_foldl hpos (nodup_sortedTensors tensors)
  have haddr : ∀ i, addr i = placedAddress (firstRanges rs) t i := fun i => by
    simp only [addr, placedAddress, advance, alignedSizeBytes_eq_ceil]
  have hnonneg : ∀ k, 0 ≤ alignedSizeBytes (sizeAt t k) :=
    fun k => alignedSizeBytes_nonneg (sizeAt_nonneg hsizes k)
  refine ⟨⟨sorted_sortedTensors tensors, List.perm_insertionSort _ _,
      fun _ _ => pair_sublist_sortedTensors⟩, _, by rw [layoutTensors, hstate]; rfl,
    fun i hi => ?_, fun i i' hii' _ hmod => ?_, fun i _ => ?_, fun i _ hsize => ?_⟩
  · rw [haddr, ← hdevs]
    exact hP.address_eq i hi
  · have := advance_add_le t D hnonneg hii'
    have := le_alignedSizeBytes (sizeAt t i)
    rw [haddr, haddr, placedAddress, placedAddress, ← hmod]
    linarith
  · rw [haddr, placedAddress, add_sub_cancel_left]
    exact dvd_advance _ _ _ _
  · have hD : 0 < D := by simp only [D]; rw [← hdevs]; exact hpos
    have := advance_add_le t D hnonneg (show i < i + D by omega)
    have := alignedSizeBytes_ge_64 hsize
    rw [haddr, haddr, placedAddress, placedAddress, Nat.add_mod_right]
    linarith

/-- Two devices: `hbm0` from `0` and `hbm1` from 1 KiB. -/
def twoDeviceRanges : List Yaml :=
  [.map [("device", .str "hbm0"), ("base_address", .str "0x0")],
    .map [("device", .str "hbm1"), ("base_address", .str "1KB")]]

/-- A platform whose first memory map has the ranges `twoDeviceRanges`. -/
def twoDevicePlatform : Yaml :=
  .map [("memory_maps", .seq [.map [("ranges", .seq twoDeviceRanges)]])]

/-- Tensors of 100, 4 and 64 bytes, inserted in this order. -/
def threeTensors : PyDict String TensorRecord :=
  ((PyDict.empty.insert "a" ⟨some [some 25], TensorProto.float, 100⟩).insert "b"
    ⟨some [some 1], TensorProto.float, 4⟩).insert "c" ⟨some [some 16], TensorProto.float, 64⟩

theorem layoutTensors_addresses_threeTensors :
    memoryRanges twoDevicePlatform = .ok twoDeviceRanges ∧
    List.Forall₂ (fun (rangeInfo : Yaml) (entry : Yaml × Int) =>
      rangeInfo.get "device" (.str "hbm0") = .ok entry.1 ∧ entry.1.hashable ∧
      ∃ baseStr, rangeInfo.get "base_address" (.str "0x0") = .ok baseStr ∧
        parseBaseAddress baseStr = .ok entry.2) twoDeviceRanges
      [(.str "hbm0", 0), (.str "hbm1", 1024)] ∧
    (∀ e ∈ threeTensors.entries, 0 ≤ e.2.sizeBytes) ∧
    let rs : List (Yaml × Int) := [(.str "hbm0", 0), (.str "hbm1", 1024)]
    let D := (firstRanges rs).length
    let t := sortedTensors threeTensors
    let addr : ℕ → ℤ := fun i => baseAt (firstRanges rs) (i % D) +
      ∑ i' ∈ (range i).filter (· % D = i % D), 64 * ⌈(sizeAt t i' : ℚ) / 64⌉
    (t.Sorted (fun a b => b.2.sizeBytes ≤ a.2.sizeBytes) ∧ t.Perm threeTensors.entries ∧
      ∀ a b, [a, b].Sublist threeTensors.entries → a.2.sizeBytes = b.2.sizeBytes →
        [a, b].Sublist t) ∧
    ∃ addrs, layoutTensors threeTensors twoDevicePlatform = .ok addrs ∧
      (∀ i < t.length, addrs.get? (nameAt t i) = some (addr i)) ∧
      (∀ i i', i < i' → i' < t.length → i % D = i' % D → addr i + sizeAt t i ≤ addr i') ∧
      (∀ i < t.length, 64 ∣ addr i - baseAt (firstRanges rs) (i % D)) ∧
      (∀ i, i + D < t.length → 1 ≤ sizeAt t i → addr i < addr (i + D)) :=
  have hranges : memoryRanges twoDevicePlatform = .ok twoDeviceRanges := rfl
  have hparse : List.Forall₂ (fun (rangeInfo : Yaml) (entry : Yaml × Int) =>
      rangeInfo.get "device" (.str "hbm0") = .ok entry.1 ∧ entry.1.hashable ∧
      ∃ baseStr, rangeInfo.get "base_address" (.str "0x0") = .ok baseStr ∧
        parseBaseAddress baseStr = .ok entry.2) twoDeviceRanges
      [(.str "hbm0", 0), (.str "hbm1", 1024)] :=
    .cons ⟨rfl, rfl, _, rfl, rfl⟩ (.cons ⟨rfl, rfl, _, rfl, rfl⟩ .nil)
  have hsizes : ∀ e ∈ threeTensors.entries, 0 ≤ e.2.sizeBytes := by decide
  ⟨hranges, hparse, hsizes, layoutTensors_addresses hranges hparse hsizes⟩

private theorem le_foldr_max : ∀ {l : List Int} {x : Int}, x ∈ l → x ≤ l.foldr max 0
  | _ :: _, _, .head _ => le_max_left _ _
  | _ :: _, _, .tail _ h => (le_foldr_max h).trans (le_max_right _ _)

private theorem foldr_max_nonneg (l : List Int) : 0 ≤ l.foldr max 0 := by
  induction l with
  | nil => exact le_rfl
  | cons _ _ ih => exact ih.trans (le_max_right _ _)

theorem sizeAt_le_max (tensors : PyDict String TensorRecord) (k : ℕ) :
    sizeAt (sortedTensors tensors) k ≤ (tensors.entries.map (·.2.sizeBytes)).foldr max 0 := by
  rw [sizeAt, List.getD_eq_getElem?_getD, List.getElem?_map]
  cases h : (sortedTensors tensors)[k]? with
  | none => exact foldr_max_nonneg _
  | some e =>
    exact le_foldr_max (List.mem_map_of_mem _
      ((List.perm_insertionSort _ _).subset (List.getElem?_mem h)))

/-- The size-descending round robin keeps the devices balanced: the total each device's
cursor advances never grows from one device to the next, and the first and last devices
differ by at most one largest tensor, rounded up to 64 bytes. -/
theorem layoutState_balanced {tensors : PyDict String TensorRecord} {platformConfig : Yaml}
    {ranges : List Yaml} {rs : List (Yaml × Int)}
    (hranges : memoryRanges platformConfig = .ok ranges)
    (hparse : List.Forall₂ (fun (rangeInfo : Yaml) (entry : Yaml × Int) =>
      rangeInfo.get "device" (.str "hbm0") = .ok entry.1 ∧ entry.1.hashable ∧
      ∃ baseStr, rangeInfo.get "base_address" (.str "0x0") = .ok baseStr ∧
        parseBaseAddress baseStr = .ok entry.2) ranges rs)
    (hsizes : ∀ e ∈ tensors.entries, 0 ≤ e.2.sizeBytes) :
    let devs := firstRanges rs
    let D := devs.length
    let t := sortedTensors tensors
    let sMax : ℤ := (tensors.entries.map (·.2.sizeBytes)).foldr max 0
    ∃ st, ∃ A : ℕ → ℤ, layoutState tensors platformConfig = .ok st ∧
      (∀ j < D, st.deviceAddresses.get? (deviceAt devs j) = some (baseAt devs j + A j)) ∧
      (∀ j < D, A j = ∑ i ∈ (range t.length).filter (· % D = j), 64 * ⌈(sizeAt t i : ℚ) / 64⌉) ∧
      (∀ j j', j ≤ j' → j' < D → A j' ≤ A j) ∧
      A 0 - A (D - 1) ≤ 64 * ⌈(sMax : ℚ) / 64⌉ := by
  intro devs D t sMax
  obtain ⟨devs', hdevs, hpos, hstate⟩ :=
    layoutState_eq tensors hranges (hparse.imp fun _ _ h => rangeEntry_eq_ok_iff.mpr h)
  have hP := placed_foldl hpos (nodup_sortedTensors tensors)
  have hD : 0 < D := by simp only [D, devs]; rw [← hdevs]; exact hpos
  set a : ℕ → ℤ := fun k => alignedSizeBytes (sizeAt t k) with ha
  have hanti : ∀ {k k'}, k ≤ k' → a k' ≤ a k :=
    fun hk => alignedSizeBytes_mono (sizeAt_antitone hsizes hk)
  refine ⟨_, fun j => advance t D j t.length, hstate, fun j hj => ?_, fun j _ => ?_,
    fun j j' hjj' hj' => ?_, ?_⟩
  · have := hP.cursor_eq j (by rw [hdevs]; exact hj)
    rwa [hdevs] at this
  · simp only [advance, alignedSizeBytes_eq_ceil]
  · beta_reduce
    rw [advance_eq_stride t (by omega : j < D), advance_eq_stride t hj']
    exact sum_le_sum fun k _ => hanti (by omega)
  · calc advance t D 0 t.length - advance t D (D - 1) t.length
        = ∑ k ∈ range t.length, (a (k * D + 0) - a (k * D + (D - 1))) := by
          rw [advance_eq_stride t hD, advance_eq_stride t (by omega), sum_sub_distrib]
      _ ≤ ∑ k ∈ range t.length, (a (k * D) - a ((k + 1) * D)) := sum_le_sum fun k _ => by
          have := hanti (show k * D + (D - 1) ≤ (k + 1) * D by rw [Nat.succ_mul]; omega)
          simp only [add_zero]
          linarith
      _ = a (0 * D) - a (t.length * D) := sum_range_sub' (fun k => a (k * D)) _
      _ ≤ a 0 := by
          have := alignedSizeBytes_nonneg (sizeAt_nonneg hsizes (t.length * D))
          simp only [zero_mul]
          linarith
      _ ≤ 64 * ⌈(sMax : ℚ) / 64⌉ := by
          rw [← alignedSizeBytes_eq_ceil]
          exact alignedSizeBytes_mono (sizeAt_le_max tensors 0)

theorem layoutState_balanced_threeTensors :
    memoryRanges twoDevicePlatform = .ok twoDeviceRanges ∧
    List.Forall₂ (fun (rangeInfo : Yaml) (entry : Yaml × Int) =>
      rangeInfo.get "device" (.str "hbm0") = .ok entry.1 ∧ entry.1.hashable ∧
      ∃ baseStr, rangeInfo.get "base_address" (.str "0x0") = .ok baseStr ∧
        parseBaseAddress baseStr = .ok entry.2) twoDeviceRanges
      [(.str "hbm0", 0), (.str "hbm1", 1024)] ∧
    (∀ e ∈ threeTensors.entries, 0 ≤ e.2.sizeBytes) ∧
    let devs : List (Yaml × Int) := firstRanges [(.str "hbm0", 0), (.str "hbm1", 1024)]
    let D := devs.length
    let t := sortedTensors threeTensors
    let sMax : ℤ := (threeTensors.entries.map (·.2.sizeBytes)).foldr max 0
    ∃ st, ∃ A : ℕ → ℤ, layoutState threeTensors twoDevicePlatform = .ok st ∧
      (∀ j < D, st.deviceAddresses.get? (deviceAt devs j) = some (baseAt devs j + A j)) ∧
      (∀ j < D, A j = ∑ i ∈ (range t.length).filter (· % D = j), 64 * ⌈(sizeAt t i : ℚ) / 64⌉) ∧
      (∀ j j', j ≤ j' → j' < D → A j' ≤ A j) ∧
      A 0 - A (D - 1) ≤ 64 * ⌈(sMax : ℚ) / 64⌉ :=
  have hranges : memoryRanges twoDevicePlatform = .ok twoDeviceRanges := rfl
  have hparse : List.Forall₂ (fun (rangeInfo : Yaml) (entry : Yaml × Int) =>
      rangeInfo.get "device" (.str "hbm0") = .ok entry.1 ∧ entry.1.hashable ∧
      ∃ baseStr, rangeInfo.get "base_address" (.str "0x0") = .ok baseStr ∧
        parseBaseAddress baseStr = .ok entry.2) twoDeviceRanges
      [(.str "hbm0", 0), (.str "hbm1", 1024)] :=
    .cons ⟨rfl, rfl, _, rfl, rfl⟩ (.cons ⟨rfl, rfl, _, rfl, rfl⟩ .nil)
  have hsizes : ∀ e ∈ threeTensors.entries, 0 ≤ e.2.sizeBytes := by decide
  ⟨hranges, hparse, hsizes, layoutState_balanced hranges hparse hsizes⟩

end Gwr
