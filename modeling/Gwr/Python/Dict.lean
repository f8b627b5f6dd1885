import Mathlib.Data.List.Nodup

/-!
# Insertion-ordered dictionaries

Both scripts keep their tables in Python `dict`s and rely on two properties of them:
keys come back in order of first insertion, and assigning to a key that is already
present replaces its value in place, without moving it. The allocator's tie-breaks and
the device list both depend on that order.

`PyDict` is that dictionary: a list of entries in insertion order whose keys carry
their uniqueness as a field, so no dictionary with a repeated key can be built.

## Main definitions

* `PyDict.get?` — `d.get(k)`
* `PyDict.insert` — `d[k] = v`

## Main results

* `get?_eq_some_iff` — a lookup returns exactly the stored entry
* `mem_entries_insert` — what an assignment stores
* `keys_insert` — an assignment to a present key keeps the key order, a new key goes last
* `keys_foldl`, `get?_foldl_insert` — after a run of assignments the keys are the assigned
  ones in order of first assignment (`List.eraseDups`), and each key holds its last value
-/

set_option autoImplicit false

namespace Gwr

/-- A Python `dict`: its entries in insertion order, each key at most once. -/
structure PyDict (κ ν : Type) where
  entries : List (κ × ν)
  nodup_keys : (entries.map Prod.fst).Nodup

namespace PyDict

variable {κ ν : Type}

/-- The dictionary `{}`. -/
def empty : PyDict κ ν := ⟨[], List.nodup_nil⟩

/-- `d.keys()`, in insertion order. -/
def keys (d : PyDict κ ν) : List κ := d.entries.map Prod.fst

@[simp] theorem keys_empty : (empty : PyDict κ ν).keys = [] := rfl

variable [DecidableEq κ] {d : PyDict κ ν} {k k' : κ} {v w : ν}

/-- `d.get(k)`: the value stored under `k`, if any. -/
def get? (d : PyDict κ ν) (k : κ) : Option ν := (d.entries.find? (·.1 = k)).map Prod.snd

/-- `d[k] = v`: replace the value of a present key in place, or append a new key. -/
def insert (d : PyDict κ ν) (k : κ) (v : ν) : PyDict κ ν :=
  if h : k ∈ d.keys then
    ⟨d.entries.map (fun e => if e.1 = k then (k, v) else e), by
      have keep : (d.entries.map fun e => if e.1 = k then (k, v) else e).map Prod.fst =
          d.keys := by
        simp only [keys, List.map_map]
        exact List.map_congr_left fun e _ => by by_cases he : e.1 = k <;> simp [he]
      exact keep ▸ d.nodup_keys⟩
  else
    ⟨d.entries ++ [(k, v)], by
      rw [List.map_append]
      refine List.nodup_append.mpr ⟨d.nodup_keys, List.nodup_singleton k, ?_⟩
      simpa [keys] using h⟩

@[simp] theorem get?_empty : (empty : PyDict κ ν).get? k = none := rfl

private theorem find?_eq_some_iff :
    ∀ {es : List (κ × ν)}, (es.map Prod.fst).Nodup →
      ((es.find? (·.1 = k)).map Prod.snd = some v ↔ (k, v) ∈ es)
  | [], _ => by simp
  | (k'', v'') :: es, nodup => by
    simp only [List.map_cons, List.nodup_cons, List.mem_map] at nodup
    by_cases hk : k'' = k
    · subst hk
      have : ∀ w, (k'', w) ∉ es := fun w hw => nodup.1 ⟨_, hw, rfl⟩
      simp [List.find?_cons, this, eq_comm]
    · simp [List.find?_cons, hk, find?_eq_some_iff nodup.2, Ne.symm hk]

/-- A lookup returns exactly the entry stored under its key. -/
theorem get?_eq_some_iff : d.get? k = some v ↔ (k, v) ∈ d.entries :=
  find?_eq_some_iff d.nodup_keys

theorem get?_eq_none_iff : d.get? k = none ↔ k ∉ d.keys := by
  simp only [get?, keys, Option.map_eq_none', List.find?_eq_none, decide_eq_true_eq,
    List.mem_map, not_exists, not_and]

theorem mem_keys_iff_exists_get? : k ∈ d.keys ↔ ∃ v, d.get? k = some v := by
  simp only [get?_eq_some_iff, keys, List.mem_map]
  exact ⟨fun ⟨e, he, hk⟩ => ⟨e.2, hk ▸ he⟩, fun ⟨v, hv⟩ => ⟨_, hv, rfl⟩⟩

/-- What an assignment stores: the new entry, and every other key's entry unchanged. -/
theorem mem_entries_insert :
    (k', w) ∈ (d.insert k v).entries ↔ (k' = k ∧ w = v) ∨ (k' ≠ k ∧ (k', w) ∈ d.entries) := by
  unfold insert
  split_ifs with h
  · simp only [List.mem_map]
    constructor
    · rintro ⟨e, he, hew⟩
      by_cases hek : e.1 = k
      · simp only [hek, if_true, Prod.mk.injEq] at hew
        exact .inl ⟨hew.1.symm, hew.2.symm⟩
      · simp only [hek, if_false] at hew
        subst hew
        exact .inr ⟨hek, he⟩
    · rintro (⟨rfl, rfl⟩ | ⟨hk, hmem⟩)
      · obtain ⟨e, he, rfl⟩ := List.mem_map.mp h
        exact ⟨e, he, by simp⟩
      · exact ⟨_, hmem, by simp [hk]⟩
  · have hk : ∀ w, (k, w) ∉ d.entries := fun w hw => h (List.mem_map.mpr ⟨_, hw, rfl⟩)
    simp only [List.mem_append, List.mem_singleton, Prod.mk.injEq]
    by_cases hk' : k' = k
    · subst hk'; simp [hk]
    · simp [hk']

@[simp] theorem get?_insert : (d.insert k v).get? k' = if k' = k then some v else d.get? k' := by
  apply Option.ext
  intro w
  rw [Option.mem_def, get?_eq_some_iff, mem_entries_insert]
  split_ifs with hk
  · simp [hk, eq_comm]
  · simp [hk, get?_eq_some_iff]

theorem keys_insert :
    (d.insert k v).keys = if k ∈ d.keys then d.keys else d.keys ++ [k] := by
  unfold insert
  split_ifs with h
  · simp only [keys, List.map_map]
    exact List.map_congr_left fun e _ => by by_cases he : e.1 = k <;> simp [he]
  · simp [keys]

theorem entries_insert_of_not_mem (h : k ∉ d.keys) :
    (d.insert k v).entries = d.entries ++ [(k, v)] := by
  simp [insert, h]

theorem mem_keys_insert : k' ∈ (d.insert k v).keys ↔ k' = k ∨ k' ∈ d.keys := by
  rw [keys_insert]
  split_ifs with h
  · exact ⟨Or.inr, fun h' => h'.elim (· ▸ h) id⟩
  · simp [or_comm]

/-- Assignments of values with a property keep it of every entry. -/
theorem forall_insert {P : ν → Prop} (h : ∀ e ∈ d.entries, P e.2) (hv : P v) :
    ∀ e ∈ (d.insert k v).entries, P e.2 := by
  rintro ⟨k', w⟩ he
  rcases mem_entries_insert.mp he with ⟨-, rfl⟩ | ⟨-, he⟩
  · exact hv
  · exact h _ he

end PyDict

/-! ### Key order after a run of assignments

`List.eraseDups` keeps the first occurrence of each item: it is the key list of a
dictionary filled by assignments to the keys of a list, in order. -/

section EraseDups

variable {α : Type} [DecidableEq α]

theorem eraseDups_loop_append_singleton (a : α) :
    ∀ (l bs : List α), List.eraseDups.loop (l ++ [a]) bs =
      if a ∈ l ∨ a ∈ bs then List.eraseDups.loop l bs else List.eraseDups.loop l bs ++ [a]
  | [], bs => by
    by_cases h : a ∈ bs <;> simp [List.eraseDups.loop, h]
  | c :: l, bs => by
    by_cases hc : c ∈ bs
    · have hmem : (a ∈ c :: l ∨ a ∈ bs) ↔ (a ∈ l ∨ a ∈ bs) := by
        by_cases hac : a = c
        · subst hac; simp [hc]
        · simp [hac]
      simp only [List.cons_append, List.append_eq, List.eraseDups.loop, List.elem_eq_mem, hc,
        decide_True, hmem, eraseDups_loop_append_singleton a l bs]
    · simp only [List.cons_append, List.append_eq, List.eraseDups.loop, List.elem_eq_mem, hc,
        decide_False, eraseDups_loop_append_singleton a l (c :: bs), List.mem_cons, or_assoc,
        @or_left_comm (a ∈ l)]

/-- A new last item survives exactly when it does not occur before. -/
theorem eraseDups_append_singleton (l : List α) (a : α) :
    (l ++ [a]).eraseDups = if a ∈ l then l.eraseDups else l.eraseDups ++ [a] := by
  simp [List.eraseDups, eraseDups_loop_append_singleton]

theorem mem_eraseDups {a : α} (l : List α) : a ∈ l.eraseDups ↔ a ∈ l := by
  induction l using List.reverseRecOn with
  | nil => rfl
  | append_singleton l c ih =>
    rw [eraseDups_append_singleton]
    split_ifs with h
    · simp only [ih, List.mem_append, List.mem_singleton]
      exact ⟨Or.inl, fun h' => h'.elim id (· ▸ h)⟩
    · simp [ih]

end EraseDups

namespace PyDict

variable {κ ν α : Type} [DecidableEq κ] (f : PyDict κ ν → α → PyDict κ ν)

/-- A run of steps, each assigning to the key of its item when the item passes `p` and
otherwise leaving the dictionary alone, lists the keys in order of first assignment. -/
theorem keys_foldl (key : α → κ) (p : α → Bool)
    (hf : ∀ d x, (f d x).keys =
      if p x then (if key x ∈ d.keys then d.keys else d.keys ++ [key x]) else d.keys)
    {pre : List κ} {d : PyDict κ ν} (hd : d.keys = pre.eraseDups) (l : List α) :
    (l.foldl f d).keys = (pre ++ (l.filter p).map key).eraseDups := by
  induction l using List.reverseRecOn with
  | nil => simpa using hd
  | append_singleton l x ih =>
    rw [List.foldl_append, List.foldl_cons, List.foldl_nil, hf, ih, List.filter_append]
    by_cases hx : p x
    · simp only [hx, if_true, List.filter_cons, List.filter_nil, List.map_append, List.map_cons,
        List.map_nil, ← List.append_assoc, eraseDups_append_singleton, mem_eraseDups]
    · simp [hx]

/-- After a run of assignments, a lookup finds the last assignment to its key, or else
what the dictionary held before. -/
theorem get?_foldl_insert (key : α → κ) (val : α → ν)
    (hf : ∀ d x, f d x = d.insert (key x) (val x)) (k : κ) :
    ∀ (l : List α) (d : PyDict κ ν),
      (l.foldl f d).get? k = ((l.reverse.find? (key · = k)).map val).or (d.get? k)
  | [], d => by simp
  | x :: l, d => by
    rw [List.foldl_cons, get?_foldl_insert key val hf k l, hf, List.reverse_cons,
      List.find?_append]
    cases l.reverse.find? (key · = k) with
    | some y => rfl
    | none =>
      by_cases hx : key x = k
      · simp [hx]
      · simp [hx, Ne.symm hx]

end PyDict

end Gwr
