import Mathlib.Data.List.Forall2

/-!
# YAML documents as the converter reads them

`yaml.safe_load` turns the platform file into nested Python values, and the converter
reads them with `.get`, `[...]`, `for` and truthiness tests, each of which raises when
the value has the wrong shape. `Yaml` is that value: `null`, integers, strings,
sequences and mappings with string keys, in document order.

Booleans and floats are not modelled, so Python's identification of `True` with `1`
never arises and structural equality is Python's `==` on every value here. Neither script
writes them; a hand-written platform whose `sram_bytes`, `base_address` or device is one is
outside the model (`int()` would read `True` as `1` and truncate a float).

## Main definitions

* `PyError` — the exceptions the modelled code can raise
* `Yaml.get`, `Yaml.getItem`, `Yaml.first`, `Yaml.iter` — `.get`, `[key]`, `[0]`, `for`
* `Yaml.truthy` — Python truthiness
-/

set_option autoImplicit false

namespace Gwr

/-- An exception raised by the modelled code. `valueError` carries the message of the
scripts' own `raise ValueError(...)`; the others are raised by Python itself. -/
inductive PyError where
  | valueError (msg : String)
  /-- `ValueError` raised by `int()` on a string that is not an integer literal. -/
  | invalidIntLiteral (text : String)
  | keyError (key : String)
  | typeError
  | attributeError
  | indexError
  | zeroDivisionError
  deriving Repr, DecidableEq

/-! ### Code that may raise

A modelled function returns `Except PyError`. A `do` block is a chain of binds, and these
lemmas take a successful run apart into the successful runs of its parts. -/

namespace Except

variable {ε α β : Type}

@[simp] theorem bind_eq_ok {x : Except ε α} {f : α → Except ε β} {b : β} :
    x >>= f = .ok b ↔ ∃ a, x = .ok a ∧ f a = .ok b := by
  cases x <;> simp [bind, Except.bind]

@[simp] theorem pure_eq_ok {a b : α} : (pure a : Except ε α) = .ok b ↔ a = b := by
  simp [pure, Except.pure]

@[simp] theorem throw_ne_ok {e : ε} {b : α} : (throw e : Except ε α) ≠ .ok b := by
  simp [throw, throwThe, MonadExceptOf.throw, Except.error.injEq]

/-- A loop that collects one result per item returns exactly when every item's run does. -/
theorem mapM_eq_ok_iff {f : α → Except ε β} :
    ∀ {l : List α} {ys : List β}, l.mapM f = .ok ys ↔ List.Forall₂ (fun x y => f x = .ok y) l ys
  | [], ys => by
    cases ys <;> simp only [List.mapM_nil, List.forall₂_nil_left_iff] <;> simp [pure, Except.pure]
  | x :: l, ys => by
    have ih : ∀ zs, l.mapM f = .ok zs ↔ List.Forall₂ (fun x y => f x = .ok y) l zs :=
      fun _ => mapM_eq_ok_iff
    rw [List.mapM_cons]
    cases ys with
    | nil => cases f x <;> cases l.mapM f <;> simp [bind, Except.bind, pure, Except.pure]
    | cons y ys =>
      rw [List.forall₂_cons, ← ih]
      cases f x <;> cases l.mapM f <;> simp [bind, Except.bind, pure, Except.pure]

end Except

/-! ### Lists matched item by item

A loop that collects one result per item pairs each item of a list with what it produces
for it, as a `List.Forall₂`; these facts move between such a pairing and its items. -/

section Forall₂

variable {α β : Type} {R : α → β → Prop}

/-- An item has a partner, in a pairing of two lists. -/
theorem exists_of_forall₂_left : ∀ {l : List α} {bs : List β}, List.Forall₂ R l bs →
    ∀ a ∈ l, ∃ b ∈ bs, R a b
  | _, _, .nil, _, ha => absurd ha (List.not_mem_nil _)
  | _, _, .cons hab h, a, ha => by
    rcases List.mem_cons.mp ha with rfl | ha
    · exact ⟨_, List.mem_cons_self _ _, hab⟩
    · obtain ⟨b, hb, hab'⟩ := exists_of_forall₂_left h a ha
      exact ⟨b, List.mem_cons_of_mem _ hb, hab'⟩

/-- A partner has an item, in a pairing of two lists. -/
theorem exists_of_forall₂_right {l : List α} {bs : List β} (h : List.Forall₂ R l bs) :
    ∀ b ∈ bs, ∃ a ∈ l, R a b :=
  exists_of_forall₂_left (List.Forall₂.flip (R := flip R) h)

/-- Items that each have a partner have a list of partners. -/
theorem exists_forall₂_of_forall : ∀ {l : List α}, (∀ a ∈ l, ∃ b, R a b) →
    ∃ bs, List.Forall₂ R l bs
  | [], _ => ⟨[], .nil⟩
  | a :: l, h => by
    obtain ⟨b, hb⟩ := h a (List.mem_cons_self a l)
    obtain ⟨bs, hbs⟩ := exists_forall₂_of_forall fun x hx => h x (List.mem_cons_of_mem a hx)
    exact ⟨b :: bs, .cons hb hbs⟩

end Forall₂

/-- A loop that collects one result per item succeeds exactly when each item's run does. -/
theorem Except.mapM_ok_iff {α β ε : Type} {f : α → Except ε β} {l : List α} :
    (∃ ys, l.mapM f = .ok ys) ↔ ∀ x ∈ l, ∃ y, f x = .ok y := by
  simp only [Except.mapM_eq_ok_iff]
  exact ⟨fun ⟨_, h⟩ x hx => (exists_of_forall₂_left h x hx).imp fun _ => And.right,
    exists_forall₂_of_forall⟩

/-- `xs[i]` for a non-negative index. -/
def pyIndex {α : Type} (xs : List α) (i : Nat) : Except PyError α :=
  match xs[i]? with
  | some x => .ok x
  | none => .error .indexError

@[simp] theorem pyIndex_eq_ok {α : Type} {xs : List α} {i : Nat} {x : α} :
    pyIndex xs i = .ok x ↔ xs[i]? = some x := by
  unfold pyIndex; split <;> rename_i h <;> simp [h]

/-- A value `yaml.safe_load` can return. -/
inductive Yaml where
  | null
  | int (value : Int)
  | str (value : String)
  | seq (items : List Yaml)
  | map (entries : List (String × Yaml))
  deriving Repr, Inhabited

namespace Yaml

mutual
/-- Structural equality, Python's `==` on these values. -/
def beq : Yaml → Yaml → Bool
  | .null, .null => true
  | .int a, .int b => a == b
  | .str a, .str b => a == b
  | .seq xs, .seq ys => beqItems xs ys
  | .map xs, .map ys => beqEntries xs ys
  | _, _ => false
/-- `beq` on sequences. -/
def beqItems : List Yaml → List Yaml → Bool
  | [], [] => true
  | x :: xs, y :: ys => beq x y && beqItems xs ys
  | _, _ => false
/-- `beq` on mappings. -/
def beqEntries : List (String × Yaml) → List (String × Yaml) → Bool
  | [], [] => true
  | (k, x) :: xs, (k', y) :: ys => k == k' && beq x y && beqEntries xs ys
  | _, _ => false
end

mutual
theorem eq_of_beq : ∀ {a b : Yaml}, beq a b = true → a = b
  | .null, .null, _ => rfl
  | .int _, .int _, h => congrArg Yaml.int (beq_iff_eq.mp h)
  | .str _, .str _, h => congrArg Yaml.str (beq_iff_eq.mp h)
  | .seq _, .seq _, h => congrArg Yaml.seq (eq_of_beqItems h)
  | .map _, .map _, h => congrArg Yaml.map (eq_of_beqEntries h)
  | .null, .int _, h | .null, .str _, h | .null, .seq _, h | .null, .map _, h
  | .int _, .null, h | .int _, .str _, h | .int _, .seq _, h | .int _, .map _, h
  | .str _, .null, h | .str _, .int _, h | .str _, .seq _, h | .str _, .map _, h
  | .seq _, .null, h | .seq _, .int _, h | .seq _, .str _, h | .seq _, .map _, h
  | .map _, .null, h | .map _, .int _, h | .map _, .str _, h | .map _, .seq _, h =>
    Bool.noConfusion h
theorem eq_of_beqItems : ∀ {xs ys : List Yaml}, beqItems xs ys = true → xs = ys
  | [], [], _ => rfl
  | x :: xs, y :: ys, h => by
    have h : (beq x y && beqItems xs ys) = true := h
    rw [Bool.and_eq_true] at h
    rw [eq_of_beq h.1, eq_of_beqItems h.2]
  | [], _ :: _, h | _ :: _, [], h => Bool.noConfusion h
theorem eq_of_beqEntries : ∀ {xs ys : List (String × Yaml)}, beqEntries xs ys = true → xs = ys
  | [], [], _ => rfl
  | (k, x) :: xs, (k', y) :: ys, h => by
    have h : (k == k' && beq x y && beqEntries xs ys) = true := h
    simp only [Bool.and_eq_true, beq_iff_eq] at h
    rw [h.1.1, eq_of_beq h.1.2, eq_of_beqEntries h.2]
  | [], _ :: _, h | _ :: _, [], h => Bool.noConfusion h
end

mutual
theorem beq_self : ∀ a : Yaml, beq a a = true
  | .null => rfl
  | .int a => beq_self_eq_true a
  | .str a => beq_self_eq_true a
  | .seq xs => beqItems_self xs
  | .map xs => beqEntries_self xs
theorem beqItems_self : ∀ xs : List Yaml, beqItems xs xs = true
  | [] => rfl
  | x :: xs => (Bool.and_eq_true _ _).mpr ⟨beq_self x, beqItems_self xs⟩
theorem beqEntries_self : ∀ xs : List (String × Yaml), beqEntries xs xs = true
  | [] => rfl
  | (k, x) :: xs =>
    (Bool.and_eq_true _ _).mpr ⟨(Bool.and_eq_true _ _).mpr ⟨beq_self_eq_true k, beq_self x⟩,
      beqEntries_self xs⟩
end

instance : DecidableEq Yaml := fun a b =>
  decidable_of_iff (beq a b = true) ⟨eq_of_beq, fun h => h ▸ beq_self a⟩

/-- Python truthiness: `None`, `0`, `""`, `[]` and `{}` are false. -/
def truthy : Yaml → Bool
  | .null => false
  | .int v => v ≠ 0
  | .str s => s ≠ ""
  | .seq xs => xs ≠ []
  | .map es => es ≠ []

/-- The value stored under `key` in a mapping's entries, if any. -/
def lookup (entries : List (String × Yaml)) (key : String) : Option Yaml :=
  (entries.find? (·.1 = key)).map Prod.snd

/-- `v.get(key, default)`: only a mapping has `.get`. -/
def get (v : Yaml) (key : String) (default : Yaml := .null) : Except PyError Yaml :=
  match v with
  | .map es => .ok ((lookup es key).getD default)
  | _ => .error .attributeError

/-- `v[key]` with a string key. -/
def getItem (v : Yaml) (key : String) : Except PyError Yaml :=
  match v with
  | .map es => match lookup es key with
    | some x => .ok x
    | none => .error (.keyError key)
  | .null | .int _ | .str _ | .seq _ => .error .typeError

/-- `v[0]`. A mapping's keys are strings, so the integer key `0` is never one of them. -/
def first (v : Yaml) : Except PyError Yaml :=
  match v with
  | .seq (x :: _) => .ok x
  | .str s => match s.toList with
    | c :: _ => .ok (.str (String.singleton c))
    | [] => .error .indexError
  | .seq [] => .error .indexError
  | .map _ => .error (.keyError "0")
  | .null | .int _ => .error .typeError

/-- `for x in v`: a sequence yields its items, a mapping its keys, a string its
characters. -/
def iter (v : Yaml) : Except PyError (List Yaml) :=
  match v with
  | .seq xs => .ok xs
  | .map es => .ok (es.map fun e => .str e.1)
  | .str s => .ok (s.toList.map fun c => .str (String.singleton c))
  | .null | .int _ => .error .typeError

/-- Only scalars can be dictionary keys: sequences and mappings are unhashable. -/
def hashable : Yaml → Bool
  | .null | .int _ | .str _ => true
  | .seq _ | .map _ => false

/-- A truthy value iterates over at least one item. -/
theorem iter_ne_nil {v : Yaml} {xs : List Yaml} (hv : v.truthy = true) (h : v.iter = .ok xs) :
    xs ≠ [] := by
  cases v with
  | seq items => cases h; simpa [truthy] using hv
  | map es => cases h; simpa [truthy] using hv
  | str s =>
    cases h
    have : s.toList ≠ [] := fun hs => by simp [truthy, String.ext_iff] at hv; exact hv hs
    simpa using this
  | null => cases h
  | int _ => cases h

@[simp] theorem get_map (es : List (String × Yaml)) (key : String) (default : Yaml) :
    (Yaml.map es).get key default = .ok ((lookup es key).getD default) := rfl

@[simp] theorem iter_seq (xs : List Yaml) : (Yaml.seq xs).iter = .ok xs := rfl

@[simp] theorem first_seq_cons (x : Yaml) (xs : List Yaml) : (Yaml.seq (x :: xs)).first = .ok x :=
  rfl

end Yaml

end Gwr
