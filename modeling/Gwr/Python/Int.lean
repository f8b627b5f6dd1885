import Mathlib.Data.List.Infix
import Mathlib.Data.Nat.Digits
import Mathlib.Data.Rat.Floor
import Mathlib.Tactic.IntervalCases
import Mathlib.Tactic.Linarith
import Gwr.Python.Yaml

/-!
# Integers written as text

The generator prints base addresses with `f'0x{base:x}'` and indices with `f"{i}"`; the
converter reads addresses and capacities back with `int(s)` and `int(s, 0)`. This module
models both directions and proves that reading undoes writing.

`int()` on a `str` works in two steps, as CPython does. First every Unicode space becomes
`' '` and every decimal digit of any script the ASCII digit of its value
(`transformDecimalAndSpaceToAscii`); then the ASCII text is parsed: surrounding ASCII
whitespace, a sign, and digits with single underscores between them; with base `0` the
prefix `0x`, `0o` or `0b` picks the base, and a decimal literal may not start with `0`
unless it is zero.

## Main definitions

* `transformDecimalAndSpaceToAscii` — the Unicode digits and spaces `int()` accepts
* `parseInt`, `parseIntBase0` — `int(s)` and `int(s, 0)` on a string

## Main results

* `readDigits_toDigits` — digits written by `Nat.toDigits` read back as their value
* `toString_injective` — distinct indices print as distinct decimal strings
* `parseIntBase0_hex` — `int(f'0x{n:x}', 0) = n` for every `n ≥ 0`
* `ceil_div_eq_fdiv` — `(s + c - 1) // c` is the ceiling of `s / c` for `c > 0`
-/

set_option autoImplicit false

namespace Gwr

/-- The value of a digit character in bases up to 36; `36` for a non-digit. -/
def charValue (c : Char) : Nat :=
  if '0' ≤ c ∧ c ≤ '9' then c.toNat - '0'.toNat
  else if 'a' ≤ c ∧ c ≤ 'z' then c.toNat - 'a'.toNat + 10
  else if 'A' ≤ c ∧ c ≤ 'Z' then c.toNat - 'A'.toNat + 10
  else 36

/-- The value of `c` as a digit of `base`, if it is one. -/
def digitValue (base : Nat) (c : Char) : Option Nat :=
  if charValue c < base then some (charValue c) else none

/-- The value of a string of digits, most significant first. -/
def digitsValue (base : Nat) (cs : List Char) : Option Nat :=
  cs.foldlM (fun acc c => (digitValue base c).map (acc * base + ·)) 0

/-- The digits rule of `int()`, on the ASCII text the transform leaves: at least one
digit, and `_` only singly between two digits. -/
def readDigits (base : Nat) (cs : List Char) : Option Nat :=
  if cs ≠ [] ∧ cs.head? ≠ some '_' ∧ cs.getLast? ≠ some '_' ∧ ¬ ['_', '_'] <:+: cs then
    digitsValue base (cs.filter (· ≠ '_'))
  else none

/-- `Py_ISSPACE`: the ASCII whitespace `PyLong_FromString` skips around a literal, that is
space, tab, line feed, vertical tab, form feed and carriage return. -/
def pyIsSpace (c : Char) : Bool := c ∈ [' ', '\t', '\n', '\x0b', '\x0c', '\r']

/-- The text `int()` parses: surrounding ASCII whitespace removed. -/
def stripWhitespace (cs : List Char) : List Char :=
  ((cs.dropWhile pyIsSpace).reverse.dropWhile pyIsSpace).reverse

/-- `Py_UNICODE_ISSPACE`, Python's `str.isspace`: the ASCII whitespace, the separators
`\x1c` to `\x1f`, and the spaces and line separators above ASCII. -/
def pyUnicodeIsSpace (c : Char) : Bool :=
  let n := c.toNat
  decide ((0x09 ≤ n ∧ n ≤ 0x0d) ∨ (0x1c ≤ n ∧ n ≤ 0x20) ∨ n = 0x85 ∨ n = 0xa0 ∨ n = 0x1680 ∨
    (0x2000 ≤ n ∧ n ≤ 0x200a) ∨ n = 0x2028 ∨ n = 0x2029 ∨ n = 0x202f ∨ n = 0x205f ∨
    n = 0x3000)

/-- The code point of the digit zero of every script with decimal digits (Unicode category
`Nd`), as of Unicode 15.0, the database of Python 3.12 and 3.13: a script's digits `0` to `9`
are the ten code points from its zero on. -/
def decimalDigitZeros : List Nat :=
  [0x30, 0x660, 0x6f0, 0x7c0, 0x966, 0x9e6, 0xa66, 0xae6, 0xb66, 0xbe6, 0xc66, 0xce6, 0xd66,
    0xde6, 0xe50, 0xed0, 0xf20, 0x1040, 0x1090, 0x17e0, 0x1810, 0x1946, 0x19d0, 0x1a80,
    0x1a90, 0x1b50, 0x1bb0, 0x1c40, 0x1c50, 0xa620, 0xa8d0, 0xa900, 0xa9d0, 0xa9f0, 0xaa50,
    0xabf0, 0xff10, 0x104a0, 0x10d30, 0x11066, 0x110f0, 0x11136, 0x111d0, 0x112f0, 0x11450,
    0x114d0, 0x11650, 0x116c0, 0x11730, 0x118e0, 0x11950, 0x11c50, 0x11d50, 0x11da0,
    0x11f50, 0x16a60, 0x16ac0, 0x16b50, 0x1d7ce, 0x1d7d8, 0x1d7e2, 0x1d7ec, 0x1d7f6,
    0x1e140, 0x1e2f0, 0x1e4f0, 0x1e950, 0x1fbf0]

/-- `Py_UNICODE_TODECIMAL`: the value of a decimal digit of any script. -/
def pyUnicodeToDecimal (c : Char) : Option Nat :=
  (decimalDigitZeros.find? fun z => z ≤ c.toNat ∧ c.toNat < z + 10).map (c.toNat - ·)

/-- `_PyUnicode_TransformDecimalAndSpaceToASCII`, the first step of `int()` on a `str`: a
character below `127` stays, a Unicode space becomes `' '`, a decimal digit of any script
becomes the ASCII digit of its value, and any other character becomes `'?'`, which no
literal contains. CPython also cuts the text after the first `'?'`; the parse fails
either way. The separators `\x1c` to `\x1f` are below `127`, so they stay, and since
`Py_ISSPACE` does not skip them, `int()` rejects them although `str.isspace` accepts them. -/
def transformDecimalAndSpaceToAscii (cs : List Char) : List Char :=
  cs.map fun c =>
    if c.toNat < 127 then c
    else if pyUnicodeIsSpace c then ' '
    else match pyUnicodeToDecimal c with
      | some d => Char.ofNat ('0'.toNat + d)
      | none => '?'

/-- An optional sign before the magnitude `body` reads. -/
def withSign (body : List Char → Option Nat) : List Char → Option Int
  | '-' :: cs => (body cs).map fun n => -(n : Int)
  | '+' :: cs => (body cs).map fun n => (n : Int)
  | cs => (body cs).map fun n => (n : Int)

/-- Digits after a base prefix, where one `_` may follow the prefix. -/
def readPrefixed (base : Nat) : List Char → Option Nat
  | '_' :: cs => readDigits base cs
  | cs => readDigits base cs

/-- The magnitude of an `int(s, 0)` literal: the prefix picks the base, and a decimal
literal starting with `0` must be zero. -/
def readBase0 : List Char → Option Nat
  | '0' :: p :: cs =>
    if p = 'x' ∨ p = 'X' then readPrefixed 16 cs
    else if p = 'o' ∨ p = 'O' then readPrefixed 8 cs
    else if p = 'b' ∨ p = 'B' then readPrefixed 2 cs
    else (readDigits 10 ('0' :: p :: cs)).filter (· = 0)
  | cs => readDigits 10 cs

/-- `int(s)` on a string: a decimal literal. -/
def parseInt (s : String) : Option Int :=
  withSign (readDigits 10) (stripWhitespace (transformDecimalAndSpaceToAscii s.toList))

/-- `int(s, 0)` on a string: a literal whose prefix gives its base. -/
def parseIntBase0 (s : String) : Option Int :=
  withSign readBase0 (stripWhitespace (transformDecimalAndSpaceToAscii s.toList))

/-- `int(s.replace("_", ""), 0)`: a prefixed literal whose digit groups may be separated by
`_`, the form the scripts accept for addresses and byte counts. -/
def parseSeparatedBase0 (s : String) : Except PyError Int :=
  let text := String.mk (s.toList.filter (· ≠ '_'))
  match parseIntBase0 text with
  | some v => .ok v
  | none => .error (.invalidIntLiteral text)

/-- `f"{n:x}"`: lower-case hexadecimal digits, with `-` before a negative value. -/
def formatHex : Int → String
  | .ofNat n => (Nat.toDigits 16 n).asString
  | .negSucc n => "-" ++ (Nat.toDigits 16 (n + 1)).asString

/-- `int(v)` on a value that is not a string. -/
def Yaml.toInt : Yaml → Except PyError Int
  | .int v => .ok v
  | .str s => match parseInt s with
    | some v => .ok v
    | none => .error (.invalidIntLiteral s)
  | .null | .seq _ | .map _ => .error .typeError

/-- Python's `(s + c - 1) // c` is the ceiling of `s / c` for a positive `c`. -/
theorem ceil_div_eq_fdiv (s c : Int) (hc : 0 < c) : ⌈(s : ℚ) / c⌉ = (s + c - 1).fdiv c := by
  rw [Int.fdiv_eq_ediv _ hc.le, Int.ceil_eq_iff]
  have hcq : (0 : ℚ) < c := by exact_mod_cast hc
  have below := Int.ediv_mul_le (s + c - 1) hc.ne'
  have above := Int.lt_ediv_add_one_mul_self (s + c - 1) hc
  constructor
  · rw [lt_div_iff₀ hcq]
    exact_mod_cast (by nlinarith : ((s + c - 1) / c - 1) * c < s)
  · rw [div_le_iff₀ hcq]
    exact_mod_cast (by nlinarith : s ≤ (s + c - 1) / c * c)

/-! ### Reading back what `Nat.toDigits` writes -/

theorem charValue_digitChar {d : Nat} (h : d < 16) : charValue (Nat.digitChar d) = d := by
  interval_cases d <;> rfl

theorem digitValue_digitChar {base d : Nat} (hd : d < base) (hbase : base ≤ 16) :
    digitValue base (Nat.digitChar d) = some d := by
  rw [digitValue, charValue_digitChar (by omega), if_pos hd]

/-- `toDigitsCore` prepends to its accumulator. -/
theorem toDigitsCore_acc (base : Nat) :
    ∀ (fuel n : Nat) (ds : List Char),
      Nat.toDigitsCore base fuel n ds = Nat.toDigitsCore base fuel n [] ++ ds
  | 0, _, _ => rfl
  | fuel + 1, n, ds => by
    simp only [Nat.toDigitsCore]
    split_ifs
    · rfl
    · rw [toDigitsCore_acc base fuel _ (_ :: ds), toDigitsCore_acc base fuel _ [_]]
      simp

/-- Every character `toDigitsCore` adds is the digit of some value below the base. -/
theorem mem_toDigitsCore {base : Nat} (hbase : 0 < base) :
    ∀ {fuel n : Nat} {ds : List Char} {c : Char}, c ∈ Nat.toDigitsCore base fuel n ds →
      c ∈ ds ∨ ∃ d < base, c = Nat.digitChar d
  | 0, _, _, _, h => .inl h
  | fuel + 1, n, ds, c, h => by
    simp only [Nat.toDigitsCore] at h
    have digit : ∀ {c}, c ∈ Nat.digitChar (n % base) :: ds → c ∈ ds ∨ ∃ d < base, c = Nat.digitChar d :=
      fun h => (List.mem_cons.mp h).elim (fun h => .inr ⟨_, Nat.mod_lt _ hbase, h⟩) .inl
    split_ifs at h
    · exact digit h
    · exact (mem_toDigitsCore hbase h).elim digit .inr

theorem toDigitsCore_ne_nil (base : Nat) (fuel n : Nat) :
    Nat.toDigitsCore base (fuel + 1) n [] ≠ [] := by
  simp only [Nat.toDigitsCore]
  split_ifs
  · simp
  · rw [toDigitsCore_acc]; simp

/-- With enough fuel, `toDigitsCore` writes digits whose value is `n`. -/
theorem digitsValue_toDigitsCore {base : Nat} (hbase : 2 ≤ base) (hbase' : base ≤ 16) :
    ∀ {fuel n : Nat}, n < fuel → digitsValue base (Nat.toDigitsCore base fuel n []) = some n
  | 0, _, h => absurd h (Nat.not_lt_zero _)
  | fuel + 1, n, h => by
    have hmod := digitValue_digitChar (Nat.mod_lt n (by omega : 0 < base)) hbase'
    simp only [Nat.toDigitsCore]
    split_ifs with hq
    · have hn : n % base = n := Nat.mod_eq_of_lt ((Nat.div_eq_zero_iff (by omega)).mp hq)
      simp [digitsValue, hn ▸ hmod, hn]
    · have hpos : 0 < n := Nat.pos_of_ne_zero fun h0 => hq (by subst h0; simp)
      have hlt : n / base < fuel := by
        have := Nat.div_lt_self hpos hbase
        omega
      have ih := digitsValue_toDigitsCore hbase hbase' hlt
      unfold digitsValue at ih ⊢
      rw [toDigitsCore_acc, List.foldlM_append, ih]
      simp [hmod, Nat.div_add_mod']

theorem mem_toDigits {base n : Nat} {c : Char} (hbase : 0 < base) (h : c ∈ Nat.toDigits base n) :
    ∃ d < base, c = Nat.digitChar d :=
  (mem_toDigitsCore hbase h).resolve_left (List.not_mem_nil _)

theorem toDigits_ne_nil (base n : Nat) : Nat.toDigits base n ≠ [] := toDigitsCore_ne_nil _ _ _

theorem digitChar_ne_underscore {d : Nat} (h : d < 16) : Nat.digitChar d ≠ '_' := by
  interval_cases d <;> decide

/-- Digits written by `Nat.toDigits` in a base up to 16 read back as their value. -/
theorem readDigits_toDigits {base : Nat} (hbase : 2 ≤ base) (hbase' : base ≤ 16) (n : Nat) :
    readDigits base (Nat.toDigits base n) = some n := by
  have hne : ∀ c ∈ Nat.toDigits base n, c ≠ '_' := fun c hc => by
    obtain ⟨d, hd, rfl⟩ := mem_toDigits (by omega) hc
    exact digitChar_ne_underscore (by omega)
  have hfilter : (Nat.toDigits base n).filter (· ≠ '_') = Nat.toDigits base n :=
    List.filter_eq_self.mpr fun c hc => by simpa using hne c hc
  have hhead : (Nat.toDigits base n).head? ≠ some '_' := fun h =>
    hne _ (List.mem_of_mem_head? h) rfl
  have hlast : (Nat.toDigits base n).getLast? ≠ some '_' := fun h =>
    hne _ (List.mem_of_getLast?_eq_some h) rfl
  have hinfix : ¬ ['_', '_'] <:+: Nat.toDigits base n := fun h =>
    hne '_' (h.subset (List.mem_cons_self _ _)) rfl
  rw [readDigits, if_pos ⟨toDigits_ne_nil base n, hhead, hlast, hinfix⟩, hfilter]
  exact digitsValue_toDigitsCore hbase hbase' (Nat.lt_succ_self n)

/-- Decimal digits of a natural number are ASCII digits. -/
theorem isDigit_of_mem_toDigits {n : Nat} {c : Char} (h : c ∈ Nat.toDigits 10 n) : c.isDigit := by
  obtain ⟨d, hd, rfl⟩ := mem_toDigits (by decide) h
  interval_cases d <;> decide

/-- Distinct numbers print as distinct decimal strings. -/
theorem toString_injective : Function.Injective (fun n : Nat => toString n) := by
  intro a b h
  have hdigits : Nat.toDigits 10 a = Nat.toDigits 10 b := by
    simpa [Nat.repr] using congrArg String.toList h
  have := congrArg (readDigits 10) hdigits
  rwa [readDigits_toDigits (by decide) (by decide),
    readDigits_toDigits (by decide) (by decide), Option.some.injEq] at this

/-! ### `int(f'0x{n:x}', 0) = n` -/

private theorem dropWhile_of_forall {p : Char → Bool} :
    ∀ {cs : List Char}, (∀ c ∈ cs, p c = false) → cs.dropWhile p = cs
  | [], _ => rfl
  | c :: _, h => by simp [List.dropWhile, h c (List.mem_cons_self _ _)]

/-- ASCII text without whitespace is parsed as it stands. -/
theorem stripWhitespace_transform_of_forall {cs : List Char}
    (h : ∀ c ∈ cs, c.toNat < 127 ∧ pyIsSpace c = false) :
    stripWhitespace (transformDecimalAndSpaceToAscii cs) = cs := by
  have hascii : transformDecimalAndSpaceToAscii cs = cs := by
    rw [transformDecimalAndSpaceToAscii, List.map_congr_left fun c hc => if_pos (h c hc).1,
      List.map_id']
  rw [hascii, stripWhitespace, dropWhile_of_forall fun c hc => (h c hc).2,
    dropWhile_of_forall (by simpa using fun c hc => (h c hc).2), List.reverse_reverse]

/-- The hexadecimal digits are ASCII characters other than whitespace. -/
theorem digitChar_ascii {d : Nat} (h : d < 16) :
    (Nat.digitChar d).toNat < 127 ∧ pyIsSpace (Nat.digitChar d) = false := by
  interval_cases d <;> decide

theorem readPrefixed_of_head {base : Nat} {cs : List Char} (h : cs.head? ≠ some '_') :
    readPrefixed base cs = readDigits base cs := by
  match cs, h with
  | [], _ => rfl
  | c :: cs, h =>
    have hc : c ≠ '_' := fun hc => h (by rw [hc]; rfl)
    simp [readPrefixed, hc]

/-- The converter's `int(s, 0)` reads back what `f'0x{n:x}'` writes, for every `n ≥ 0`. -/
theorem parseIntBase0_hex (n : Nat) : parseIntBase0 ("0x" ++ formatHex n) = some n := by
  have hdigit : ∀ c ∈ Nat.toDigits 16 n, ∃ d < 16, c = Nat.digitChar d :=
    fun c hc => mem_toDigits (by decide) hc
  have hspace : ∀ c ∈ '0' :: 'x' :: Nat.toDigits 16 n, c.toNat < 127 ∧ pyIsSpace c = false := by
    intro c hc
    rcases List.mem_cons.mp hc with rfl | hc
    · decide
    rcases List.mem_cons.mp hc with rfl | hc
    · decide
    obtain ⟨d, hd, rfl⟩ := hdigit c hc
    exact digitChar_ascii hd
  have hhead : (Nat.toDigits 16 n).head? ≠ some '_' := fun h => by
    obtain ⟨d, hd, hc⟩ := hdigit _ (List.mem_of_mem_head? h)
    exact digitChar_ne_underscore hd hc.symm
  have htext : ("0x" ++ formatHex n).toList = '0' :: 'x' :: Nat.toDigits 16 n := by
    simp [formatHex, List.asString]
  rw [parseIntBase0, htext, stripWhitespace_transform_of_forall hspace]
  simp [withSign, readBase0, readPrefixed_of_head hhead,
    readDigits_toDigits (by decide : 2 ≤ 16) le_rfl]

end Gwr
