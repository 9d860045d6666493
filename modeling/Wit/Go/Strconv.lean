import Wit.Go.Strings
import Mathlib.Data.Nat.Digits

/-!
# Go — strconv and fmt: decimal integers

`strconv.ParseInt(s, 10, 64)` reads each number of a semver triple and `fmt`'s `%d` prints it
back.  The parser is `strconv`'s digit loop with its overflow checks: `parseUintLoop` refuses
to multiply an accumulator of `cutoff` or more, and its `uint64` addition wraps (`% 2 ^ 64`).

* `parseUint_eq_ok_iff`: `ParseUint` accepts exactly the non-empty strings of decimal digits
  whose value (`decimal`) is below `2⁶⁴`, and returns that value.
* `parseInt_eq_ok_iff`, `parseInt_unsigned_iff`: `ParseInt` by cases on its sign, and without
  one.
* `decimal_formatNat`: what `%d` prints of `n` is a string of digits worth `n`.
-/

namespace Wit.Go

/-- Results compare by value, so that a run of the model on a given input can be decided. -/
instance decEqExcept {ε α : Type} [DecidableEq ε] [DecidableEq α] : DecidableEq (Except ε α)
  | .ok a,    .ok b    => decidable_of_iff (a = b) ⟨congrArg _, Except.ok.inj⟩
  | .error a, .error b => decidable_of_iff (a = b) ⟨congrArg _, Except.error.inj⟩
  | .ok _,    .error _ => isFalse nofun
  | .error _, .ok _    => isFalse nofun

@[simp] theorem Except.bind_eq_ok_iff {ε α β : Type} {x : Except ε α} {f : α → Except ε β}
    {b : β} : x >>= f = .ok b ↔ ∃ a, x = .ok a ∧ f a = .ok b := by
  cases x <;> simp [bind, Except.bind]

@[simp] theorem Except.mapError_eq_ok_iff {ε ε' α : Type} {x : Except ε α} {f : ε → ε'}
    {a : α} : x.mapError f = .ok a ↔ x = .ok a := by
  cases x <;> simp [Except.mapError]

/-- The cause of a `*strconv.NumError`: `ErrSyntax` ("invalid syntax") or `ErrRange`
("value out of range"). -/
inductive NumErrorKind
  | invalid
  | range
  deriving DecidableEq, Repr

/-- A `*strconv.NumError` of `ParseInt`: its `Func` is always `"ParseInt"` and its `Num` the
whole input. -/
structure NumError where
  num : GoString
  err : NumErrorKind
  deriving DecidableEq, Repr

/-- `'0' ≤ c ≤ '9'`. -/
def IsDigit (c : UInt8) : Prop := '0'.toNat ≤ c.toNat ∧ c.toNat ≤ '9'.toNat

instance : DecidablePred IsDigit := fun _ => inferInstanceAs (Decidable (_ ∧ _))

/-- `strconv`'s `lower`: `c | ('x' - 'X')`, the lower case of an ASCII letter. -/
def lower (c : UInt8) : Nat := c.toNat ||| ('x'.toNat - 'X'.toNat)

/-- The digit `ParseUint` reads a byte as before it compares it with the base: `'0'`–`'9'`
are `0`–`9`, letters of either case are `10`–`35`, and any other byte is a syntax error. -/
def digitVal (c : UInt8) : Option Nat :=
  if IsDigit c then some (c.toNat - '0'.toNat)
  else if 'a'.toNat ≤ lower c ∧ lower c ≤ 'z'.toNat then some (lower c - 'a'.toNat + 10)
  else none

/-- `maxUint64 / 10 + 1`, the least accumulator whose product by `10` overflows a `uint64`. -/
def cutoff : Nat := (2 ^ 64 - 1) / 10 + 1

/-- `1<<64 - 1`, the largest value of a 64-bit `ParseUint`. -/
def maxVal : Nat := 2 ^ 64 - 1

/-- `ParseUint`'s loop over the bytes of `s`, from the accumulator `n`, in base 10.  The
product `n * 10` cannot overflow below `cutoff`; the sum wraps as a `uint64` does. -/
def parseUintLoop : Nat → GoString → Except NumErrorKind Nat
  | n, []     => .ok n
  | n, c :: s =>
    match digitVal c with
    | none   => .error .invalid
    | some d =>
      if 10 ≤ d then .error .invalid
      else if cutoff ≤ n then .error .range
      else if (n * 10 + d) % 2 ^ 64 < n * 10 ∨ maxVal < (n * 10 + d) % 2 ^ 64 then .error .range
      else parseUintLoop ((n * 10 + d) % 2 ^ 64) s

/-- `strconv.ParseUint(s, 10, 64)`, with the cause of its error. -/
def parseUint (s : GoString) : Except NumErrorKind Nat :=
  if s = [] then .error .invalid else parseUintLoop 0 s

/-- `strconv.ParseInt(s, 10, 64)`: an optional sign, then `ParseUint`'s digits, in the range of
an `int64`.  After a range error of `ParseUint` the magnitude is `maxVal`, as in Go.  The value
Go returns beside an error is left out: the only caller discards it. -/
def parseInt (s : GoString) : Except NumError Int :=
  match s with
  | []     => .error ⟨s, .invalid⟩
  | c :: t =>
    let neg : Bool := c = '-'.toUInt8
    match parseUint (if c = '+'.toUInt8 ∨ neg then t else s) with
    | .error .invalid => .error ⟨s, .invalid⟩
    | r =>
      let un : Nat := match r with
        | .ok u    => u
        | .error _ => maxVal
      if !neg ∧ 2 ^ 63 ≤ un then .error ⟨s, .range⟩
      else if neg ∧ 2 ^ 63 < un then .error ⟨s, .range⟩
      else .ok (if neg then -(un : Int) else un)

/-- `fmt`'s `%d` of a natural number: its decimal digits, most significant first; `"0"` for
zero. -/
def formatNat (n : Nat) : GoString :=
  if n = 0 then ['0'.toUInt8]
  else (Nat.digits 10 n).reverse.map fun d => UInt8.ofNat ('0'.toNat + d)

/-- `fmt`'s `%d` of an `int64`. -/
def formatInt (n : Int) : GoString :=
  if n < 0 then '-'.toUInt8 :: formatNat n.natAbs else formatNat n.toNat

/-- The number a string of decimal digits denotes, read from the accumulator `n` as
`ParseUint` reads it. -/
def decimal (n : Nat) (s : GoString) : Nat :=
  s.foldl (fun n c => n * 10 + (c.toNat - '0'.toNat)) n

/-! ### Digits -/

theorem digitVal_of_isDigit {c : UInt8} (h : IsDigit c) :
    digitVal c = some (c.toNat - '0'.toNat) := if_pos h

/-- A byte that is not a decimal digit reads as no digit below ten. -/
theorem digitVal_of_not_isDigit {c : UInt8} (h : ¬IsDigit c) {d : Nat}
    (hd : digitVal c = some d) : 10 ≤ d := by
  unfold digitVal at hd
  rw [if_neg h] at hd
  split at hd
  · cases hd; omega
  · cases hd

theorem le_decimal (n : Nat) (s : GoString) : n ≤ decimal n s := by
  induction s generalizing n with
  | nil => exact le_rfl
  | cons c s ih => exact (show n ≤ n * 10 + (c.toNat - '0'.toNat) by omega).trans (ih _)

@[simp] theorem decimal_nil (n : Nat) : decimal n [] = n := rfl

@[simp] theorem decimal_cons (n : Nat) (c : UInt8) (s : GoString) :
    decimal n (c :: s) = decimal (n * 10 + (c.toNat - '0'.toNat)) s := rfl

/-! ### `ParseUint` -/

/-- One turn of the digit loop: on a digit, the two overflow checks together fail exactly
when the next accumulator would not fit in 64 bits. -/
theorem parseUintLoop_digit {n : Nat} {c : UInt8} {s : GoString} (hc : IsDigit c) :
    parseUintLoop n (c :: s) =
      if n * 10 + (c.toNat - '0'.toNat) < 2 ^ 64 then
        parseUintLoop (n * 10 + (c.toNat - '0'.toNat)) s
      else .error .range := by
  have hd : c.toNat - '0'.toNat < 10 := by simp only [IsDigit] at hc; simp at hc ⊢; omega
  simp only [parseUintLoop, digitVal_of_isDigit hc, if_neg (Nat.not_le.mpr hd), cutoff, maxVal]
  split_ifs <;> first | rfl | omega | (rw [Nat.mod_eq_of_lt (by omega)])

theorem parseUintLoop_not_digit {n : Nat} {c : UInt8} {s : GoString} (hc : ¬IsDigit c) :
    parseUintLoop n (c :: s) = .error .invalid := by
  unfold parseUintLoop
  split
  · rfl
  · rename_i d hd
    rw [if_pos (digitVal_of_not_isDigit hc hd)]

/-- From an accumulator below `2⁶⁴`, the loop succeeds exactly on strings
of decimal digits whose `decimal` value stays below `2⁶⁴`, and returns that value. -/
theorem parseUintLoop_eq_ok_iff {n m : Nat} {s : GoString} (hn : n < 2 ^ 64) :
    parseUintLoop n s = .ok m ↔
      (∀ c ∈ s, IsDigit c) ∧ decimal n s < 2 ^ 64 ∧ m = decimal n s := by
  induction s generalizing n with
  | nil =>
    simp only [parseUintLoop, Except.ok.injEq, List.not_mem_nil, false_imp_iff, implies_true,
      true_and, decimal, List.foldl_nil]
    exact ⟨fun h => ⟨hn, h.symm⟩, fun h => h.2.symm⟩
  | cons c s ih =>
    by_cases hc : IsDigit c
    · rw [parseUintLoop_digit hc, decimal_cons]
      split_ifs with hw
      · rw [ih hw]
        simp [hc]
      · have := le_decimal (n * 10 + (c.toNat - '0'.toNat)) s
        simp only [reduceCtorEq, false_iff, not_and]
        intro _ h
        omega
    · simp [parseUintLoop_not_digit hc, hc]

/-- The digit loop in closed form: from an accumulator that fits, the loop reports the
range error exactly when the digits before the first other byte already reach `2⁶⁴`, even when
a byte that is no digit follows them; otherwise it reads a string of digits, and rejects any
other. -/
theorem parseUintLoop_eq {n : Nat} (hn : n < 2 ^ 64) (s : GoString) :
    parseUintLoop n s =
      if 2 ^ 64 ≤ decimal n (s.takeWhile fun c => decide (IsDigit c)) then .error .range
      else if ∀ c ∈ s, IsDigit c then .ok (decimal n s) else .error .invalid := by
  induction s generalizing n with
  | nil => simp only [List.takeWhile_nil, decimal_nil, if_neg (Nat.not_le.mpr hn), List.not_mem_nil,
      false_imp_iff, implies_true, if_true, parseUintLoop]
  | cons c s ih =>
    by_cases hc : IsDigit c
    · simp only [parseUintLoop_digit hc, List.takeWhile_cons, decide_True, if_true,
        decimal_cons, List.forall_mem_cons, hc, true_and]
      by_cases hw : n * 10 + (c.toNat - '0'.toNat) < 2 ^ 64
      · rw [if_pos hw, ih hw]
      · rw [if_neg hw, if_pos ((Nat.le_of_not_lt hw).trans (le_decimal _ _))]
    · simp only [parseUintLoop_not_digit hc, List.takeWhile_cons, decide_False, Bool.false_eq_true,
        List.forall_mem_cons, hc, false_and, List.takeWhile_nil, decimal_nil,
        if_neg (Nat.not_le.mpr hn), if_false]

theorem parseUint_eq_ok_iff {s : GoString} {m : Nat} :
    parseUint s = .ok m ↔
      s ≠ [] ∧ (∀ c ∈ s, IsDigit c) ∧ decimal 0 s < 2 ^ 64 ∧ m = decimal 0 s := by
  unfold parseUint
  split
  · simp_all
  · simp_all [parseUintLoop_eq_ok_iff]

/-! ### `ParseInt` -/

/-- `ParseInt`, by cases on its sign: it accepts a string whose first byte is a sign or a
digit, when `ParseUint` accepts the rest (the whole, without a sign) and its magnitude fits an
`int64`. -/
theorem parseInt_eq_ok_iff {s : GoString} {v : Int} :
    parseInt s = .ok v ↔ ∃ c t, s = c :: t ∧
      ∃ u, parseUint (if c = '+'.toUInt8 ∨ c = '-'.toUInt8 then t else s) = .ok u ∧
        if c = '-'.toUInt8 then u ≤ 2 ^ 63 ∧ v = -u else u < 2 ^ 63 ∧ v = u := by
  rcases s with _ | ⟨c, t⟩
  · simp [parseInt]
  · simp only [parseInt, decide_eq_true_eq, List.cons.injEq, and_assoc, exists_and_left,
      exists_eq_left']
    generalize parseUint (if c = '+'.toUInt8 ∨ c = '-'.toUInt8 then t else c :: t) = r
    by_cases hm : c = '-'.toUInt8 <;> rcases r with (_ | _) | u <;> simp [hm, maxVal] <;>
      split <;> simp [eq_comm] <;> omega

/-- Without a sign, `ParseInt` reads exactly the non-empty strings of digits whose value is
below `2⁶³`. -/
theorem parseInt_unsigned_iff {s : GoString} {v : Int} (hp : '+'.toUInt8 ∉ s)
    (hm : '-'.toUInt8 ∉ s) :
    parseInt s = .ok v ↔
      s ≠ [] ∧ (∀ c ∈ s, IsDigit c) ∧ decimal 0 s < 2 ^ 63 ∧ v = decimal 0 s := by
  rcases s with _ | ⟨c, t⟩
  · simp [parseInt]
  have hc : ¬(c = '+'.toUInt8 ∨ c = '-'.toUInt8) := by rintro (rfl | rfl) <;> simp_all
  simp only [parseInt_eq_ok_iff, List.cons.injEq, and_assoc, exists_and_left, exists_eq_left',
    exists_eq_left, if_neg hc, if_neg (fun h => hc (.inr h)), parseUint_eq_ok_iff]
  exact ⟨fun ⟨hne, hd, _, hlt, hv⟩ => ⟨hne, hd, hlt, hv⟩,
    fun ⟨hne, hd, hlt, hv⟩ => ⟨hne, hd, by omega, hlt, hv⟩⟩

/-- `ParseInt` on digits, however many: the value when it is below `2⁶³`, and the range
error otherwise, also when `ParseUint`'s own 64 bits overflow first. -/
theorem parseInt_digits {s : GoString} (hne : s ≠ []) (hd : ∀ c ∈ s, IsDigit c) :
    parseInt s = if decimal 0 s < 2 ^ 63 then .ok (decimal 0 s) else .error ⟨s, .range⟩ := by
  obtain ⟨c, t, rfl⟩ := List.exists_cons_of_ne_nil hne
  have hu : parseUint (c :: t) =
      if 2 ^ 64 ≤ decimal 0 (c :: t) then .error .range else .ok (decimal 0 (c :: t)) := by
    rw [parseUint, if_neg hne, parseUintLoop_eq (by norm_num), List.takeWhile_eq_self_iff.mpr
      (fun x hx => decide_eq_true (hd x hx)), if_pos hd]
  have hp : c ≠ '+'.toUInt8 := fun h => absurd (h ▸ hd c (List.mem_cons_self _ _)) (by decide)
  have hm : c ≠ '-'.toUInt8 := fun h => absurd (h ▸ hd c (List.mem_cons_self _ _)) (by decide)
  simp only [parseInt, hp, hm, decide_False, Bool.false_eq_true, or_self, if_false, hu,
    Bool.not_false, true_and, false_and]
  by_cases h64 : 2 ^ 64 ≤ decimal 0 (c :: t)
  · -- `ParseUint` overflows: the magnitude is `maxVal`, and `ParseInt` reports the range error
    simp only [if_pos h64, maxVal]
    rw [if_pos (by norm_num), if_neg (by omega)]
  · simp only [if_neg h64]
    by_cases h63 : decimal 0 (c :: t) < 2 ^ 63
    · rw [if_neg (Nat.not_le.mpr h63), if_pos h63]
    · rw [if_pos (Nat.le_of_not_lt h63), if_neg h63]

/-! ### `%d` -/

theorem formatNat_ne_nil (n : Nat) : formatNat n ≠ [] := by
  unfold formatNat
  split
  · simp
  · simpa [Nat.digits_ne_nil_iff_ne_zero]

/-- The byte `%d` prints for a digit `d < 10`. -/
theorem toNat_digitByte {d : Nat} (h : d < 10) :
    (UInt8.ofNat ('0'.toNat + d)).toNat = '0'.toNat + d :=
  UInt8.toNat_ofNat_of_lt (by simp [UInt8.size]; omega)

theorem isDigit_of_mem_formatNat {n : Nat} {c : UInt8} (h : c ∈ formatNat n) : IsDigit c := by
  unfold formatNat at h
  split at h
  · rw [List.mem_singleton.mp h]; decide
  · obtain ⟨d, hd, rfl⟩ := List.mem_map.mp h
    have hd := Nat.digits_lt_base (by norm_num) (List.mem_reverse.mp hd)
    simp only [IsDigit, toNat_digitByte hd]
    simp; omega

theorem decimal_map_digitByte (L : List Nat) (h : ∀ d ∈ L, d < 10) (n : Nat) :
    decimal n (L.map fun d => UInt8.ofNat ('0'.toNat + d)) = L.foldl (fun n d => n * 10 + d) n := by
  induction L generalizing n with
  | nil => rfl
  | cons d L ih =>
    rw [List.map_cons, decimal_cons, toNat_digitByte (h d (List.mem_cons_self _ _)),
      Nat.add_sub_cancel_left, ih (fun e he => h e (List.mem_cons_of_mem _ he))]
    rfl

/-- `ParseUint`'s step, folded from the right, is Mathlib's `Nat.ofDigits_eq_foldr`. -/
theorem foldr_decimal (L : List Nat) :
    L.foldr (fun d n => n * 10 + d) 0 = Nat.ofDigits 10 L := by
  simp only [Nat.ofDigits_eq_foldr, Nat.cast_id, Nat.add_comm, Nat.mul_comm]

/-- `ParseUint` undoes `%d`, on the value `%d` printed. -/
theorem decimal_formatNat (n : Nat) : decimal 0 (formatNat n) = n := by
  unfold formatNat
  split
  · subst n; rfl
  · rw [decimal_map_digitByte _ (fun d hd => Nat.digits_lt_base (by norm_num)
      (List.mem_reverse.mp hd)), List.foldl_reverse, foldr_decimal, Nat.ofDigits_digits]

/-- `X` is a number as `%d` writes one: digits, with no leading `0` unless `X` is `0`. -/
def IsNumeral (X : GoString) : Prop :=
  X ≠ [] ∧ (∀ c ∈ X, IsDigit c) ∧ (X.head? = some '0'.toUInt8 → X = ['0'.toUInt8])

/-- A numeral holds only digits. -/
theorem IsNumeral.not_mem {X : GoString} (h : IsNumeral X) {c : UInt8} (hc : ¬IsDigit c) :
    c ∉ X :=
  fun hm => hc (h.2.1 c hm)

/-- A digit's value is below ten. -/
theorem digitValue_lt {c : UInt8} (hc : IsDigit c) : c.toNat - '0'.toNat < 10 := by
  have h9 : '9'.toNat = '0'.toNat + 9 := rfl
  have := hc.2
  omega

/-- A digit is the byte `%d` prints for its value. -/
theorem digitByte_of_isDigit {c : UInt8} (hc : IsDigit c) :
    UInt8.ofNat ('0'.toNat + (c.toNat - '0'.toNat)) = c :=
  UInt8.toNat.inj ((toNat_digitByte (digitValue_lt hc)).trans (Nat.add_sub_cancel' hc.1))

/-- What `%d` prints is a numeral. -/
theorem formatNat_isNumeral (n : Nat) : IsNumeral (formatNat n) := by
  refine ⟨formatNat_ne_nil n, fun _ => isDigit_of_mem_formatNat, fun h => ?_⟩
  unfold formatNat at h ⊢
  by_cases hn : n = 0
  · rw [if_pos hn]
  · rw [if_neg hn, List.head?_map, List.head?_reverse,
      List.getLast?_eq_getLast _ (Nat.digits_ne_nil_iff_ne_zero.mpr hn)] at h
    have := congrArg UInt8.toNat (Option.some.inj h)
    rw [toNat_digitByte (Nat.digits_lt_base (by norm_num) (List.getLast_mem _))] at this
    have h0 : '0'.toUInt8.toNat = '0'.toNat := rfl
    exact (Nat.getLast_digit_ne_zero 10 hn (by omega)).elim

section Digits
variable {X : GoString} (hd : ∀ c ∈ X, IsDigit c)
include hd

theorem digitValues_lt : ∀ d ∈ X.map (·.toNat - '0'.toNat), d < 10 := by
  simp only [List.mem_map]
  rintro _ ⟨b, hb, rfl⟩
  exact digitValue_lt (hd b hb)

/-- A string of digits is `%d`'s bytes of its digits' values. -/
theorem map_digitByte_digitValues :
    (X.map (·.toNat - '0'.toNat)).map (fun d => UInt8.ofNat ('0'.toNat + d)) = X := by
  rw [List.map_map]
  exact (List.map_congr_left fun b hb => digitByte_of_isDigit (hd b hb)).trans (List.map_id' _)

/-- `ParseUint`'s value of a string of digits is the number its digits denote in base ten. -/
theorem decimal_eq_ofDigits :
    decimal 0 X = Nat.ofDigits 10 (X.map (·.toNat - '0'.toNat)).reverse := by
  conv_lhs => rw [← map_digitByte_digitValues hd]
  rw [decimal_map_digitByte _ (digitValues_lt hd), ← foldr_decimal, List.foldr_reverse]

end Digits

/-- `%d` reprints a numeral from the value `ParseUint` reads: the numerals are exactly the
strings `%d` prints. -/
theorem formatNat_decimal {X : GoString} (h : IsNumeral X) : formatNat (decimal 0 X) = X := by
  obtain ⟨hne, hd, h0⟩ := h
  obtain ⟨c, X', rfl⟩ := List.exists_cons_of_ne_nil hne
  by_cases hc : c = '0'.toUInt8
  · rw [h0 (by rw [hc]; rfl)]
    decide
  have hhead : c.toNat - '0'.toNat ≠ 0 := by
    have h0 : '0'.toUInt8.toNat = '0'.toNat := rfl
    have := (hd c (List.mem_cons_self _ _)).1
    have : c.toNat ≠ '0'.toNat := fun h => hc (UInt8.toNat.inj (h.trans h0.symm))
    omega
  -- the leading digit is not zero, so the digits are the value's `Nat.digits`
  have hdigits := Nat.digits_ofDigits 10 (by norm_num) _
    (fun d h => digitValues_lt hd d (List.mem_reverse.mp h))
    (fun _ => by simpa [List.getLast_reverse] using hhead)
  have hpos : Nat.ofDigits 10 ((c :: X').map (·.toNat - '0'.toNat)).reverse ≠ 0 := fun h => by
    rw [h, Nat.digits_zero] at hdigits
    simp at hdigits
  rw [decimal_eq_ofDigits hd, formatNat, if_neg hpos, hdigits, List.reverse_reverse,
    map_digitByte_digitValues hd]

end Wit.Go
