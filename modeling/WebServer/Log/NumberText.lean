import WebServer.Lib.Numeral
import WebServer.Log.BufferBounds

/-! # Numbers and their texts

`convert` and `ConvertHex` with the arithmetic of their argument's own type. No division of theirs
overflows, so they write what the loop over integers writes, and that is the numeral of the value,
also of the least one, which has no absolute value in its type.
-/

namespace WebServer

open Lib

/-- A value of one of the types `T` of `convert`. -/
inductive MachineInteger where
  | int32 (v : Int32)
  | uint32 (v : UInt32)
  | int64 (v : Int64)
  | uint64 (v : UInt64)
  deriving DecidableEq

namespace MachineInteger

/-- The number that is meant. -/
def value : MachineInteger → Int
  | .int32 v => v.toInt
  | .uint32 v => v.toNat
  | .int64 v => v.toInt
  | .uint64 v => v.toNat

/-- `static_cast<int>(i % base)`. -/
def lsd (base : Nat) : MachineInteger → Int
  | .int32 i => (i % Int32.ofNat base).toInt
  | .uint32 i => WebServer.Lib.toInt (i % UInt32.ofNat base).toNat
  | .int64 i => (i % Int64.ofNat base).toInt32.toInt
  | .uint64 i => WebServer.Lib.toInt (i % UInt64.ofNat base).toNat

/-- `i / base`. -/
def quotient (base : Nat) : MachineInteger → MachineInteger
  | .int32 i => .int32 (i / Int32.ofNat base)
  | .uint32 i => .uint32 (i / UInt32.ofNat base)
  | .int64 i => .int64 (i / Int64.ofNat base)
  | .uint64 i => .uint64 (i / UInt64.ofNat base)

/-- `i == 0`. -/
def isZero : MachineInteger → Bool
  | .int32 i => i == 0
  | .uint32 i => i == 0
  | .int64 i => i == 0
  | .uint64 i => i == 0

/-- `value < 0`. -/
def isNegative : MachineInteger → Bool
  | .int32 i => i < 0
  | .uint32 i => i < 0
  | .int64 i => i < 0
  | .uint64 i => i < 0

section Loop

variable {size : Nat}

/-- The loop of `convert` and `ConvertHex`, in the argument's type. -/
def digitLoop (zero : Int → UInt8) (base : Nat) :
    Nat → (i : MachineInteger) → (p : Nat) → RawBuffer size → Except Overrun (RawBuffer size × Nat)
  | 0, i, p, b => do
      let b ← b.store p (zero (i.lsd base))
      return (b, p + 1)
  | fuel + 1, i, p, b => do
      let b ← b.store p (zero (i.lsd base))
      if !(i.quotient base).isZero then digitLoop zero base fuel (i.quotient base) (p + 1) b
      else return (b, p + 1)

/-- `convert(buf, value)`, at the index `buf`. -/
def convert (value : MachineInteger) (b : RawBuffer size) (buf : Nat) :
    Except Overrun (RawBuffer size × Nat) := do
  let (b, p) ← digitLoop kZero 10 value.value.natAbs value buf b
  let (b, p) ← if value.isNegative then do
      let b ← b.store p 45
      pure (b, p + 1)
    else pure (b, p)
  let b ← b.store p 0
  let b ← b.reverse buf p
  return (b, p - buf)

/-- `ConvertHex(buf, v)`. -/
def convertHex (b : RawBuffer size) (buf : Nat) (v : UInt64) :
    Except Overrun (RawBuffer size × Nat) := do
  let (b, p) ← digitLoop kHexZero 16 v.toNat (.uint64 v) buf b
  let b ← b.store p 0
  let b ← b.reverse buf p
  return (b, p - buf)

end Loop

variable {base : Nat}

/-- The remainder is that of the numbers, and fits into an `int`. -/
theorem lsd_eq (positive : 0 < base) (small : base ≤ 16) (i : MachineInteger) :
    i.lsd base = i.value.tmod base := by
  have wide : base < 2 ^ 32 := by omega
  cases i with
  | int32 i =>
      simp only [lsd, value]
      rw [Int32.toInt_mod, Int32.toInt_ofNat_of_lt (by omega)]
  | int64 i =>
      have low := Int.lt_tmod_of_pos i.toInt (Int.natCast_pos.mpr positive)
      have high := Int.tmod_lt_of_pos i.toInt (Int.natCast_pos.mpr positive)
      simp only [lsd, value]
      rw [Int64.toInt_toInt32, Int64.toInt_mod, Int64.toInt_ofNat_of_lt (by omega)]
      exact Int.bmod_eq_of_le (by omega) (by omega)
  | uint32 i =>
      have bound := Nat.mod_lt i.toNat positive
      simp only [lsd, value]
      rw [UInt32.toNat_mod, UInt32.toNat_ofNat_of_lt' wide, toInt_of_lt (by omega)]
      exact Int.natCast_mod ..
  | uint64 i =>
      have bound := Nat.mod_lt i.toNat positive
      simp only [lsd, value]
      rw [UInt64.toNat_mod, UInt64.toNat_ofNat_of_lt' (wide.trans (by decide)),
        toInt_of_lt (by omega)]
      exact Int.natCast_mod ..

/-- The quotient is that of the numbers: dividing by `-1` alone could overflow. -/
theorem quotient_value (small : base ≤ 16) (i : MachineInteger) :
    (i.quotient base).value = i.value.tdiv base := by
  have wide : base < 2 ^ 32 := by omega
  cases i with
  | int32 i =>
      have divisor : (Int32.ofNat base).toInt = base := Int32.toInt_ofNat_of_lt (by omega)
      have other : Int32.ofNat base ≠ -1 := fun same => by
        have negative := congrArg Int32.toInt same
        rw [divisor] at negative
        have minus : (-1 : Int32).toInt = -1 := by decide
        omega
      simp only [quotient, value]
      rw [Int32.toInt_div_of_ne_right _ _ other, divisor]
  | int64 i =>
      have divisor : (Int64.ofNat base).toInt = base := Int64.toInt_ofNat_of_lt (by omega)
      have other : Int64.ofNat base ≠ -1 := fun same => by
        have negative := congrArg Int64.toInt same
        rw [divisor] at negative
        have minus : (-1 : Int64).toInt = -1 := by decide
        omega
      simp only [quotient, value]
      rw [Int64.toInt_div_of_ne_right _ _ other, divisor]
  | uint32 i =>
      simp only [quotient, value]
      rw [UInt32.toNat_div, UInt32.toNat_ofNat_of_lt' wide]
      exact Int.natCast_div ..
  | uint64 i =>
      simp only [quotient, value]
      rw [UInt64.toNat_div, UInt64.toNat_ofNat_of_lt' (wide.trans (by decide))]
      exact Int.natCast_div ..

theorem isZero_iff (i : MachineInteger) : i.isZero = true ↔ i.value = 0 := by
  cases i with
  | int32 i => exact beq_iff_eq.trans Int32.toInt_inj.symm
  | int64 i => exact beq_iff_eq.trans Int64.toInt_inj.symm
  | uint32 i => exact (beq_iff_eq.trans UInt32.toNat_inj.symm).trans Int.natCast_eq_zero.symm
  | uint64 i => exact (beq_iff_eq.trans UInt64.toNat_inj.symm).trans Int.natCast_eq_zero.symm

theorem isNegative_iff (i : MachineInteger) : i.isNegative = true ↔ i.value < 0 := by
  cases i with
  | int32 i => exact decide_eq_true_iff.trans Int32.lt_iff_toInt_lt
  | int64 i => exact decide_eq_true_iff.trans Int64.lt_iff_toInt_lt
  | uint32 i | uint64 i => simp [isNegative, value]

section Loop

variable {size : Nat}

theorem digitLoop_eq (zero : Int → UInt8) (positive : 0 < base) (small : base ≤ 16) (fuel : Nat)
    (i : MachineInteger) (p : Nat) (b : RawBuffer size) :
    digitLoop zero base fuel i p b = RawBuffer.digitLoop zero base fuel i.value p b := by
  induction fuel generalizing i p b with
  | zero => rw [digitLoop, RawBuffer.digitLoop, lsd_eq positive small]
  | succ fuel ih =>
      have more : (!(i.quotient base).isZero) = true ↔ i.value.tdiv base ≠ 0 := by
        rw [← quotient_value small i, Bool.not_eq_true', ← Bool.not_eq_true, isZero_iff]
      rw [digitLoop, RawBuffer.digitLoop, lsd_eq positive small]
      simp only [more, ih, quotient_value small]

theorem convert_eq (b : RawBuffer size) (buf : Nat) (v : MachineInteger) :
    v.convert b buf = b.convert buf v.value := by
  have loop := digitLoop_eq kZero (show 0 < 10 by decide) (by decide) v.value.natAbs v buf b
  unfold convert RawBuffer.convert
  rw [loop]
  simp only [isNegative_iff]
  rfl

theorem convertHex_eq (b : RawBuffer size) (buf : Nat) (v : UInt64) :
    convertHex b buf v = b.convertHex buf v.toNat := by
  have loop := digitLoop_eq kHexZero (show 0 < 16 by decide) (by decide) v.toNat
    (.uint64 v) buf b
  unfold convertHex RawBuffer.convertHex
  rw [loop]
  rfl

end Loop

end MachineInteger

/-- Read backwards the digits that the loop writes are the numeral of the absolute value. -/
theorem digitsOf_numeral {zero : Int → UInt8} {base : Nat} (large : 2 ≤ base) (small : base ≤ 16)
    (mirrored : ∀ d < base, zero (d : Nat) = digitByte d ∧ zero (-(d : Nat)) = digitByte d)
    {fuel : Nat} {i : Int} (enough : i.natAbs ≤ fuel) :
    Numeral base (digitsOf zero base fuel i).reverse i.natAbs := by
  have positive : 0 < base := by omega
  have digit := mirrored_tmod positive mirrored
  have low (n : Nat) : n % base < base := Nat.mod_lt n positive
  induction fuel generalizing i with
  | zero =>
      obtain rfl : i = 0 := by omega
      rw [digitsOf, digit, List.reverse_singleton]
      show Numeral base [digitByte (0 % base)] 0
      rw [Nat.zero_mod]
      exact .single small positive
  | succ fuel ih =>
      have quotient : (i.tdiv base).natAbs = i.natAbs / base := Int.natAbs_tdiv i base
      have whole : i.natAbs / base * base + i.natAbs % base = i.natAbs := Nat.div_add_mod' ..
      rw [digitsOf, digit, List.reverse_cons]
      by_cases more : i.tdiv base ≠ 0
      · have less : i.natAbs / base < i.natAbs := Nat.div_lt_self (by
          rw [Nat.pos_iff_ne_zero, Int.natAbs_ne_zero]
          rintro rfl
          simp at more) large
        have front := ih (i := i.tdiv base) (by omega)
        rw [quotient] at front
        rw [if_pos more]
        have longer := front.digit (by omega) small (low i.natAbs)
        rwa [whole] at longer
      · have none_left : i.natAbs / base = 0 := by omega
        have last := Numeral.single small (low i.natAbs)
        rw [if_neg more, List.reverse_nil, List.nil_append]
        rw [none_left, Nat.zero_mul, Nat.zero_add] at whole
        rwa [whole] at last ⊢

theorem kHexZero_mirrored : ∀ d < 16, kHexZero (d : Nat) = digitByte d ∧
    kHexZero (-(d : Nat)) = digitByte d := by decide

theorem hexText_numeral (v : Nat) : Numeral 16 (hexText v) v := by
  have numeral := digitsOf_numeral (by decide) (by decide) kHexZero_mirrored (Nat.le_refl v)
    (i := (v : Int))
  rwa [Int.natAbs_natCast] at numeral

theorem integerText_numeral (v : Int) : IntegerNumeral (integerText v) v := by
  have mirrored : ∀ d < 10, kZero (d : Nat) = digitByte d ∧ kZero (-(d : Nat)) = digitByte d := by
    decide
  have numeral : Numeral 10 (digitsOf kZero 10 v.natAbs v).reverse v.natAbs :=
    digitsOf_numeral (by decide) (by decide) mirrored (Nat.le_refl _)
  rw [digitsOf_decimal (Nat.le_refl _)] at numeral
  refine ⟨decimal v.natAbs, numeral, ?_⟩
  unfold integerText
  split_ifs <;> rfl

example : integerText Int64.minValue.toInt = text "-9223372036854775808" := by decide

/-- Every value of every integer type is written as its numeral, which reads as the value, and the
    length of the numeral is returned; so are addresses in base 16. -/
theorem numbers_written :
    (∀ v : MachineInteger, ∃ bytes, IntegerNumeral bytes v.value ∧ readInteger bytes = some v.value ∧
      ∀ (size : Nat) (b : RawBuffer size) (buf : Nat), buf + bytes.length < size →
        ∃ b', v.convert b buf = .ok (b', bytes.length) ∧ b.Wrote b' buf bytes ∧
          b'.data[buf + bytes.length]? = some 0) ∧
    ∀ v : UInt64, ∃ bytes, Numeral 16 bytes v.toNat ∧
      ∀ (size : Nat) (b : RawBuffer size) (buf : Nat), buf + bytes.length < size →
        ∃ b', MachineInteger.convertHex b buf v = .ok (b', bytes.length) ∧ b.Wrote b' buf bytes ∧
          b'.data[buf + bytes.length]? = some 0 := by
  constructor
  · intro v
    have numeral := integerText_numeral v.value
    refine ⟨integerText v.value, numeral, numeral.read, fun size b buf room => ?_⟩
    rw [MachineInteger.convert_eq]
    exact b.convert_wrote room
  · intro v
    refine ⟨hexText v.toNat, hexText_numeral v.toNat, fun size b buf room => ?_⟩
    rw [MachineInteger.convertHex_eq]
    exact b.convertHex_wrote room

end WebServer
