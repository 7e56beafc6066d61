import WebServer.Lib.ByteString

/-! # Numerals

Numbers written in a base up to 16, most significant digit first and without leading zeros, and
integers in base ten with a `-` in front of the negative ones.
-/

namespace WebServer.Lib

/-- The digits `0` to `9` and `A` to `F`. -/
def digitByte (d : Nat) : UInt8 := if d < 10 then UInt8.ofNat (48 + d) else UInt8.ofNat (55 + d)

/-- The digit that a byte stands for. -/
def byteDigit (base : Nat) (c : UInt8) : Option Nat :=
  let d :=
    if 48 ≤ c ∧ c ≤ 57 then some (c.toNat - 48)
    else if 65 ≤ c ∧ c ≤ 70 then some (c.toNat - 55)
    else none
  d.filter (· < base)

/-- Read some digits after the number `n`. -/
def readDigits (base : Nat) : Nat → Bytes → Option Nat
  | n, [] => some n
  | n, c :: bytes => (byteDigit base c).bind fun d => readDigits base (n * base + d) bytes

/-- The number that is written there, if one is. -/
def readNumeral (base : Nat) (bytes : Bytes) : Option Nat :=
  if bytes = [] then none else readDigits base 0 bytes

/-- `bytes` is how `n` is written. -/
structure Numeral (base : Nat) (bytes : Bytes) (n : Nat) : Prop where
  read : readNumeral base bytes = some n
  leading : bytes.head? = some 48 → bytes = [48]

/-- The integer that is written there. -/
def readInteger : Bytes → Option Int
  | 45 :: digits => (readNumeral 10 digits).map fun n => -Int.ofNat n
  | digits => (readNumeral 10 digits).map Int.ofNat

/-- `bytes` is how the integer `v` is written. -/
def IntegerNumeral (bytes : Bytes) (v : Int) : Prop :=
  ∃ digits, Numeral 10 digits v.natAbs ∧ bytes = if v < 0 then 45 :: digits else digits

theorem byteDigit_digitByte {base d : Nat} (small : base ≤ 16) (low : d < base) :
    byteDigit base (digitByte d) = some d := by
  have plain : ∀ d < 16, (if 48 ≤ digitByte d ∧ digitByte d ≤ 57 then some ((digitByte d).toNat - 48)
      else if 65 ≤ digitByte d ∧ digitByte d ≤ 70 then some ((digitByte d).toNat - 55)
      else none) = some d := by decide
  unfold byteDigit
  rw [plain d (by omega)]
  exact Option.filter_some_pos (decide_eq_true low)

theorem readDigits_append (base n : Nat) (front back : Bytes) :
    readDigits base n (front ++ back) =
      (readDigits base n front).bind fun m => readDigits base m back := by
  induction front generalizing n with
  | nil => rfl
  | cons c front ih =>
      rw [List.cons_append, readDigits, readDigits, Option.bind_assoc]
      exact congrArg (Option.bind _) (funext fun d => ih _)

namespace Numeral

variable {base n d : Nat} {bytes : Bytes}

theorem ne_nil (numeral : Numeral base bytes n) : bytes ≠ [] := by
  rintro rfl
  have read := numeral.read
  rw [readNumeral, if_pos rfl] at read
  cases read

theorem single (small : base ≤ 16) (low : d < base) : Numeral base [digitByte d] d where
  read := by
    rw [readNumeral, if_neg (List.cons_ne_nil _ _), readDigits, byteDigit_digitByte small low,
      Option.bind_some, Nat.zero_mul, Nat.zero_add]
    rfl
  leading zero := by rw [Option.some.inj zero]

/-- One more digit, behind a number that is not zero. -/
theorem digit (numeral : Numeral base bytes n) (positive : 0 < n) (small : base ≤ 16)
    (low : d < base) : Numeral base (bytes ++ [digitByte d]) (n * base + d) where
  read := by
    have read := numeral.read
    rw [readNumeral, if_neg numeral.ne_nil] at read
    rw [readNumeral, if_neg (List.append_ne_nil_of_left_ne_nil numeral.ne_nil _), readDigits_append,
      read, Option.bind_some, readDigits, byteDigit_digitByte small low]
    rfl
  leading zero := by
    rw [List.head?_append_of_ne_nil _ numeral.ne_nil] at zero
    have read := numeral.read
    have digit : byteDigit base 48 = some 0 := byteDigit_digitByte small (Nat.zero_lt_of_lt low)
    rw [numeral.leading zero, readNumeral, if_neg (List.cons_ne_nil _ _), readDigits, digit] at read
    have zero := Option.some.inj read
    omega

end Numeral

theorem Numeral.unsigned {bytes digits : Bytes} {n : Nat} (numeral : Numeral 10 bytes n) :
    bytes ≠ 45 :: digits := by
  rintro rfl
  have read := numeral.read
  have sign : byteDigit 10 45 = none := by decide
  rw [readNumeral, if_neg (List.cons_ne_nil _ _), readDigits, sign] at read
  cases read

theorem IntegerNumeral.read {bytes : Bytes} {v : Int} (written : IntegerNumeral bytes v) :
    readInteger bytes = some v := by
  obtain ⟨digits, numeral, rfl⟩ := written
  split_ifs with negative
  · rw [readInteger, numeral.read, Option.map_some]
    exact congrArg some (by simp only [Int.ofNat_eq_natCast]; omega)
  · rw [readInteger, numeral.read, Option.map_some]
    · exact congrArg some (by simp only [Int.ofNat_eq_natCast]; omega)
    · exact fun _ => numeral.unsigned

end WebServer.Lib
