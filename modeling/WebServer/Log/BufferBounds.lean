import WebServer.Log.LogStream

/-! # What an insertion does to the buffer

An insertion whose length is not mistaken for a small one writes inside `data_` only: it appends its
text whole or leaves the buffer as it is. Numbers fit into `kMaxNumericSize` bytes with their sign
and the terminating NUL.
-/

namespace WebServer

open Lib

/-- The decimal text of an integer. -/
def integerText (v : Int) : Bytes := (if v < 0 then text "-" else []) ++ decimal v.natAbs

/-- The digits that `digitLoop` writes, the last one first. -/
def digitsOf (zero : Int → UInt8) (base : Int) : Nat → Int → Bytes
  | 0, i => [zero (i.tmod base)]
  | fuel + 1, i =>
      zero (i.tmod base) :: if i.tdiv base ≠ 0 then digitsOf zero base fuel (i.tdiv base) else []

/-- The hexadecimal text of an address. -/
def hexText (v : Nat) : Bytes := (digitsOf kHexZero 16 v v).reverse

theorem digitsOf_length (zero : Int → UInt8) {base k : Nat} (large : 2 ≤ base) (positive : 0 < k)
    {fuel : Nat} {i : Int} (bound : i.natAbs < base ^ k) :
    (digitsOf zero base fuel i).length ≤ k := by
  induction fuel generalizing i k with
  | zero =>
      simp only [digitsOf, List.length_singleton]
      omega
  | succ fuel ih =>
      simp only [digitsOf, List.length_cons]
      split_ifs with more
      · have quotient : (i.tdiv base).natAbs = i.natAbs / base := Int.natAbs_tdiv i base
        have smaller : (i.tdiv base).natAbs < base ^ (k - 1) := by
          rw [quotient, Nat.div_lt_iff_lt_mul (by omega), ← Nat.pow_succ, Nat.succ_eq_add_one,
            Nat.sub_add_cancel positive]
          exact bound
        have left : 0 < k - 1 := by
          rcases Nat.eq_zero_or_pos (k - 1) with none | some
          · rw [none, Nat.pow_zero, Nat.lt_one_iff, Int.natAbs_eq_zero] at smaller
            exact absurd smaller more
          · exact some
        have := ih left smaller
        omega
      · simp only [List.length_nil]
        omega

/-- A table with the digits on both sides of its middle gives the digit of a remainder of either
    sign. -/
theorem mirrored_tmod {zero : Int → UInt8} {digit : Nat → UInt8} {base : Nat} (positive : 0 < base)
    (mirrored : ∀ d < base, zero (d : Nat) = digit d ∧ zero (-(d : Nat)) = digit d) (i : Int) :
    zero (i.tmod base) = digit (i.natAbs % base) := by
  obtain ⟨plain, opposite⟩ := mirrored (i.natAbs % base) (Nat.mod_lt _ positive)
  obtain ⟨n, rfl | rfl⟩ := Int.eq_nat_or_neg i
  · have remainder : (n : Int).tmod base = (n % base : Nat) := (Int.natCast_mod n base).symm
    rw [Int.natAbs_natCast] at plain ⊢
    rw [remainder]
    exact plain
  · have remainder : (n : Int).tmod base = (n % base : Nat) := (Int.natCast_mod n base).symm
    rw [Int.natAbs_neg, Int.natAbs_natCast] at opposite ⊢
    rw [Int.neg_tmod, remainder]
    exact opposite

theorem kZero_mirrored : ∀ d < 10, kZero (d : Nat) = UInt8.ofNat (48 + d) ∧
    kZero (-(d : Nat)) = UInt8.ofNat (48 + d) := by decide

/-- Read backwards the digits are the decimal text of the absolute value. -/
theorem digitsOf_decimal {fuel : Nat} {i : Int} (enough : i.natAbs ≤ fuel) :
    (digitsOf kZero 10 fuel i).reverse = decimal i.natAbs := by
  induction fuel generalizing i with
  | zero =>
      obtain rfl : i = 0 := by omega
      decide
  | succ fuel ih =>
      have head : kZero (i.tmod 10) = UInt8.ofNat (48 + i.natAbs % 10) :=
        mirrored_tmod (by decide) kZero_mirrored i
      have quotient : (i.tdiv 10).natAbs = i.natAbs / 10 := Int.natAbs_tdiv i 10
      simp only [digitsOf, List.reverse_cons, head]
      rcases decimal_cases i.natAbs with ⟨d, low, same, digits⟩ | ⟨m, d, less, low, same, digits⟩
      · have last : ¬ i.tdiv 10 ≠ 0 := by omega
        have digit : i.natAbs % 10 = d := by omega
        rw [if_neg last, digits, digit]
        rfl
      · by_cases more : i.tdiv 10 ≠ 0
        · have rest := ih (i := i.tdiv 10) (by omega)
          have front : (i.tdiv 10).natAbs = m := by omega
          have digit : i.natAbs % 10 = d := by omega
          rw [if_pos more, rest, front, digit, digits]
        · have short : m = 0 := by omega
          have digit : i.natAbs % 10 = d := by omega
          have single : i.natAbs = d := by omega
          have small : ∀ d < 10, decimal d = [UInt8.ofNat (48 + d)] := by decide
          rw [if_neg more, digit, single, small d low]
          rfl

theorem integerText_length {v : Int} (bound : v.natAbs < 10 ^ 20) : (integerText v).length ≤ 21 := by
  have digits : (digitsOf kZero 10 v.natAbs v).length ≤ 20 :=
    digitsOf_length kZero (show 2 ≤ 10 by decide) (by decide) bound
  rw [← List.length_reverse, digitsOf_decimal (Nat.le_refl _)] at digits
  rw [integerText, List.length_append]
  split_ifs
  · exact Nat.add_le_add (by decide : (text "-").length ≤ 1) digits
  · exact Nat.le_succ_of_le (by simpa using digits)

theorem hexText_length {v : Nat} (bound : v < 16 ^ 16) : (hexText v).length ≤ 16 := by
  rw [hexText, List.length_reverse]
  exact digitsOf_length kHexZero (by decide) (by decide) (by simpa using bound)

namespace RawBuffer

variable {size : Nat}

/-- `b'` is `b` with some bytes written from the index `p` on. -/
structure Wrote (b b' : RawBuffer size) (p : Nat) (bytes : Bytes) : Prop where
  cur : b'.cur = b.cur
  data : b'.data.take (p + bytes.length) = b.data.take p ++ bytes

/-- `b'` is `b` with some bytes appended. -/
structure Appended (b b' : RawBuffer size) (bytes : Bytes) : Prop where
  cur : b'.cur = b.cur + bytes.length
  content : b'.content = b.content ++ bytes
  inside : b'.cur < size

theorem Wrote.append {b b' b'' : RawBuffer size} {p q : Nat} {xs ys : Bytes} (first : Wrote b b' p xs)
    (second : Wrote b' b'' q ys) (behind : q = p + xs.length) : Wrote b b'' p (xs ++ ys) := by
  subst behind
  refine ⟨second.cur.trans first.cur, ?_⟩
  rw [List.length_append, ← Nat.add_assoc, second.data, first.data, List.append_assoc]

theorem Wrote.shorten {b b' : RawBuffer size} {p : Nat} {xs ys : Bytes}
    (wrote : Wrote b b' p (xs ++ ys)) (inside : p ≤ size) : Wrote b b' p xs := by
  refine ⟨wrote.cur, ?_⟩
  have front := congrArg (List.take (p + xs.length)) wrote.data
  rw [List.take_take, List.length_append, Nat.min_eq_left (by omega), ← List.append_assoc] at front
  have length : (b.data.take p ++ xs).length = p + xs.length := by simp [b.sized, inside]
  rw [front, ← length, List.take_left]

theorem Wrote.appended {b b' : RawBuffer size} {bytes : Bytes} (wrote : Wrote b b' b.cur bytes)
    (room : b.cur + bytes.length < size) : Appended b (b'.add bytes.length) bytes := by
  refine ⟨congrArg (· + bytes.length) wrote.cur, ?_, ?_⟩
  · simp only [content, add, wrote.cur]
    exact wrote.data
  · simpa only [add, wrote.cur] using room

theorem store_wrote (b : RawBuffer size) {p : Nat} (c : UInt8) (inside : p < size) :
    ∃ b', b.store p c = .ok b' ∧ Wrote b b' p [c] := by
  refine ⟨_, if_pos inside, rfl, ?_⟩
  have known : p < (b.data.set p c).length := by simpa [b.sized] using inside
  rw [List.length_singleton, List.take_succ_eq_append_getElem known,
    List.take_set_of_le (Nat.le_refl p), List.getElem_set_self]

theorem memcpy_wrote (b : RawBuffer size) {p : Nat} {src : Bytes} (room : p + src.length ≤ size) :
    ∃ b', b.memcpy p src = .ok b' ∧ Wrote b b' p src := by
  refine ⟨_, dif_pos room, rfl, ?_⟩
  have length : (b.data.take p ++ src).length = p + src.length := by
    simp [b.sized]
    omega
  dsimp only
  rw [← length, List.take_left]

theorem reverse_wrote {b b' : RawBuffer size} {p : Nat} {bytes : Bytes} (wrote : Wrote b b' p bytes)
    (room : p + bytes.length ≤ size) :
    ∃ b'', b'.reverse p (p + bytes.length) = .ok b'' ∧ Wrote b b'' p bytes.reverse := by
  refine ⟨_, dif_pos ⟨Nat.le_add_right _ _, room⟩, wrote.cur, ?_⟩
  have front : (b.data.take p).length = p := by
    simp [b.sized]
    omega
  have before : b'.data.take p = b.data.take p := by
    have shorter := congrArg (List.take p) wrote.data
    rwa [List.take_take, Nat.min_eq_left (Nat.le_add_right _ _), List.take_append_of_le_length
      (by omega), List.take_take, Nat.min_self] at shorter
  have middle : (b'.data.take (p + bytes.length)).drop p = bytes := by
    rw [wrote.data]
    exact List.drop_left' front
  have length : (b.data.take p ++ bytes.reverse).length = p + bytes.reverse.length := by
    rw [List.length_append, front]
  dsimp only
  rw [before, middle, ← length, List.take_left]

theorem digitLoop_wrote (zero : Int → UInt8) (base : Int) {fuel : Nat} {i : Int} {p : Nat}
    (b : RawBuffer size) (room : p + (digitsOf zero base fuel i).length ≤ size) :
    ∃ b', digitLoop zero base fuel i p b = .ok (b', p + (digitsOf zero base fuel i).length) ∧
      Wrote b b' p (digitsOf zero base fuel i) := by
  induction fuel generalizing i p b with
  | zero =>
      obtain ⟨b', stored, wrote⟩ := store_wrote b (zero (i.tmod base)) room
      exact ⟨b', by rw [digitLoop, stored]; rfl, wrote⟩
  | succ fuel ih =>
      simp only [digitsOf, List.length_cons] at room
      obtain ⟨b₁, stored, wrote⟩ := store_wrote b (zero (i.tmod base)) (p := p) (by omega)
      simp only [digitLoop, digitsOf, stored, bind, Except.bind]
      split_ifs at room ⊢ with more
      · obtain ⟨b', looped, rest⟩ := ih b₁ (i := i.tdiv base) (p := p + 1) (by omega)
        refine ⟨b', ?_, wrote.append rest rfl⟩
        rw [looped, List.length_cons, Nat.add_assoc, Nat.add_comm 1]
      · exact ⟨b₁, rfl, wrote⟩

theorem Wrote.byte {b b' : RawBuffer size} {p : Nat} {c : UInt8} (wrote : Wrote b b' p [c])
    (inside : p < size) : b'.data[p]? = some c := by
  have front : (b.data.take p).length = p := by
    simp [b.sized]
    omega
  have there := congrArg (·[p]?) wrote.data
  rw [List.getElem?_take_of_lt (by simp), List.getElem?_append_right (by omega), front,
    Nat.sub_self] at there
  exact there

theorem reverse_behind {b b' : RawBuffer size} {p q : Nat} (reversed : b.reverse p q = .ok b') :
    b'.data[q]? = b.data[q]? := by
  unfold reverse at reversed
  split_ifs at reversed with range
  obtain rfl := Except.ok.inj reversed
  have length : (b.data.take p ++ ((b.data.take q).drop p).reverse).length = q := by
    simp [b.sized]
    omega
  dsimp only
  rw [List.getElem?_append_right (by omega), length, Nat.sub_self, List.getElem?_drop, Nat.add_zero]

theorem close_wrote {b b' : RawBuffer size} {p : Nat} {bytes : Bytes} (wrote : Wrote b b' p bytes)
    (room : p + bytes.length < size) :
    ∃ b₁ b₂, b'.store (p + bytes.length) 0 = .ok b₁ ∧ b₁.reverse p (p + bytes.length) = .ok b₂ ∧
      Wrote b b₂ p bytes.reverse ∧ b₂.data[p + bytes.length]? = some 0 := by
  obtain ⟨b₁, stored, nul⟩ := store_wrote b' 0 room
  have kept : Wrote b b₁ p bytes := (wrote.append nul rfl).shorten (by omega)
  obtain ⟨b₂, reversed, done⟩ := reverse_wrote kept (Nat.le_of_lt room)
  exact ⟨b₁, b₂, stored, reversed, done, (reverse_behind reversed).trans (nul.byte room)⟩

theorem convert_wrote (b : RawBuffer size) {buf : Nat} {value : Int}
    (room : buf + (integerText value).length < size) :
    ∃ b', b.convert buf value = .ok (b', (integerText value).length) ∧
      Wrote b b' buf (integerText value) ∧ b'.data[buf + (integerText value).length]? = some 0 := by
  have digits := digitsOf_decimal (Nat.le_refl value.natAbs)
  have length := congrArg List.length digits
  rw [List.length_reverse] at length
  by_cases negative : value < 0
  · have shown : integerText value =
        (digitsOf kZero 10 value.natAbs value ++ [45]).reverse := by
      rw [integerText, if_pos negative, List.reverse_append, digits]
      rfl
    have total := congrArg List.length shown
    rw [List.length_reverse] at total
    rw [total, List.length_append, List.length_singleton] at room
    have inside : buf + (digitsOf kZero 10 value.natAbs value).length < size := by omega
    obtain ⟨b₁, looped, wrote⟩ := digitLoop_wrote kZero 10 b (Nat.le_of_lt inside)
    obtain ⟨b₂, stored, sign⟩ := store_wrote b₁ 45 inside
    obtain ⟨b₃, b₄, nul, reversed, done, closed⟩ := close_wrote (wrote.append sign rfl) (by
      rw [List.length_append, List.length_singleton]
      omega)
    rw [List.length_append, List.length_singleton, ← Nat.add_assoc] at nul reversed closed
    refine ⟨b₄, ?_, shown ▸ done, by
      rwa [total, List.length_append, List.length_singleton, ← Nat.add_assoc]⟩
    rw [total, List.length_append, List.length_singleton]
    simp only [convert, looped, negative, if_true, bind, Except.bind, stored, pure, Except.pure, nul,
      reversed]
    congr 2
    omega
  · have shown : integerText value = (digitsOf kZero 10 value.natAbs value).reverse := by
      rw [integerText, if_neg negative, digits, List.nil_append]
    have total := congrArg List.length shown
    rw [List.length_reverse] at total
    rw [total] at room
    obtain ⟨b₁, looped, wrote⟩ := digitLoop_wrote kZero 10 b (Nat.le_of_lt room)
    obtain ⟨b₂, b₃, nul, reversed, done, closed⟩ := close_wrote wrote room
    refine ⟨b₃, ?_, shown ▸ done, total ▸ closed⟩
    rw [total]
    simp only [convert, looped, negative, if_false, bind, Except.bind, pure, Except.pure, nul,
      reversed]
    congr 2
    omega

theorem convertHex_wrote (b : RawBuffer size) {buf v : Nat}
    (room : buf + (hexText v).length < size) :
    ∃ b', b.convertHex buf v = .ok (b', (hexText v).length) ∧ Wrote b b' buf (hexText v) ∧
      b'.data[buf + (hexText v).length]? = some 0 := by
  have total : (hexText v).length = (digitsOf kHexZero 16 v v).length := List.length_reverse
  rw [total] at room ⊢
  obtain ⟨b₁, looped, wrote⟩ := digitLoop_wrote kHexZero 16 b (Nat.le_of_lt room)
  obtain ⟨b₂, b₃, nul, reversed, done, closed⟩ := close_wrote wrote room
  refine ⟨b₃, ?_, done, closed⟩
  simp only [convertHex, looped, bind, Except.bind, pure, Except.pure, nul, reversed]
  congr 2
  omega

end RawBuffer

namespace Insertion

/-- The text of an argument. -/
def rendering : Insertion → Bytes
  | .bool v => text (if v then "1" else "0")
  | .short v => integerText v.toInt
  | .unsignedShort v => integerText v.toNat
  | .int v => integerText v.toInt
  | .unsignedInt v => integerText v.toNat
  | .long v => integerText v.toInt
  | .unsignedLong v => integerText v.toNat
  | .longLong v => integerText v.toInt
  | .unsignedLongLong v => integerText v.toNat
  | .pointer p => text "0x" ++ hexText p.toNat
  | .floating v => v.digits
  | .char v => [v]
  | .cString (some str) => cstr str
  | .cString none => text "(null)"
  | .string v => v

/-- The argument is formatted in place, where `kMaxNumericSize` bytes are free. -/
def formatted : Insertion → Bool
  | .bool _ | .char _ | .cString _ | .string _ => false
  | _ => true

end Insertion

namespace RawBuffer

variable {size : Nat}

/-- There is room for an argument. -/
def Admits (b : RawBuffer size) (i : Insertion) : Prop :=
  if i.formatted then kMaxNumericSize ≤ b.avail else (i.rendering.length : Int) < b.avail

/-- A string is taken for a shorter one that has room. -/
def Mistaken (b : RawBuffer size) (i : Insertion) : Prop :=
  i.formatted = false ∧ toInt i.rendering.length < b.avail ∧ b.avail ≤ i.rendering.length

theorem insert_append {i : Insertion} (b : RawBuffer size) (whole : i.formatted = false) :
    b.insert i = b.append i.rendering := by
  cases i with
  | cString str => cases str <;> rfl
  | bool | char | string => rfl
  | _ => cases whole

theorem append_dropped {b : RawBuffer size} {buf : Bytes} (full : b.avail ≤ toInt buf.length) :
    b.append buf = .ok b := by
  rw [append, if_neg (by omega)]
  rfl

theorem append_appended {b : RawBuffer size} {buf : Bytes} (room : (buf.length : Int) < b.avail) :
    ∃ b', b.append buf = .ok b' ∧ Appended b b' buf := by
  have test : b.avail > toInt buf.length := lt_of_le_of_lt (toInt_le _) room
  have inside : b.cur + buf.length < size := by
    simp only [avail] at room
    omega
  obtain ⟨b', copied, wrote⟩ := memcpy_wrote b (Nat.le_of_lt inside)
  refine ⟨b'.add buf.length, ?_, wrote.appended inside⟩
  rw [append, if_pos test, copied]
  rfl

theorem append_overrun {b : RawBuffer size} {buf : Bytes} (test : toInt buf.length < b.avail)
    (long : b.avail < buf.length) : b.append buf = .error .outsideData := by
  have outside : ¬ b.cur + buf.length ≤ size := by
    simp only [avail] at long
    omega
  rw [append, if_pos test, memcpy, dif_neg outside]
  rfl

theorem formatInteger_spec (b : RawBuffer size) {v : Int} (bound : v.natAbs < 10 ^ 20) :
    (b.avail < kMaxNumericSize → b.formatInteger v = .ok b) ∧
      (kMaxNumericSize ≤ b.avail →
        ∃ b', b.formatInteger v = .ok b' ∧ Appended b b' (integerText v)) := by
  constructor
  · intro full
    rw [formatInteger, if_neg (by omega)]
    rfl
  · intro room
    have short := integerText_length bound
    have inside : b.cur + (integerText v).length < size := by
      simp only [avail, kMaxNumericSize] at room
      omega
    obtain ⟨b', converted, wrote, -⟩ := convert_wrote b inside
    refine ⟨b'.add (integerText v).length, ?_, wrote.appended inside⟩
    rw [formatInteger, if_pos room, converted]
    rfl

theorem formatPointer_spec (b : RawBuffer size) {v : Nat} (bound : v < 16 ^ 16) :
    (b.avail < kMaxNumericSize → b.formatPointer v = .ok b) ∧
      (kMaxNumericSize ≤ b.avail →
        ∃ b', b.formatPointer v = .ok b' ∧ Appended b b' (text "0x" ++ hexText v)) := by
  constructor
  · intro full
    rw [formatPointer, if_neg (by omega)]
    rfl
  · intro room
    have short := hexText_length bound
    have front : text "0x" = [48] ++ [120] := by decide
    have length : (text "0x" ++ hexText v).length = (hexText v).length + 2 := by
      rw [front, List.length_append, Nat.add_comm]
      rfl
    have inside : b.cur + ((hexText v).length + 2) < size := by
      simp only [avail, kMaxNumericSize] at room
      omega
    obtain ⟨b₁, zero, wrote₁⟩ := store_wrote b 48 (p := b.cur) (by omega)
    obtain ⟨b₂, cross, wrote₂⟩ := store_wrote b₁ 120 (p := b.cur + 1) (by omega)
    have behind : b.cur + 2 + (hexText v).length < size := by omega
    obtain ⟨b₃, converted, wrote₃, -⟩ := convertHex_wrote b₂ behind
    have wrote : Wrote b b₃ b.cur (text "0x" ++ hexText v) := by
      rw [front]
      exact (wrote₁.append wrote₂ rfl).append wrote₃ rfl
    refine ⟨b₃.add ((hexText v).length + 2), ?_, ?_⟩
    · rw [formatPointer, if_pos room]
      simp only [zero, bind, Except.bind, cross, converted]
      rfl
    · rw [← length]
      exact wrote.appended (length.symm ▸ inside)

theorem insert_formatted (b : RawBuffer size) {i : Insertion} (numeric : i.formatted = true) :
    (b.avail < kMaxNumericSize → b.insert i = .ok b) ∧
      (kMaxNumericSize ≤ b.avail → ∃ b', b.insert i = .ok b' ∧ Appended b b' i.rendering) := by
  cases i with
  | bool | char | cString | string => cases numeric
  | short v =>
      exact b.formatInteger_spec (by have := v.toInt_lt; have := v.le_toInt; omega)
  | unsignedShort v => exact b.formatInteger_spec (by have := v.toNat_lt; omega)
  | int v =>
      exact b.formatInteger_spec (by have := v.toInt_lt; have := v.le_toInt; omega)
  | unsignedInt v => exact b.formatInteger_spec (by have := v.toNat_lt; omega)
  | long v | longLong v =>
      exact b.formatInteger_spec (by have := v.toInt_lt; have := v.le_toInt; omega)
  | unsignedLong v | unsignedLongLong v =>
      exact b.formatInteger_spec (by have := v.toNat_lt; omega)
  | pointer p => exact b.formatPointer_spec (by have := p.toNat_lt; omega)
  | floating v =>
      constructor
      · intro full
        simp only [insert]
        rw [if_neg (by omega)]
        rfl
      · intro room
        have short := v.short
        have inside : b.cur + (v.digits ++ [0]).length ≤ size := by
          simp only [avail, kMaxNumericSize, List.length_append, List.length_singleton] at *
          omega
        obtain ⟨b', copied, wrote⟩ := memcpy_wrote b inside
        have kept := wrote.shorten (by omega)
        refine ⟨b'.add v.digits.length, ?_, kept.appended ?_⟩
        · simp only [insert]
          rw [if_pos room, copied]
          rfl
        · simp only [List.length_append, List.length_singleton] at inside
          omega

theorem insert_admitted {b : RawBuffer size} {i : Insertion} (room : b.Admits i) :
    ∃ b', b.insert i = .ok b' ∧ Appended b b' i.rendering := by
  unfold Admits at room
  split_ifs at room with numeric
  · exact (b.insert_formatted numeric).2 room
  · rw [insert_append b (by simpa using numeric)]
    exact append_appended room

theorem insert_refused {b : RawBuffer size} {i : Insertion} (full : ¬ b.Admits i)
    (seen : ¬ b.Mistaken i) : b.insert i = .ok b := by
  unfold Admits at full
  split_ifs at full with numeric
  · exact (b.insert_formatted numeric).1 (by omega)
  · have whole : i.formatted = false := by simpa using numeric
    rw [insert_append b whole]
    apply append_dropped
    by_contra small
    exact seen ⟨whole, by omega, by omega⟩

theorem insert_mistaken {b : RawBuffer size} {i : Insertion} (small : size < 2 ^ 31)
    (mistaken : b.Mistaken i) : b.insert i = .error .outsideData := by
  obtain ⟨whole, test, long⟩ := mistaken
  rw [insert_append b whole]
  refine append_overrun test (lt_of_le_of_ne long fun same => ?_)
  have exact_length : toInt i.rendering.length = i.rendering.length := toInt_of_lt (by
    simp only [avail] at same
    omega)
  omega

theorem insertAll_append (b : RawBuffer size) (front back : List Insertion) :
    b.insertAll (front ++ back) = (b.insertAll front).bind fun b' => b'.insertAll back := by
  rw [insertAll, List.foldlM_append]
  rfl

theorem insertAll_singleton (b : RawBuffer size) (i : Insertion) : b.insertAll [i] = b.insert i := by
  simp only [insertAll, List.foldlM_cons, List.foldlM_nil]
  exact bind_pure (b.insert i)

theorem insert_inside {b b' : RawBuffer size} {i : Insertion} (small : size < 2 ^ 31)
    (inside : b.cur < size) (inserted : b.insert i = .ok b') : b'.cur < size := by
  by_cases mistaken : b.Mistaken i
  · rw [insert_mistaken small mistaken] at inserted
    cases inserted
  by_cases room : b.Admits i
  · obtain ⟨t, done, appended⟩ := insert_admitted room
    obtain rfl := Except.ok.inj (done.symm.trans inserted)
    exact appended.inside
  · obtain rfl := Except.ok.inj ((insert_refused room mistaken).symm.trans inserted)
    exact inside

theorem insertAll_inside {b b' : RawBuffer size} {insertions : List Insertion} (small : size < 2 ^ 31)
    (inside : b.cur < size) (inserted : b.insertAll insertions = .ok b') : b'.cur < size := by
  induction insertions generalizing b with
  | nil =>
      obtain rfl := Except.ok.inj inserted
      exact inside
  | cons i rest ih =>
      have parts := insertAll_append b [i] rest
      rw [List.singleton_append, insertAll_singleton, inserted] at parts
      cases first : b.insert i with
      | error e => simp [first, Except.bind] at parts
      | ok t =>
          rw [first] at parts
          exact ih (insert_inside small inside first) parts.symm

/-- What one more insertion does to the buffer `b`. -/
structure Kept (b : RawBuffer size) (i : Insertion) : Prop where
  written : ∃ b', b.insert i = .ok b'
  whole : ∀ b', b.insert i = .ok b' → i.formatted = false → Appended b b' i.rendering ∨ b' = b

/-- Some insertions stay inside `data_`, with `cur_` between its ends, and append whole strings. -/
def Bounded (b : RawBuffer size) (insertions : List Insertion) : Prop :=
  ∀ done, done <+: insertions → ∃ b', b.insertAll done = .ok b' ∧ b'.cur ≤ size ∧
    ∀ i, done ++ [i] <+: insertions → Kept b' i

theorem kept_iff {b : RawBuffer size} {i : Insertion} (small : size < 2 ^ 31) :
    Kept b i ↔ ¬ b.Mistaken i := by
  constructor
  · rintro ⟨⟨b', written⟩, -⟩ mistaken
    rw [insert_mistaken small mistaken] at written
    cases written
  · intro seen
    by_cases room : b.Admits i
    · obtain ⟨t, done, appended⟩ := insert_admitted room
      refine ⟨⟨t, done⟩, fun b' inserted _ => .inl ?_⟩
      exact Except.ok.inj (done.symm.trans inserted) ▸ appended
    · have refused := insert_refused room seen
      exact ⟨⟨b, refused⟩, fun b' inserted _ => .inr (Except.ok.inj (inserted.symm.trans refused))⟩

/-- Insertions into an empty `LogStream` are bounded exactly where no string among them is mistaken
    for a shorter one. -/
theorem insertAll_bounded_iff (memory : LogStream) (insertions : List Insertion) :
    memory.reset.Bounded insertions ↔
      ∀ done i, done ++ [i] <+: insertions →
        ∀ b, memory.reset.insertAll done = .ok b → ¬ b.Mistaken i := by
  have small : kSmallBuffer < 2 ^ 31 := by decide
  have start : memory.reset.cur < kSmallBuffer := by
    show 0 < kSmallBuffer
    decide
  constructor
  · intro bounded done i within b reached
    obtain ⟨t, inserted, -, next⟩ := bounded done ((List.prefix_append done [i]).trans within)
    obtain rfl := Except.ok.inj (inserted.symm.trans reached)
    exact (kept_iff small).1 (next i within)
  · intro seen done within
    have reached : ∃ b, memory.reset.insertAll done = .ok b := by
      induction done using List.reverseRecOn with
      | nil => exact ⟨_, rfl⟩
      | append_singleton done i ih =>
          obtain ⟨b, inserted⟩ := ih ((List.prefix_append done [i]).trans within)
          obtain ⟨b', next⟩ := ((kept_iff small).2 (seen done i within b inserted)).written
          exact ⟨b', by rw [insertAll_append, inserted, Except.bind, insertAll_singleton, next]⟩
    obtain ⟨b, inserted⟩ := reached
    exact ⟨b, inserted, Nat.le_of_lt (insertAll_inside small start inserted), fun i later =>
      (kept_iff small).2 (seen done i later b inserted)⟩

theorem long_string_overruns {bytes : Bytes} (size : bytes.length = 2 ^ 31) (memory : LogStream) :
    memory.reset.insertAll [.string bytes] = .error .outsideData := by
  have wrapped : toInt bytes.length = -2 ^ 31 := by
    rw [size]
    decide
  have room : memory.reset.avail = 4000 := rfl
  rw [insertAll_singleton]
  refine insert_mistaken (by decide) ⟨rfl, ?_, ?_⟩
  · show toInt bytes.length < memory.reset.avail
    rw [wrapped, room]
    decide
  · show memory.reset.avail ≤ bytes.length
    rw [room, size]
    decide

/-- An array of zeroes. -/
def zeroes : LogStream := ⟨List.replicate kSmallBuffer 0, List.length_replicate, 0⟩

theorem long_string_not_bounded :
    ¬ zeroes.reset.Bounded [.string (List.replicate (2 ^ 31) 65)] := by
  intro bounded
  obtain ⟨b, inserted, -⟩ := bounded _ (List.prefix_refl _)
  rw [long_string_overruns List.length_replicate zeroes] at inserted
  cases inserted

/-- The buffer by the bytes it holds. -/
def view (b : RawBuffer size) : FixedBuffer size :=
  ⟨b.content, by simp [content, b.sized]⟩

theorem append_view {b : RawBuffer size} {buf : Bytes} (inside : b.cur ≤ size)
    (short : buf.length < 2 ^ 31) :
    ∃ b', b.append buf = .ok b' ∧ b'.view = b.view.append buf ∧ b'.cur ≤ size := by
  have length : b.content.length = b.cur := by simpa [content, b.sized] using inside
  have room : buf.length < b.view.avail ↔ (buf.length : Int) < b.avail := by
    simp only [FixedBuffer.avail, view, length, avail]
    omega
  by_cases fits : (buf.length : Int) < b.avail
  · obtain ⟨b', appended, done⟩ := append_appended fits
    refine ⟨b', appended, ?_, Nat.le_of_lt done.inside⟩
    have data := FixedBuffer.append_data (room.2 fits)
    rw [FixedBuffer.mk.injEq]
    exact done.content.trans data.symm
  · refine ⟨b, append_dropped ?_, ?_, inside⟩
    · rw [toInt_of_lt short]
      omega
    · rw [FixedBuffer.append, dif_neg (fun less => fits (room.1 less))]

end RawBuffer

end WebServer
