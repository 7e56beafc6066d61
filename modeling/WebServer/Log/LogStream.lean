import WebServer.Log.AsyncLogging

/-! # The buffer behind `LogStream`

`FixedBuffer` with its whole array `data_`: a write outside the array ends the run. `Append` compares
the free space with the length as an `int`, the formatting of numbers asks for `kMaxNumericSize` free
bytes and writes where `cur_` points.
-/

namespace WebServer

open Lib

def kSmallBuffer : Nat := 4000

def kMaxNumericSize : Int := 32

/-- A byte is written outside `data_`. -/
inductive Overrun where
  | outsideData
  deriving Repr, DecidableEq

/-- `FixedBuffer<SIZE>` with the array `data_`; `cur` is the index of `cur_` in it. -/
structure RawBuffer (size : Nat) where
  data : Bytes
  sized : data.length = size
  cur : Nat
  deriving DecidableEq

def kDigits : Bytes := text "9876543210123456789"

def kHexDigits : Bytes := text "FEDCBA9876543210123456789ABCDEF"

/-- `kZero[lsd]`, where `kZero` is `kDigits + 9`. -/
def kZero (lsd : Int) : UInt8 := kDigits.getD (9 + lsd).toNat 0

/-- `kHexZero[lsd]`, where `kHexZero` is `kHexDigits + 15`. -/
def kHexZero (lsd : Int) : UInt8 := kHexDigits.getD (15 + lsd).toNat 0

namespace RawBuffer

variable {size : Nat}

/-- The constructor and `Reset`; the array keeps what it held. -/
def reset (b : RawBuffer size) : RawBuffer size := { b with cur := 0 }

/-- `Avail`, an `int` that holds the difference of the two pointers. -/
def avail (b : RawBuffer size) : Int := (size : Int) - b.cur

/-- `Add`. -/
def add (b : RawBuffer size) (len : Nat) : RawBuffer size := { b with cur := b.cur + len }

/-- The bytes between `data_` and `cur_`. -/
def content (b : RawBuffer size) : Bytes := b.data.take b.cur

/-- `*p = c`. -/
def store (b : RawBuffer size) (p : Nat) (c : UInt8) : Except Overrun (RawBuffer size) :=
  if p < size then .ok { b with data := b.data.set p c, sized := by simp [b.sized] }
  else .error .outsideData

/-- `memcpy(p, src, len)`. -/
def memcpy (b : RawBuffer size) (p : Nat) (src : Bytes) : Except Overrun (RawBuffer size) :=
  if room : p + src.length ≤ size then
    .ok { b with
      data := b.data.take p ++ src ++ b.data.drop (p + src.length)
      sized := by simp [b.sized]; omega }
  else .error .outsideData

/-- `std::reverse(p, q)`. -/
def reverse (b : RawBuffer size) (p q : Nat) : Except Overrun (RawBuffer size) :=
  if range : p ≤ q ∧ q ≤ size then
    .ok { b with
      data := b.data.take p ++ ((b.data.take q).drop p).reverse ++ b.data.drop q
      sized := by simp [b.sized]; omega }
  else .error .outsideData

/-- `Append`. -/
def append (b : RawBuffer size) (buf : Bytes) : Except Overrun (RawBuffer size) :=
  if b.avail > toInt buf.length then do
    let b ← b.memcpy b.cur buf
    return b.add buf.length
  else return b

/-- The loop of `convert` and `ConvertHex`: one digit at `p` and the others behind it. It runs at
    most once for each unit of `i`. -/
def digitLoop (zero : Int → UInt8) (base : Int) :
    Nat → (i : Int) → (p : Nat) → RawBuffer size → Except Overrun (RawBuffer size × Nat)
  | 0, i, p, b => do
      let b ← b.store p (zero (i.tmod base))
      return (b, p + 1)
  | fuel + 1, i, p, b => do
      let b ← b.store p (zero (i.tmod base))
      if i.tdiv base ≠ 0 then digitLoop zero base fuel (i.tdiv base) (p + 1) b
      else return (b, p + 1)

/-- `convert(buf, value)`, at the index `buf`. -/
def convert (b : RawBuffer size) (buf : Nat) (value : Int) :
    Except Overrun (RawBuffer size × Nat) := do
  let (b, p) ← digitLoop kZero 10 value.natAbs value buf b
  let (b, p) ← if value < 0 then do
      let b ← b.store p 45
      pure (b, p + 1)
    else pure (b, p)
  let b ← b.store p 0
  let b ← b.reverse buf p
  return (b, p - buf)

/-- `ConvertHex(buf, v)`. -/
def convertHex (b : RawBuffer size) (buf v : Nat) : Except Overrun (RawBuffer size × Nat) := do
  let (b, p) ← digitLoop kHexZero 16 v v buf b
  let b ← b.store p 0
  let b ← b.reverse buf p
  return (b, p - buf)

/-- `FormatInteger`. -/
def formatInteger (b : RawBuffer size) (v : Int) : Except Overrun (RawBuffer size) :=
  if b.avail ≥ kMaxNumericSize then do
    let (b, len) ← b.convert b.cur v
    return b.add len
  else return b

/-- `operator<<(const void*)`. -/
def formatPointer (b : RawBuffer size) (v : Nat) : Except Overrun (RawBuffer size) :=
  if b.avail ≥ kMaxNumericSize then do
    let buf := b.cur
    let b ← b.store buf 48
    let b ← b.store (buf + 1) 120
    let (b, len) ← b.convertHex (buf + 2) v
    return b.add (len + 2)
  else return b

end RawBuffer

/-- What `snprintf` makes of a floating-point number under `%.12g`: fewer than
    `kMaxNumericSize` bytes. -/
structure Rendered where
  digits : Bytes
  short : (digits.length : Int) < kMaxNumericSize

/-- An argument of `<<`. -/
inductive Insertion where
  | bool (v : Bool)
  | short (v : Int16)
  | unsignedShort (v : UInt16)
  | int (v : Int32)
  | unsignedInt (v : UInt32)
  | long (v : Int64)
  | unsignedLong (v : UInt64)
  | longLong (v : Int64)
  | unsignedLongLong (v : UInt64)
  | pointer (p : UInt64)
  /-- `float`, `double` or `long double`. -/
  | floating (v : Rendered)
  | char (v : UInt8)
  /-- `const char*`, which may be null. -/
  | cString (str : Option Bytes)
  | string (v : Bytes)

/-- `LogStream`. -/
abbrev LogStream := RawBuffer kSmallBuffer

namespace RawBuffer

variable {size : Nat}

/-- `operator<<`. -/
def insert (b : RawBuffer size) : Insertion → Except Overrun (RawBuffer size)
  | .bool v => b.append (text (if v then "1" else "0"))
  | .short v => b.formatInteger v.toInt
  | .unsignedShort v => b.formatInteger v.toNat
  | .int v => b.formatInteger v.toInt
  | .unsignedInt v => b.formatInteger v.toNat
  | .long v => b.formatInteger v.toInt
  | .unsignedLong v => b.formatInteger v.toNat
  | .longLong v => b.formatInteger v.toInt
  | .unsignedLongLong v => b.formatInteger v.toNat
  | .pointer p => b.formatPointer p.toNat
  | .floating v =>
      if b.avail ≥ kMaxNumericSize then do
        let b ← b.memcpy b.cur (v.digits ++ [0])
        return b.add v.digits.length
      else return b
  | .char v => b.append [v]
  | .cString (some str) => b.append (cstr str)
  | .cString none => b.append (text "(null)")
  | .string v => b.append v

/-- Several insertions, one after the other. -/
def insertAll (b : RawBuffer size) (insertions : List Insertion) :
    Except Overrun (RawBuffer size) :=
  insertions.foldlM insert b

end RawBuffer

end WebServer
