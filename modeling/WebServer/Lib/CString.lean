import WebServer.Lib.ByteString

/-! # C strings in arrays

A `char` array has a fixed size and holds a string at its start. `strcpy`, `strcat` and `strncpy` do
not know the size: here they fault where they write behind the array, and what reads a string faults
where the array has no room for its terminating NUL.
-/

namespace WebServer.Lib

/-- A `char` array of this size: the bytes before its first NUL, or all of them. -/
structure CharArray (size : Nat) where
  content : Bytes
  within : content.length ≤ size
  deriving DecidableEq

/-- An access behind the end of an array. -/
inductive OutOfBounds where
  | write
  | read
  deriving Repr, DecidableEq

namespace CharArray

variable {size : Nat} {a : CharArray size} {s : Bytes}

/-- After `memset` to zero. -/
def zeroed (size : Nat) : CharArray size := ⟨[], Nat.zero_le size⟩

/-- The string as a function reads it. -/
def string (a : CharArray size) : Except OutOfBounds Bytes :=
  if a.content.length < size then .ok a.content else .error .read

def strcpy (_ : CharArray size) (s : Bytes) : Except OutOfBounds (CharArray size) :=
  if fits : s.length < size then .ok ⟨s, Nat.le_of_lt fits⟩ else .error .write

def strcat (a : CharArray size) (s : Bytes) : Except OutOfBounds (CharArray size) := do
  let start ← a.string
  a.strcpy (start ++ s)

theorem take_within (s : Bytes) {n : Nat} (fits : n ≤ size) : (s.take n).length ≤ size :=
  Nat.le_trans (List.length_take_le n s) fits

/-- `strncpy` of `n` bytes into an array of zeros; it writes no NUL of its own behind `n` bytes. -/
def strncpy (_ : CharArray size) (s : Bytes) (n : Nat) : Except OutOfBounds (CharArray size) :=
  if fits : n ≤ size then .ok ⟨s.take n, take_within s fits⟩ else .error .write

/-- The digits that `atoi` takes, and what is left behind them. -/
def atoiDigits (s : Bytes) : Bytes × Bytes :=
  (splitSign (s.dropWhile isSpace)).2.span isDigit

/-- `atoi` of a number that fits; it reads up to the first byte that is no digit. -/
def atoi (a : CharArray size) : Except OutOfBounds Int :=
  let (digits, left) := atoiDigits a.content
  if left = [] ∧ a.content.length = size then .error .read
  else if (splitSign (a.content.dropWhile isSpace)).1 then .ok (-(digitsValue digits : Int))
  else .ok (digitsValue digits)

/-- A `strcat` under a condition. -/
def strcatIf (a : CharArray size) (p : Prop) [Decidable p] (s : Bytes) :
    Except OutOfBounds (CharArray size) := if p then a.strcat s else .ok a

theorem strcat_ok (room : a.content.length + s.length < size) :
    ∃ b, a.strcat s = .ok b ∧ b.content = a.content ++ s ∧
      b.content.length = a.content.length + s.length := by
  have terminated : a.content.length < size := by omega
  have whole : (a.content ++ s).length < size := by rwa [List.length_append]
  unfold strcat string strcpy
  rw [if_pos terminated]
  exact ⟨_, dif_pos whole, rfl, List.length_append⟩

theorem strcatIf_ok {p : Prop} [Decidable p] (room : a.content.length + s.length < size) :
    ∃ b, a.strcatIf p s = .ok b ∧ (b.content = a.content ++ if p then s else []) ∧
      b.content.length ≤ a.content.length + s.length := by
  unfold strcatIf
  split_ifs
  · obtain ⟨b, cat, content, length⟩ := strcat_ok room
    exact ⟨b, cat, content, Nat.le_of_eq length⟩
  · exact ⟨a, rfl, (List.append_nil _).symm, Nat.le_add_right ..⟩

theorem string_ok (terminated : a.content.length < size) : a.string = .ok a.content :=
  if_pos terminated

theorem strncpy_append {n : Nat} (rest : Bytes) (whole : n = s.length) : a.strncpy (s ++ rest) n =
    if fits : s.length ≤ size then .ok ⟨s, fits⟩ else .error .write := by
  subst whole
  unfold strncpy
  split_ifs with fits
  · simp only [List.take_left]
  · rfl

theorem atoi_ok_iff : (∃ n, a.atoi = .ok n) ↔
    ¬ ((atoiDigits a.content).2 = [] ∧ a.content.length = size) := by
  unfold atoi
  dsimp only
  split_ifs with stuck
  · exact iff_of_false nofun (not_not_intro stuck)
  · exact iff_of_true ⟨_, rfl⟩ stuck
  · exact iff_of_true ⟨_, rfl⟩ stuck

end CharArray

end WebServer.Lib
