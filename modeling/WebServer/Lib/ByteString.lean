import Mathlib.Data.List.Infix
import Mathlib.Data.List.TakeWhile
import Mathlib.Tactic.NormNum

/-! # Byte strings with the C++ library's meaning

`std::string` as a list of bytes, with the members a parser uses: `find`, `substr`, the
iterator-range constructor and `stoi`. Positions are `size_t`, so they wrap modulo `2 ^ 64` and a
failed search yields `npos`; conversions to `int` are explicit. A call that does not return
normally yields a `Fault`.
-/

namespace WebServer.Lib

abbrev Bytes := List UInt8

/-- The bytes of a source literal (UTF-8, as in the source files). -/
def text (s : String) : Bytes := s.toList.flatMap String.utf8EncodeChar

/-- The bytes before the terminating NUL, as `c_str()` hands them to a C function. -/
def cstr (s : Bytes) : Bytes := s.takeWhile (· ≠ 0)

/-- `std::to_string` of an unsigned number. -/
def decimal (n : Nat) : Bytes := text (Nat.repr n)

/-- The standard library's exceptions that can be raised here. -/
inductive Exception where
  | outOfRange
  | lengthError
  | invalidArgument
  deriving Repr, DecidableEq

/-- Why a call does not return normally. -/
inductive Fault where
  /-- An exception leaves the call. -/
  | thrown (e : Exception)
  /-- A range outside the string is read. -/
  | outOfBounds
  deriving Repr, DecidableEq

/-- `std::string::npos`. -/
def npos : Nat := 2 ^ 64 - 1

/-- An integer as `size_t`. -/
def sizeT (n : Int) : Nat := (n % 2 ^ 64).toNat

/-- `static_cast<int>` of a `size_t`. -/
def toInt (n : Nat) : Int :=
  let low : Nat := n % 2 ^ 32
  if low < 2 ^ 31 then low else (low : Int) - 2 ^ 32

theorem sizeT_natCast {n : Nat} (small : n < 2 ^ 64) : sizeT n = n := by
  norm_num [sizeT] at small ⊢
  omega

@[simp] theorem sizeT_npos_succ : sizeT (npos + 1 : Int) = 0 := by
  norm_num [sizeT, npos]

theorem toInt_of_lt {n : Nat} (small : n < 2 ^ 31) : toInt n = n := by
  simp only [toInt]
  omega

@[simp] theorem toInt_npos : toInt npos = -1 := by
  norm_num [toInt, npos]

theorem toInt_le (n : Nat) : toInt n ≤ n := by
  simp only [toInt]
  split <;> omega

/-- The first index at which `pat` occurs. -/
def search (pat : Bytes) : Bytes → Option Nat
  | [] => if pat.isEmpty then some 0 else none
  | c :: cs => if pat.isPrefixOf (c :: cs) then some 0 else (search pat cs).map (· + 1)

/-- `s.find(pat, pos)`. -/
def find (s pat : Bytes) (pos : Nat) : Nat :=
  match search pat (s.drop pos) with
  | some k => pos + k
  | none => npos

theorem search_append {pat s : Bytes} {k : Nat} (found : search pat s = some k) :
    ∃ before after, s = before ++ pat ++ after ∧ before.length = k := by
  induction s generalizing k with
  | nil =>
      simp only [search] at found
      split at found
      · rename_i empty
        obtain rfl := List.isEmpty_iff.mp empty
        exact ⟨[], [], by simp, by simpa using found⟩
      · simp at found
  | cons c cs ih =>
      simp only [search] at found
      split at found
      · rename_i here
        obtain ⟨after, rest⟩ := List.isPrefixOf_iff_prefix.mp here
        exact ⟨[], after, by simpa using rest.symm, by simpa using found⟩
      · obtain ⟨j, later, rfl⟩ := Option.map_eq_some_iff.mp found
        obtain ⟨before, after, rfl, rfl⟩ := ih later
        exact ⟨c :: before, after, by simp, by simp⟩

theorem search_le {pat s : Bytes} {k : Nat} (found : search pat s = some k) :
    k + pat.length ≤ s.length := by
  obtain ⟨before, after, rfl, rfl⟩ := search_append found
  simp only [List.length_append]
  omega

theorem search_of_infix {pat s : Bytes} (inside : pat <:+: s) : search pat s ≠ none := by
  induction s with
  | nil => simp [search, List.infix_nil.mp inside]
  | cons c cs ih =>
      simp only [search]
      split
      · exact Option.some_ne_none 0
      · rename_i elsewhere
        rw [List.isPrefixOf_iff_prefix] at elsewhere
        have later := (List.infix_cons_iff.mp inside).resolve_left elsewhere
        simpa using ih later

theorem search_eq_none {pat s : Bytes} : search pat s = none ↔ ¬ pat <:+: s := by
  constructor
  · intro absent inside
    exact search_of_infix inside absent
  · intro absent
    cases found : search pat s with
    | none => rfl
    | some k =>
        obtain ⟨before, after, rfl, -⟩ := search_append found
        exact absurd (List.infix_append before pat after) absent

/-- A pattern without the byte `c` does not occur across it. -/
theorem infix_beside {pat front back : Bytes} {c : UInt8} (free : c ∉ pat)
    (inside : pat <:+: front ++ c :: back) : pat <:+: front ∨ pat <:+: back := by
  induction front with
  | nil =>
      rcases List.infix_cons_iff.mp inside with ⟨rest, here⟩ | later
      · cases pat with
        | nil => exact .inl List.infix_rfl
        | cons d pat =>
            rw [List.cons_append] at here
            obtain ⟨rfl, -⟩ := List.cons.inj here
            exact absurd List.mem_cons_self free
      · exact .inr later
  | cons d front ih =>
      rcases List.infix_cons_iff.mp inside with ⟨rest, here⟩ | later
      · have here : pat ++ rest = (d :: front) ++ c :: back := here
        rcases List.append_eq_append_iff.mp here with ⟨gap, longer, -⟩ | ⟨gap, longer, tail⟩
        · exact .inl ⟨[], gap, longer.symm⟩
        · cases gap with
          | nil =>
              rw [List.append_nil] at longer
              exact .inl (longer ▸ List.infix_rfl)
          | cons e gap =>
              rw [List.cons_append] at tail
              obtain ⟨rfl, -⟩ := List.cons.inj tail
              rw [longer] at free
              exact absurd (List.mem_append_right _ List.mem_cons_self) free
      · exact (ih later).imp List.infix_cons id

theorem search_byte_absent {c : UInt8} {s : Bytes} (absent : c ∉ s) : search [c] s = none := by
  induction s with
  | nil => rfl
  | cons d ds ih =>
      simp only [List.mem_cons, not_or] at absent
      simp [search, ih absent.2, absent.1]

theorem search_byte {c : UInt8} {before : Bytes} (after : Bytes) (absent : c ∉ before) :
    search [c] (before ++ c :: after) = some before.length := by
  induction before with
  | nil => simp [search]
  | cons d ds ih =>
      simp only [List.mem_cons, not_or] at absent
      simp [search, ih absent.2, absent.1]

theorem search_byte_cases (c : UInt8) (s : Bytes) :
    (search [c] s = none ∧ c ∉ s) ∨
      ∃ before after, s = before ++ c :: after ∧ c ∉ before ∧
        search [c] s = some before.length := by
  by_cases present : c ∈ s
  · obtain ⟨before, after, rfl, first⟩ := List.eq_append_cons_of_mem present
    exact .inr ⟨before, after, rfl, first, search_byte after first⟩
  · exact .inl ⟨search_byte_absent present, present⟩

theorem find_of_search_none {s pat : Bytes} {pos : Nat} (absent : search pat (s.drop pos) = none) :
    find s pat pos = npos := by
  simp only [find, absent]

theorem find_of_search_some {s pat : Bytes} {pos k : Nat}
    (found : search pat (s.drop pos) = some k) : find s pat pos = pos + k := by
  simp only [find, found]

/-- A search fails, or ends at a position at or after `pos` with the pattern inside the string. -/
theorem find_cases (s pat : Bytes) (pos : Nat) :
    find s pat pos = npos ∨
      (pos ≤ find s pat pos ∧ (pat ≠ [] → find s pat pos + pat.length ≤ s.length)) := by
  cases found : search pat (s.drop pos) with
  | none => exact .inl (find_of_search_none found)
  | some k =>
      right
      rw [find_of_search_some found]
      have inside := search_le found
      rw [List.length_drop] at inside
      refine ⟨by omega, fun nonempty => ?_⟩
      have := List.length_pos_iff.mpr nonempty
      omega

theorem find_byte_absent {s : Bytes} {c : UInt8} (pos : Nat) (absent : c ∉ s) :
    find s [c] pos = npos :=
  find_of_search_none (search_byte_absent fun here => absent (List.mem_of_mem_drop here))

theorem find_byte {c : UInt8} {before : Bytes} (after : Bytes) (absent : c ∉ before) :
    find (before ++ c :: after) [c] 0 = before.length := by
  rw [find_of_search_some (by simpa using search_byte after absent), Nat.zero_add]

/-- Where a byte is found, the string can be cut. -/
theorem find_byte_cut (s : Bytes) (c : UInt8) (pos : Nat) :
    find s [c] pos = npos ∨
      ∃ front back, s = front ++ c :: back ∧ find s [c] pos = front.length ∧ pos ≤ front.length := by
  rcases search_byte_cases c (s.drop pos) with ⟨absent, -⟩ | ⟨before, after, cut, -, found⟩
  · exact .inl (find_of_search_none absent)
  · right
    have inside : pos ≤ s.length := by
      have length := congrArg List.length cut
      rw [List.length_drop, List.length_append, List.length_cons] at length
      omega
    refine ⟨s.take pos ++ before, after, ?_, ?_, ?_⟩
    · rw [List.append_assoc, ← cut, List.take_append_drop]
    · rw [find_of_search_some found, List.length_append, List.length_take, Nat.min_eq_left inside]
    · rw [List.length_append, List.length_take, Nat.min_eq_left inside]
      omega

theorem find_byte_drop {c : UInt8} {s before after : Bytes} {pos : Nat}
    (cut : s.drop pos = before ++ c :: after) (absent : c ∉ before) :
    find s [c] pos = pos + before.length :=
  find_of_search_some (cut ▸ search_byte after absent)

theorem find_byte_drop_absent {c : UInt8} {s : Bytes} {pos : Nat} (absent : c ∉ s.drop pos) :
    find s [c] pos = npos :=
  find_of_search_none (search_byte_absent absent)

/-- The bytes before the first `c`, or all of them. -/
def upTo (c : UInt8) (s : Bytes) : Bytes := s.takeWhile (· ≠ c)

theorem upTo_absent {c : UInt8} {s : Bytes} (absent : c ∉ s) : upTo c s = s :=
  List.takeWhile_eq_self_iff.mpr fun d there => by
    simpa using fun (same : d = c) => absent (same ▸ there)

theorem upTo_cut {c : UInt8} {before : Bytes} (after : Bytes) (absent : c ∉ before) :
    upTo c (before ++ c :: after) = before := by
  have front : ∀ d ∈ before, (decide (d ≠ c)) = true := fun d there => by
    simpa using fun (same : d = c) => absent (same ▸ there)
  unfold upTo
  rw [List.takeWhile_append_of_pos front, List.takeWhile_cons_of_neg (by simp), List.append_nil]

theorem dropWhile_absent {c : UInt8} {s : Bytes} (absent : c ∉ s) : s.dropWhile (· ≠ c) = [] :=
  List.dropWhile_eq_nil_iff.mpr fun d there => by
    simpa using fun (same : d = c) => absent (same ▸ there)

theorem dropWhile_cut {c : UInt8} {before : Bytes} (after : Bytes) (absent : c ∉ before) :
    (before ++ c :: after).dropWhile (· ≠ c) = c :: after := by
  have front : ∀ d ∈ before, (decide (d ≠ c)) = true := fun d there => by
    simpa using fun (same : d = c) => absent (same ▸ there)
  rw [List.dropWhile_append_of_pos front, List.dropWhile_cons_of_neg (by simp)]

/-- Two cuts of one string at different bytes, in order. -/
theorem cut_before_cut {c d : UInt8} {x y u v : Bytes} (same : x ++ c :: y = u ++ d :: v)
    (other : c ≠ d) (order : x.length ≤ u.length) : ∃ z, u = x ++ c :: z ∧ y = z ++ d :: v := by
  rcases List.append_eq_append_iff.mp same with ⟨rest, longer, tail⟩ | ⟨rest, longer, tail⟩
  · cases rest with
    | nil => exact absurd (List.cons.inj tail).1 other
    | cons e rest =>
        obtain ⟨rfl, later⟩ := List.cons.inj tail
        exact ⟨rest, longer, later⟩
  · cases rest with
    | nil => exact absurd (List.cons.inj tail).1.symm other
    | cons e rest =>
        rw [longer, List.length_append, List.length_cons] at order
        omega

/-- Two cuts of one string at the same byte, where the second is the first such place. -/
theorem cut_eq_cut {c : UInt8} {x y u v : Bytes} (same : x ++ c :: y = u ++ c :: v) (first : c ∉ u) :
    (x = u ∧ y = v) ∨ ∃ x', x = u ++ c :: x' ∧ v = x' ++ c :: y := by
  rcases List.append_eq_append_iff.mp same with ⟨rest, longer, tail⟩ | ⟨rest, longer, tail⟩
  · cases rest with
    | nil =>
        rw [List.append_nil] at longer
        exact .inl ⟨longer.symm, (List.cons.inj tail).2⟩
    | cons d rest =>
        obtain ⟨rfl, -⟩ := List.cons.inj tail
        rw [longer] at first
        exact absurd (List.mem_append_right _ List.mem_cons_self) first
  · cases rest with
    | nil =>
        rw [List.append_nil] at longer
        exact .inl ⟨longer, (List.cons.inj tail).2.symm⟩
    | cons d rest =>
        obtain ⟨rfl, later⟩ := List.cons.inj tail
        exact .inr ⟨rest, longer, later⟩

/-- `s.substr(pos, n)`. -/
def substr (s : Bytes) (pos n : Nat) : Except Fault Bytes :=
  if pos ≤ s.length then .ok ((s.drop pos).take n) else .error (.thrown .outOfRange)

/-- `std::string(s.begin() + first, s.begin() + last)`. -/
def slice (s : Bytes) (first last : Int) : Except Fault Bytes :=
  if last < first then .error (.thrown .lengthError)
  else if first < 0 ∨ (s.length : Int) < last then .error .outOfBounds
  else .ok ((s.drop first.toNat).take (last - first).toNat)

@[simp] theorem substr_zero (s : Bytes) (n : Nat) : substr s 0 n = .ok (s.take n) := by
  simp [substr]

theorem substr_of_le {s : Bytes} {pos : Nat} (n : Nat) (inside : pos ≤ s.length) :
    substr s pos n = .ok ((s.drop pos).take n) := if_pos inside

theorem substr_npos {s : Bytes} {pos : Nat} (inside : pos ≤ s.length) (short : s.length ≤ npos) :
    substr s pos npos = .ok (s.drop pos) := by
  rw [substr_of_le npos inside, List.take_of_length_le]
  rw [List.length_drop]
  omega

theorem substr_suffix {s t : Bytes} {pos : Nat} (cut : substr s pos npos = .ok t) :
    t.length ≤ s.length - pos := by
  rw [substr] at cut
  split at cut
  · rw [← Except.ok.inj cut, List.length_take, List.length_drop]
    omega
  · cases cut

theorem slice_append (before mid after : Bytes) :
    slice (before ++ mid ++ after) before.length (before.length + mid.length : Nat) = .ok mid := by
  have ordered : ¬ ((before.length + mid.length : Nat) : Int) < before.length := by omega
  have inside : ¬ ((before.length : Int) < 0 ∨
      ((before ++ mid ++ after).length : Int) < (before.length + mid.length : Nat)) := by
    simp only [List.length_append]
    omega
  rw [slice, if_neg ordered, if_neg inside]
  simp

def isSpace (c : UInt8) : Bool := c == 32 || (9 ≤ c && c ≤ 13)

def isDigit (c : UInt8) : Bool := 48 ≤ c && c ≤ 57

/-- The value of a run of decimal digits. -/
def digitsValue (ds : Bytes) : Nat := ds.foldl (fun n d => n * 10 + (d.toNat - 48)) 0

/-- An optional sign and what follows it. -/
def splitSign : Bytes → Bool × Bytes
  | 45 :: rest => (true, rest)
  | 43 :: rest => (false, rest)
  | rest => (false, rest)

/-- `std::stoi(s)`: leading white space, an optional sign, then the longest run of digits. -/
def stoi (s : Bytes) : Except Fault Int :=
  let (negative, rest) := splitSign (s.dropWhile isSpace)
  let ds := rest.takeWhile isDigit
  if ds.isEmpty then .error (.thrown .invalidArgument)
  else
    let value : Int := if negative then -(digitsValue ds : Int) else digitsValue ds
    if -2 ^ 31 ≤ value ∧ value < 2 ^ 31 then .ok value else .error (.thrown .outOfRange)

theorem stoi_fault {s : Bytes} {e : Fault} (failed : stoi s = .error e) :
    e = .thrown .invalidArgument ∨ e = .thrown .outOfRange := by
  unfold stoi at failed
  dsimp only at failed
  split_ifs at failed <;> cases failed
  · exact .inl rfl
  · exact .inr rfl
  · exact .inr rfl

example : stoi (text " -12x") = .ok (-12) := by decide

example : stoi (text "x") = .error (.thrown .invalidArgument) := by decide

theorem decimal_cases (n : Nat) :
    (∃ d, d < 10 ∧ n = d ∧ decimal n = [UInt8.ofNat (48 + d)]) ∨
      ∃ m d, m < n ∧ d < 10 ∧ n = m * 10 + d ∧ decimal n = decimal m ++ [UInt8.ofNat (48 + d)] := by
  have small : ∀ d < 10, decimal d = [UInt8.ofNat (48 + d)] := by decide
  by_cases low : n < 10
  · exact .inl ⟨n, low, rfl, small n low⟩
  · refine .inr ⟨n / 10, n % 10, by omega, by omega, by omega, ?_⟩
    rw [← small (n % 10) (by omega)]
    unfold decimal text
    rw [Nat.repr_eq_repr_append_repr (by omega), String.toList_append, List.flatMap_append]

theorem digit_byte : ∀ d < 10, isDigit (UInt8.ofNat (48 + d)) = true ∧
    (UInt8.ofNat (48 + d)).toNat - 48 = d := by decide

theorem decimal_ne_nil (n : Nat) : decimal n ≠ [] := by
  rcases decimal_cases n with ⟨d, -, -, digits⟩ | ⟨m, d, -, -, -, digits⟩ <;> simp [digits]

theorem decimal_isDigit (n : Nat) : ∀ c ∈ decimal n, isDigit c = true := by
  induction n using Nat.strong_induction_on with
  | _ n ih =>
      rcases decimal_cases n with ⟨d, low, -, digits⟩ | ⟨m, d, less, low, -, digits⟩
      · simpa [digits] using (digit_byte d low).1
      · intro c there
        rw [digits] at there
        rcases List.mem_append.mp there with front | last
        · exact ih m less c front
        · exact List.mem_singleton.mp last ▸ (digit_byte d low).1

theorem digitsValue_decimal (n : Nat) : digitsValue (decimal n) = n := by
  induction n using Nat.strong_induction_on with
  | _ n ih =>
      rcases decimal_cases n with ⟨d, low, same, digits⟩ | ⟨m, d, less, low, same, digits⟩
      · rw [digits, digitsValue, List.foldl_cons, List.foldl_nil, Nat.zero_mul, Nat.zero_add,
          (digit_byte d low).2, same]
      · have front := ih m less
        unfold digitsValue at front
        rw [digits, digitsValue, List.foldl_append, front, List.foldl_cons, List.foldl_nil,
          (digit_byte d low).2, same]

end WebServer.Lib
