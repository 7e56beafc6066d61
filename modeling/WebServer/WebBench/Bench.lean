import Mathlib.Algebra.BigOperators.Group.List.Basic
import WebServer.WebBench.BenchCore

/-! # The report of the benchmark

Each child writes its counters to a pipe as a line of text, in one piece. The parent reads as many
lines as there are children. It holds the pipe's other end itself, so it never comes to its end: where
a line is missing, it waits.
-/

namespace WebServer.WebBench

open Lib

/-- The counters of a child, or their sums. -/
structure Counters where
  speed : Int
  failed : Int
  bytes : Int
  deriving DecidableEq

namespace Counters

def zero : Counters := ⟨0, 0, 0⟩

def add (t c : Counters) : Counters :=
  ⟨addInt t.speed c.speed, addInt t.failed c.failed, addInt t.bytes c.bytes⟩

end Counters

/-- A number as `%d` prints it. -/
def printInt (n : Int) : Bytes :=
  if n < 0 then 45 :: decimal n.natAbs else decimal n.natAbs

/-- What a child writes. -/
def Counters.line (c : Counters) : Bytes :=
  printInt c.speed ++ SPACE :: (printInt c.failed ++ SPACE :: (printInt c.bytes ++ [LF]))

/-- What `%d` finds in what is left in the pipe. -/
inductive Scan where
  /-- It waits for more. -/
  | waits
  | mismatch
  | value (n : Int) (rest : Bytes)

/-- `%d`: a number ends at a byte that is no digit. -/
def scanInt (s : Bytes) : Scan :=
  let (negative, body) := splitSign (s.dropWhile isSpace)
  match body.dropWhile isDigit with
  | [] => .waits
  | c :: rest =>
      let digits := body.takeWhile isDigit
      if digits = [] then .mismatch
      else .value (if negative then -(digitsValue digits : Int) else digitsValue digits) (c :: rest)

/-- The number of values that `fscanf` finds, the last of `i`, `j` and `k` with them, and what is left;
    unless it waits. -/
def fscanf (s : Bytes) (k : Int) : Option (Nat × Counters × Bytes) :=
  match scanInt s with
  | .waits => none
  | .mismatch => some (0, ⟨0, 0, k⟩, s)
  | .value i s =>
      match scanInt s with
      | .waits => none
      | .mismatch => some (1, ⟨i, 0, k⟩, s)
      | .value j s =>
          match scanInt s with
          | .waits => none
          | .mismatch => some (2, ⟨i, j, k⟩, s)
          | .value k s => some (3, ⟨i, j, k⟩, s)

/-- The loop of the parent over what the children write, if it ends. -/
def gather : (clients : Nat) → (k : Int) → Counters → Bytes → Option Counters
  | 0, _, total, _ => some total
  | clients + 1, k, total, s =>
      match fscanf s k with
      | none => none
      | some (pid, c, rest) =>
          if pid < 2 then some total
          else if clients = 0 then some (total.add c)
          else gather clients c.bytes (total.add c) rest

section Scan

variable {c : UInt8} {s rest : Bytes}

theorem isSpace_digit (digit : isDigit c = true) : isSpace c = false ∧ c ≠ 45 ∧ c ≠ 43 := by
  unfold isDigit at digit
  unfold isSpace
  grind

/-- What `%d` printed, it finds again, behind blanks. -/
theorem scanInt_print (n : Int) (blanks : Bytes) (blank : ∀ b ∈ blanks, isSpace b = true)
    (ends : isDigit c = false) :
    scanInt (blanks ++ (printInt n ++ c :: rest)) = .value n (c :: rest) := by
  obtain ⟨d, ds, digits⟩ := List.exists_cons_of_ne_nil (decimal_ne_nil n.natAbs)
  have first : isDigit d = true := decimal_isDigit n.natAbs d (digits ▸ List.mem_cons_self)
  obtain ⟨solid, plus, minus⟩ := isSpace_digit first
  have run : (decimal n.natAbs ++ c :: rest).takeWhile isDigit = decimal n.natAbs := by
    rw [List.takeWhile_append_of_pos (decimal_isDigit n.natAbs), List.takeWhile_cons_of_neg (by
      rw [ends]; exact Bool.false_ne_true), List.append_nil]
  have left : (decimal n.natAbs ++ c :: rest).dropWhile isDigit = c :: rest := by
    rw [List.dropWhile_append_of_pos (decimal_isDigit n.natAbs), List.dropWhile_cons_of_neg (by
      rw [ends]; exact Bool.false_ne_true)]
  have found : (printInt n ++ c :: rest).dropWhile isSpace = printInt n ++ c :: rest := by
    unfold printInt
    split_ifs
    · rfl
    · rw [digits, List.cons_append, List.dropWhile_cons_of_neg (by
        rw [solid]; exact Bool.false_ne_true)]
  have signed : splitSign (printInt n ++ c :: rest) = (decide (n < 0), decimal n.natAbs ++ c :: rest) := by
    unfold printInt
    split_ifs with negative
    · rw [decide_eq_true negative]
      rfl
    · rw [decide_eq_false negative, digits]
      unfold splitSign
      split
      · rename_i same
        exact absurd (List.cons.inj same).1 plus
      · rename_i same
        exact absurd (List.cons.inj same).1 minus
      · rfl
  unfold scanInt
  rw [List.dropWhile_append_of_pos blank, found, signed]
  dsimp only
  rw [left]
  dsimp only
  rw [run, if_neg (decimal_ne_nil _), digitsValue_decimal]
  congr 1
  split_ifs with negative
  · rw [decide_eq_true_eq] at negative
    omega
  · rw [decide_eq_true_eq] at negative
    omega

theorem blank_space : ∀ b ∈ [SPACE], isSpace b = true := List.forall_mem_singleton.mpr rfl

theorem blank_end : ∀ b ∈ [LF], isSpace b = true := List.forall_mem_singleton.mpr rfl

theorem fscanf_line (c : Counters) (blanks : Bytes) (blank : ∀ b ∈ blanks, isSpace b = true) (k : Int) :
    fscanf (blanks ++ (c.line ++ rest)) k = some (3, c, LF :: rest) := by
  have line : c.line ++ rest = printInt c.speed ++ SPACE :: (printInt c.failed ++
      SPACE :: (printInt c.bytes ++ LF :: rest)) := by
    unfold Counters.line
    simp only [List.append_assoc, List.cons_append, List.nil_append]
  unfold fscanf
  rw [line, scanInt_print c.speed blanks blank (by decide)]
  dsimp only
  rw [← List.singleton_append, scanInt_print c.failed [SPACE] blank_space (by decide)]
  dsimp only
  rw [← List.singleton_append, scanInt_print c.bytes [SPACE] blank_space (by decide)]

theorem fscanf_waits (blanks : Bytes) (blank : ∀ b ∈ blanks, isSpace b = true) (k : Int) :
    fscanf blanks k = none := by
  have skipped : blanks.dropWhile isSpace = [] := List.dropWhile_eq_nil_iff.mpr blank
  unfold fscanf scanInt
  rw [skipped]
  rfl

end Scan

/-- The parent reads line after line, and waits for those that are missing. -/
theorem gather_lines (written : List Counters) (clients : Nat) (k : Int) (total : Counters)
    (blanks : Bytes) (blank : ∀ b ∈ blanks, isSpace b = true) :
    gather (clients + 1) k total (blanks ++ written.flatMap Counters.line) =
      if written.length < clients + 1 then none
      else some ((written.take (clients + 1)).foldl Counters.add total) := by
  induction written generalizing clients k total blanks with
  | nil =>
      rw [List.flatMap_nil, List.append_nil, gather, fscanf_waits blanks blank]
      exact (if_pos (Nat.succ_pos clients)).symm
  | cons c written ih =>
      rw [List.flatMap_cons, gather, fscanf_line c blanks blank]
      dsimp only
      rw [if_neg (by decide), List.length_cons, List.take_succ_cons, List.foldl_cons]
      cases clients with
      | zero =>
          rw [if_pos rfl, if_neg (by omega), List.take_zero, List.foldl_nil]
      | succ clients =>
          rw [if_neg (Nat.succ_ne_zero clients), ← List.singleton_append,
            ih clients c.bytes (total.add c) [LF] blank_end]
          simp only [Nat.add_lt_add_iff_right]

/-- The sums of all counters, as an `int` holds them. -/
def totals (reports : List Counters) : Counters where
  speed := (reports.map Counters.speed).sum.bmod (2 ^ 32)
  failed := (reports.map Counters.failed).sum.bmod (2 ^ 32)
  bytes := (reports.map Counters.bytes).sum.bmod (2 ^ 32)

theorem foldl_add (reports : List Counters) (x y z : Int) :
    reports.foldl Counters.add ⟨x.bmod (2 ^ 32), y.bmod (2 ^ 32), z.bmod (2 ^ 32)⟩ =
      ⟨(x + (reports.map Counters.speed).sum).bmod (2 ^ 32),
        (y + (reports.map Counters.failed).sum).bmod (2 ^ 32),
        (z + (reports.map Counters.bytes).sum).bmod (2 ^ 32)⟩ := by
  induction reports generalizing x y z with
  | nil => simp only [List.foldl_nil, List.map_nil, List.sum_nil, Int.add_zero]
  | cons c reports ih =>
      have step : Counters.add ⟨x.bmod (2 ^ 32), y.bmod (2 ^ 32), z.bmod (2 ^ 32)⟩ c =
          ⟨(x + c.speed).bmod (2 ^ 32), (y + c.failed).bmod (2 ^ 32),
            (z + c.bytes).bmod (2 ^ 32)⟩ := by
        simp only [Counters.add, addInt, Int.bmod_add_bmod]
      rw [List.foldl_cons, step, ih]
      simp only [List.map_cons, List.sum_cons, Int.add_assoc]

theorem totals_eq (reports : List Counters) : reports.foldl Counters.add .zero = totals reports := by
  have sums := foldl_add reports 0 0 0
  simp only [Int.zero_add] at sums
  exact sums

theorem totals_perm {written reports : List Counters} (order : written.Perm reports) :
    totals written = totals reports := by
  unfold totals
  rw [(order.map Counters.speed).sum_eq, (order.map Counters.failed).sum_eq,
    (order.map Counters.bytes).sum_eq]

theorem bmod_modEq (n : Int) : n.bmod (2 ^ 32) ≡ n [ZMOD 2 ^ 32] := Int.bmod_emod

/-- The counters of a child when `benchcore` has returned. -/
def BenchCore.counters (b : BenchCore) : Counters := ⟨b.speed, b.failed, b.bytes⟩

/-- A child counts all requests that it began, but for one. -/
theorem returned_counts {o : Options} {force : Bool} {b : BenchCore} {actions : List BenchAction}
    (ran : (benchcore o force).replay (.start o) actions = some b) (done : b.pc = .returned) :
    ∃ missed ≤ 1, b.speed + b.failed ≡ b.rounds - (missed : Nat) [ZMOD 2 ^ 32] := by
  have tally := (BenchCore.run_settled ran).tally
  obtain ⟨successes, rounds, speed⟩ := tally.rounds
  have failed := tally.failed
  rw [done] at rounds failed
  rw [BenchPc.busy, Bool.toNat_false] at rounds
  rw [if_pos rfl] at failed
  generalize ((benchcore o force).observed BenchCore.failedAt (.start o) actions).length = failures
    at rounds failed
  have some_successes : b.speed ≡ successes [ZMOD 2 ^ 32] := speed ▸ bmod_modEq _
  have some_failures : counted failures ≡ failures [ZMOD 2 ^ 32] := bmod_modEq _
  rw [failed, rounds]
  unfold corrected
  split_ifs
  · refine ⟨1, le_rfl, ?_⟩
    have both := some_successes.add (some_failures.sub_right 1)
    rw [← Int.add_sub_assoc] at both
    simpa [Int.add_sub_assoc] using both
  · refine ⟨0, Nat.zero_le 1, ?_⟩
    have both := some_successes.add some_failures
    simpa using both

theorem returned_sums {children : List BenchCore}
    (counts : ∀ b ∈ children, ∃ missed ≤ 1,
      b.speed + b.failed ≡ b.rounds - (missed : Nat) [ZMOD 2 ^ 32]) :
    ∃ missed ≤ children.length,
      (children.map BenchCore.speed).sum + (children.map BenchCore.failed).sum ≡
        ((children.map BenchCore.rounds).sum : Nat) - (missed : Nat) [ZMOD 2 ^ 32] := by
  induction children with
  | nil => exact ⟨0, Nat.le_refl 0, rfl⟩
  | cons b children ih =>
      obtain ⟨m, one, here⟩ := counts b List.mem_cons_self
      obtain ⟨n, most, later⟩ := ih fun c there => counts c (List.mem_cons_of_mem b there)
      refine ⟨m + n, by rw [List.length_cons]; omega, ?_⟩
      have both := here.add later
      simp only [List.map_cons, List.sum_cons, Nat.cast_add]
      have left : b.speed + (children.map BenchCore.speed).sum +
          (b.failed + (children.map BenchCore.failed).sum) =
          b.speed + b.failed + ((children.map BenchCore.speed).sum +
            (children.map BenchCore.failed).sum) := by omega
      have right : (b.rounds : Int) + ((children.map BenchCore.rounds).sum : Nat) - ((m : Int) + n) =
          b.rounds - (m : Int) + (((children.map BenchCore.rounds).sum : Nat) - (n : Int)) := by omega
      rw [left, right]
      exact both

/-- In whatever order the children write, the parent reports the sums of their counters, as an `int`
    holds them, and `speed` and `failed` together miss at most one request of each child; where a child
    does not write, the parent never ends. -/
theorem bench_totals {o : Options} {force : Bool} {children : List BenchCore}
    (ran : ∀ b ∈ children, ∃ actions,
      (benchcore o force).replay (.start o) actions = some b ∧ b.pc = .returned)
    {written : List Counters} (order : written.Perm (children.map BenchCore.counters))
    (k : Int) (missing : Nat) (clients : children.length + missing ≠ 0) :
    gather (children.length + missing) k .zero (written.flatMap Counters.line) =
        (if missing = 0 then some (totals (children.map BenchCore.counters)) else none) ∧
      ∃ missed ≤ children.length, (totals (children.map BenchCore.counters)).speed +
          (totals (children.map BenchCore.counters)).failed ≡
        ((children.map BenchCore.rounds).sum : Nat) - (missed : Nat) [ZMOD 2 ^ 32] := by
  constructor
  · obtain ⟨n, same⟩ := Nat.exists_eq_succ_of_ne_zero clients
    have length := order.length_eq
    rw [List.length_map] at length
    have lines := gather_lines written n k .zero [] (List.forall_mem_nil _)
    rw [List.nil_append] at lines
    rw [same, lines]
    split_ifs with short all all
    · omega
    · rfl
    · rw [List.take_of_length_le (by omega), totals_eq, totals_perm order]
    · omega
  · have counts : ∀ b ∈ children, ∃ missed ≤ 1,
        b.speed + b.failed ≡ b.rounds - (missed : Nat) [ZMOD 2 ^ 32] := by
      intro b there
      obtain ⟨actions, ran, done⟩ := ran b there
      exact returned_counts ran done
    obtain ⟨missed, most, sums⟩ := returned_sums counts
    refine ⟨missed, most, ?_⟩
    have speeds : (children.map BenchCore.counters).map Counters.speed =
        children.map BenchCore.speed := List.map_map
    have failures : (children.map BenchCore.counters).map Counters.failed =
        children.map BenchCore.failed := List.map_map
    unfold totals
    dsimp only
    rw [speeds, failures]
    exact ((bmod_modEq _).add (bmod_modEq _)).trans sums

/-- A child that is stopped before its first request. -/
def idleChild : BenchCore :=
  { BenchCore.start BenchCore.keepOptions with
    pc := .returned, timerexpired := true, sockets := ⟨1, 0, true, 0⟩ }

/-- A child that is stopped after its first request, to which no byte comes. -/
def busyChild : BenchCore := { idleChild with speed := 1, rounds := 1 }

theorem children_ran : ∀ b ∈ [idleChild, busyChild], ∃ actions,
    (benchcore BenchCore.keepOptions false).replay (.start BenchCore.keepOptions) actions = some b ∧
      b.pc = .returned := by
  rw [List.forall_mem_cons, List.forall_mem_singleton]
  constructor
  · exact ⟨[.socket true, .alarm, .test], rfl, rfl⟩
  · exact ⟨[.socket true, .test, .write true, .test, .read (some 0), .alarm, .test], rfl, rfl⟩

theorem bench_totals_two :
    gather 2 0 .zero ([⟨1, 0, 0⟩, ⟨0, 0, 0⟩].flatMap Counters.line) = some ⟨1, 0, 0⟩ := by
  have order : [⟨1, 0, 0⟩, ⟨0, 0, 0⟩].Perm ([idleChild, busyChild].map BenchCore.counters) :=
    List.Perm.swap ..
  have totals := (bench_totals children_ran order 0 0 (by decide)).1
  exact totals

end WebServer.WebBench
