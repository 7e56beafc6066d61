import Mathlib.Algebra.BigOperators.Group.List.Basic
import Mathlib.Data.Int.ModEq
import WebServer.Lib.Observation
import WebServer.WebBench.BuildRequest

/-! # What the benchmark counts

`benchcore` sends its request again and again until the alarm has come. Every system call may fail,
and the alarm may come between any two of them.
-/

namespace WebServer.WebBench

open Lib

inductive BenchPc where
  /-- The loop that connects until `Socket` succeeds, with `keep_alive` only. -/
  | connect
  /-- The test of `timerexpired` in front of a request. -/
  | top
  | socket
  | write
  | shutdown
  /-- The test of `timerexpired` in front of a `read`. -/
  | wait
  | read
  | close
  | returned
  deriving Repr, DecidableEq

/-- The sockets of the process. -/
structure Sockets where
  opened : Nat
  closed : Nat
  /-- Whether the descriptor in `s` is open. -/
  live : Bool
  /-- The calls of `close` for a descriptor that is not open. -/
  stray : Nat

structure BenchCore where
  pc : BenchPc
  timerexpired : Bool
  speed : Int
  failed : Int
  bytes : Int
  sockets : Sockets
  /-- The requests that were begun. -/
  rounds : Nat

/-- The results of the system calls, and what happens by itself. -/
inductive BenchAction where
  /-- The alarm's handler runs. -/
  | alarm
  /-- The next test of `timerexpired`. -/
  | test
  | socket (connects : Bool)
  | write (whole : Bool)
  | shutdown (succeeds : Bool)
  /-- `read` returns a length, or fails. -/
  | read (length : Option Nat)
  | close (succeeds : Bool)
  deriving Repr, DecidableEq

/-- Additions of an `int`, which is taken to wrap around. -/
def addInt (a b : Int) : Int := (a + b).bmod (2 ^ 32)

/-- What an `int` holds of a number of events. -/
def counted (n : Nat) : Int := (n : Int).bmod (2 ^ 32)

/-- `if(failed>0) failed--`: the last failure is laid to the alarm. -/
def corrected (failed : Int) : Int := if 0 < failed then failed - 1 else failed

namespace BenchCore

/-- The start of `benchcore`. -/
def start (o : Options) : BenchCore where
  pc := if o.keepAlive then .connect else .top
  timerexpired := false
  speed := 0
  failed := 0
  bytes := 0
  sockets := ⟨0, 0, false, 0⟩
  rounds := 0

/-- `Socket` succeeds. -/
@[grind] def opens (b : BenchCore) (pc : BenchPc) : BenchCore :=
  { b with pc, sockets := { b.sockets with opened := b.sockets.opened + 1, live := true } }

@[grind] def closeSocket (k : Sockets) : Sockets :=
  if k.live then { k with closed := k.closed + 1, live := false } else { k with stray := k.stray + 1 }

/-- `failed++`, and on to the next request. -/
@[grind] def fails (b : BenchCore) (pc : BenchPc) : BenchCore := { b with pc, failed := addInt b.failed 1 }

/-- `failed++` and a `close`, before the next request. -/
@[grind] def failsClosing (b : BenchCore) (pc : BenchPc) : BenchCore :=
  { b.fails pc with sockets := closeSocket b.sockets }

/-- The reply is there, or not waited for. -/
@[grind] def replied (o : Options) (b : BenchCore) : BenchCore :=
  if o.keepAlive then { b with pc := .top, speed := addInt b.speed 1 } else { b with pc := .close }

@[grind] def awaitReply (o : Options) (force : Bool) (b : BenchCore) : BenchCore :=
  if force then b.replied o else { b with pc := .wait }

/-- One step of `benchcore`, with the result of its system call. -/
def step (o : Options) (force : Bool) (b : BenchCore) : BenchAction → Option BenchCore
  | .alarm => some { b with timerexpired := true }
  | .test =>
      match b.pc with
      | .top =>
          if b.timerexpired then some { b with pc := .returned, failed := corrected b.failed }
          else
            some { b with pc := if o.keepAlive then .write else .socket, rounds := b.rounds + 1 }
      | .wait => if b.timerexpired then some (b.replied o) else some { b with pc := .read }
      | _ => none
  | .socket connects =>
      match b.pc with
      | .connect => some (if connects then b.opens .top else b)
      | .socket => some (if connects then b.opens .write else b.fails .top)
      | _ => none
  | .write whole =>
      if b.pc = .write ∧ (whole → b.sockets.live) then
        if whole then
          if o.version = 0 ∧ ¬ o.keepAlive then some { b with pc := .shutdown }
          else some (b.awaitReply o force)
        else some (b.failsClosing (if o.keepAlive then .connect else .top))
      else none
  | .shutdown succeeds =>
      if b.pc = .shutdown then
        if succeeds then some (b.awaitReply o force) else some (b.failsClosing .top)
      else none
  | .read length =>
      if b.pc = .read then
        match length with
        | none => some (b.failsClosing .top)
        | some 0 => some (b.replied o)
        | some (n + 1) =>
            let b := { b with bytes := addInt b.bytes (n + 1 : Nat) }
            if o.keepAlive then some (b.replied o) else some { b with pc := .wait }
      else none
  | .close succeeds =>
      if b.pc = .close then
        let b := { b with sockets := closeSocket b.sockets }
        if succeeds then some { b with pc := .top, speed := addInt b.speed 1 } else some (b.fails .top)
      else none

/-- What makes `benchcore` count a failure. -/
def failedAt (b : BenchCore) : BenchAction → List BenchAction
  | .socket false => if b.pc = .socket then [.socket false] else []
  | .write false => [.write false]
  | .shutdown false => [.shutdown false]
  | .read none => [.read none]
  | .close false => [.close false]
  | _ => []

/-- The lengths that were read. -/
def readAt (_ : BenchCore) : BenchAction → List Nat
  | .read (some n) => [n]
  | _ => []

end BenchCore

def benchcore (o : Options) (force : Bool) : System BenchCore BenchAction where
  init b := b = BenchCore.start o
  step b action := b.step o force action

/-- A request is begun and not counted yet. -/
def BenchPc.busy : BenchPc → Bool
  | .connect | .top | .returned => false
  | .socket | .write | .shutdown | .wait | .read | .close => true

/-- The socket of a request is open. -/
@[grind] def BenchPc.holds : BenchPc → Bool
  | .connect | .top | .socket | .returned => false
  | .write | .shutdown | .wait | .read | .close => true

namespace BenchCore

variable {o : Options} {force : Bool} {b b' : BenchCore} {action : BenchAction}
  {failures : List BenchAction} {reads : List Nat}

/-- The counters, against the failures so far. -/
structure Tally (failures : List BenchAction) (reads : List Nat) (b : BenchCore) : Prop where
  rounds : ∃ successes, b.rounds = successes + failures.length + b.pc.busy.toNat ∧
    b.speed = counted successes
  failed : b.failed =
    if b.pc = .returned then corrected (counted failures.length) else counted failures.length
  bytes : b.bytes = counted reads.sum
  sockets : b.sockets.opened = b.sockets.closed + b.sockets.live.toNat

/-- Without `keep_alive` each request has a socket of its own. -/
structure OwnSockets (b : BenchCore) : Prop where
  live : b.sockets.live = b.pc.holds
  stray : b.sockets.stray = 0
  pc : b.pc ≠ .connect

/-- With `keep_alive` a failed `read` leaves the loop with a closed socket, which the next failure
    closes again. -/
structure OneSocket (failures : List BenchAction) (b : BenchCore) : Prop where
  live : b.pc = .wait ∨ b.pc = .read → b.sockets.live = true
  dead : b.pc = .connect → b.sockets.live = false
  stray : failures.count (.read none) = b.sockets.stray +
    if b.pc ≠ .connect ∧ b.sockets.live = false then 1 else 0
  pc : b.pc ≠ .socket ∧ b.pc ≠ .shutdown ∧ b.pc ≠ .close

theorem busy_running {pc : BenchPc} (busy : pc.busy = true) : pc ≠ .returned := by
  rintro rfl
  cases busy

theorem counted_succ (n : Nat) : addInt (counted n) 1 = counted (n + 1) := by
  unfold addInt counted
  rw [Int.bmod_add_bmod, Nat.cast_add_one]

theorem closeSocket_balanced {k : Sockets} (balanced : k.opened = k.closed + k.live.toNat) :
    (closeSocket k).opened = (closeSocket k).closed + (closeSocket k).live.toNat := by
  unfold closeSocket
  cases live : k.live <;> simp_all

theorem Tally.goesOn (tally : Tally failures reads b) (busy : b.pc.busy = true) {pc : BenchPc}
    (stays : pc.busy = true) : Tally failures reads { b with pc } where
  rounds := by
    obtain ⟨successes, rounds, speed⟩ := tally.rounds
    exact ⟨successes, by rw [rounds, busy, stays], speed⟩
  failed := by rw [tally.failed, if_neg (busy_running busy), if_neg (busy_running stays)]
  bytes := tally.bytes
  sockets := tally.sockets

theorem Tally.failed_running (tally : Tally failures reads b) (running : b.pc ≠ .returned) :
    b.failed = counted failures.length := by
  rw [tally.failed, if_neg running]

theorem Tally.fails (tally : Tally failures reads b) (busy : b.pc.busy = true) {pc : BenchPc}
    (idle : pc.busy = false) (running : pc ≠ .returned) (failure : BenchAction) :
    Tally (failures ++ [failure]) reads (b.fails pc) where
  rounds := by
    obtain ⟨successes, rounds, speed⟩ := tally.rounds
    rw [busy] at rounds
    refine ⟨successes, ?_, speed⟩
    rw [BenchCore.fails, idle, List.length_append]
    exact rounds.trans (by simp [Nat.add_assoc])
  failed := by
    rw [BenchCore.fails, if_neg running, tally.failed_running (busy_running busy), List.length_append,
      List.length_singleton, counted_succ]
  bytes := tally.bytes
  sockets := tally.sockets

theorem Tally.closing {k : Sockets} (tally : Tally failures reads b)
    (balanced : k.opened = k.closed + k.live.toNat) : Tally failures reads { b with sockets := k } :=
  ⟨tally.rounds, tally.failed, tally.bytes, balanced⟩

theorem Tally.failsClosing (tally : Tally failures reads b) (busy : b.pc.busy = true) {pc : BenchPc}
    (idle : pc.busy = false) (running : pc ≠ .returned) (failure : BenchAction) :
    Tally (failures ++ [failure]) reads (b.failsClosing pc) :=
  (tally.fails busy idle running failure).closing (closeSocket_balanced tally.sockets)

theorem Tally.succeeds (tally : Tally failures reads b) (busy : b.pc.busy = true) :
    Tally failures reads { b with pc := .top, speed := addInt b.speed 1 } where
  rounds := by
    obtain ⟨successes, rounds, speed⟩ := tally.rounds
    rw [busy] at rounds
    refine ⟨successes + 1, ?_, by rw [speed, counted_succ]⟩
    exact rounds.trans (by simp [BenchPc.busy]; omega)
  failed := by
    rw [if_neg BenchPc.noConfusion]
    exact tally.failed_running (busy_running busy)
  bytes := tally.bytes
  sockets := tally.sockets

theorem Tally.replied (tally : Tally failures reads b) (busy : b.pc.busy = true) :
    Tally failures reads (b.replied o) := by
  unfold BenchCore.replied
  split_ifs
  · exact tally.succeeds busy
  · exact tally.goesOn busy rfl

theorem Tally.awaitReply (tally : Tally failures reads b) (busy : b.pc.busy = true) :
    Tally failures reads (b.awaitReply o force) := by
  unfold BenchCore.awaitReply
  split_ifs
  · exact tally.replied busy
  · exact tally.goesOn busy rfl

theorem Tally.opens (tally : Tally failures reads b) (closed : b.sockets.live = false)
    {pc : BenchPc} (same : pc.busy = b.pc.busy) (running : b.pc ≠ .returned)
    (runs : pc ≠ .returned) : Tally failures reads (b.opens pc) where
  rounds := by
    obtain ⟨successes, rounds, speed⟩ := tally.rounds
    exact ⟨successes, by rw [BenchCore.opens, rounds, same], speed⟩
  failed := by rw [BenchCore.opens, if_neg runs, tally.failed_running running]
  bytes := tally.bytes
  sockets := by
    have sockets := tally.sockets
    rw [closed] at sockets
    simp [BenchCore.opens, sockets]

theorem Tally.bytesRead (tally : Tally failures reads b) (n : Nat) :
    Tally failures (reads ++ [n]) { b with bytes := addInt b.bytes n } where
  rounds := tally.rounds
  failed := tally.failed
  bytes := by
    rw [tally.bytes, addInt, List.sum_append, List.sum_singleton]
    unfold counted
    rw [Int.bmod_add_bmod, Nat.cast_add]
  sockets := tally.sockets

theorem Tally.endOfFile (tally : Tally failures reads b) : Tally failures (reads ++ [0]) b where
  rounds := tally.rounds
  failed := tally.failed
  bytes := by rw [tally.bytes, List.sum_append, List.sum_singleton, Nat.add_zero]
  sockets := tally.sockets

theorem Tally.quiet (tally : Tally failures reads b) :
    Tally (failures ++ []) (reads ++ []) b := by
  rwa [List.append_nil, List.append_nil]

theorem Tally.noRead {failure : BenchAction} (tally : Tally (failures ++ [failure]) reads b) :
    Tally (failures ++ [failure]) (reads ++ []) b := by
  rwa [List.append_nil]

theorem Tally.noFailure {n : Nat} (tally : Tally failures (reads ++ [n]) b) :
    Tally (failures ++ []) (reads ++ [n]) b := by
  rwa [List.append_nil]

theorem Tally.ends (tally : Tally failures reads b) (top : b.pc = .top) :
    Tally failures reads { b with pc := .returned, failed := corrected b.failed } where
  rounds := by
    obtain ⟨successes, rounds, speed⟩ := tally.rounds
    exact ⟨successes, by rw [rounds, top]; rfl, speed⟩
  failed := by
    have failed := tally.failed
    rw [top, if_neg (by decide)] at failed
    dsimp only
    rw [if_pos rfl, failed]
  bytes := tally.bytes
  sockets := tally.sockets

theorem Tally.begins (tally : Tally failures reads b) (top : b.pc = .top) {pc : BenchPc}
    (busy : pc.busy = true) :
    Tally failures reads { b with pc, rounds := b.rounds + 1 } where
  rounds := by
    obtain ⟨successes, rounds, speed⟩ := tally.rounds
    rw [top] at rounds
    exact ⟨successes, by rw [rounds, busy]; rfl, speed⟩
  failed := by
    have failed := tally.failed
    rw [top, if_neg (by decide)] at failed
    rw [if_neg (busy_running busy), failed]
  bytes := tally.bytes
  sockets := tally.sockets

theorem Tally.test (tally : Tally failures reads b)
    (moved : b.step o force .test = some b') :
    Tally (failures ++ failedAt b .test) (reads ++ readAt b .test) b' := by
  apply Tally.quiet
  rw [BenchCore.step] at moved
  split at moved
  case h_1 top =>
    by_cases expired : b.timerexpired = true
    · rw [if_pos expired] at moved
      cases moved
      exact tally.ends top
    · rw [if_neg expired] at moved
      cases moved
      apply tally.begins top
      split_ifs <;> rfl
  case h_2 wait =>
    have busy : b.pc.busy = true := by rw [wait]; rfl
    by_cases expired : b.timerexpired = true
    · rw [if_pos expired] at moved
      cases moved
      exact tally.replied busy
    · rw [if_neg expired] at moved
      cases moved
      exact tally.goesOn busy rfl
  case h_3 => cases moved

theorem Tally.socket {connects : Bool} (tally : Tally failures reads b)
    (closed : b.pc = .connect ∨ b.pc = .socket → b.sockets.live = false)
    (moved : b.step o force (.socket connects) = some b') :
    Tally (failures ++ failedAt b (.socket connects)) (reads ++ readAt b (.socket connects)) b' := by
  rw [BenchCore.step] at moved
  split at moved
  case h_1 connect =>
    have unopened := closed (.inl connect)
    have quiet : failedAt b (.socket connects) = [] := by
      cases connects with
      | false => exact if_neg (by rw [connect]; decide)
      | true => rfl
    rw [quiet]
    apply Tally.quiet
    cases moved
    cases connects with
    | false => exact tally
    | true => exact tally.opens unopened (by rw [connect]; rfl) (by rw [connect]; decide) (by decide)
  case h_2 socket =>
    have busy : b.pc.busy = true := by rw [socket]; rfl
    have unopened := closed (.inr socket)
    cases connects with
    | false =>
        have failure : failedAt b (.socket false) = [.socket false] := if_pos socket
        cases moved
        rw [failure]
        exact (tally.fails busy rfl (by decide) _).noRead
    | true =>
        cases moved
        exact (tally.opens unopened (by rw [socket]; rfl) (busy_running busy) (by decide)).quiet
  case h_3 => cases moved

theorem Tally.write {whole : Bool} (tally : Tally failures reads b)
    (moved : b.step o force (.write whole) = some b') :
    Tally (failures ++ failedAt b (.write whole)) (reads ++ readAt b (.write whole)) b' := by
  rw [BenchCore.step] at moved
  by_cases here : b.pc = .write ∧ (whole → b.sockets.live)
  · rw [if_pos here] at moved
    have busy : b.pc.busy = true := by rw [here.1]; rfl
    cases whole with
    | true =>
        apply Tally.quiet
        simp only [if_true] at moved
        by_cases halfCloses : o.version = 0 ∧ ¬ o.keepAlive
        · rw [if_pos halfCloses] at moved
          cases moved
          exact tally.goesOn busy rfl
        · rw [if_neg halfCloses] at moved
          cases moved
          exact tally.awaitReply busy
    | false =>
        simp only [Bool.false_eq_true, if_false] at moved
        cases moved
        exact (tally.failsClosing busy (by split_ifs <;> rfl) (by split_ifs <;> decide) _).noRead
  · rw [if_neg here] at moved
    cases moved

theorem Tally.shutdown {succeeds : Bool} (tally : Tally failures reads b)
    (moved : b.step o force (.shutdown succeeds) = some b') :
    Tally (failures ++ failedAt b (.shutdown succeeds)) (reads ++ readAt b (.shutdown succeeds)) b' := by
  rw [BenchCore.step] at moved
  by_cases here : b.pc = .shutdown
  · rw [if_pos here] at moved
    have busy : b.pc.busy = true := by rw [here]; rfl
    cases succeeds with
    | true =>
        cases moved
        exact (tally.awaitReply busy).quiet
    | false =>
        cases moved
        exact (tally.failsClosing busy rfl (by decide) _).noRead
  · rw [if_neg here] at moved
    cases moved

theorem Tally.read {length : Option Nat} (tally : Tally failures reads b)
    (moved : b.step o force (.read length) = some b') :
    Tally (failures ++ failedAt b (.read length)) (reads ++ readAt b (.read length)) b' := by
  unfold BenchCore.step at moved
  by_cases here : b.pc = .read
  · simp only [if_pos here] at moved
    have busy : b.pc.busy = true := by rw [here]; rfl
    match length with
    | none =>
        cases moved
        exact (tally.failsClosing busy rfl (by decide) _).noRead
    | some 0 =>
        apply Tally.noFailure
        cases moved
        exact tally.endOfFile.replied busy
    | some (n + 1) =>
        apply Tally.noFailure
        have longer := tally.bytesRead (n + 1)
        dsimp only at moved
        by_cases keeps : o.keepAlive = true
        · rw [if_pos keeps] at moved
          cases moved
          exact longer.replied busy
        · rw [if_neg keeps] at moved
          cases moved
          exact longer.goesOn busy rfl
  · simp only [if_neg here] at moved
    cases moved

theorem Tally.close {succeeds : Bool} (tally : Tally failures reads b)
    (moved : b.step o force (.close succeeds) = some b') :
    Tally (failures ++ failedAt b (.close succeeds)) (reads ++ readAt b (.close succeeds)) b' := by
  rw [BenchCore.step] at moved
  by_cases here : b.pc = .close
  · rw [if_pos here] at moved
    have busy : b.pc.busy = true := by rw [here]; rfl
    have shut := tally.closing (closeSocket_balanced tally.sockets)
    cases succeeds with
    | true =>
        cases moved
        exact (shut.succeeds busy).quiet
    | false =>
        cases moved
        exact (shut.fails busy rfl (by decide) _).noRead
  · rw [if_neg here] at moved
    cases moved

theorem Tally.step (tally : Tally failures reads b)
    (closed : b.pc = .connect ∨ b.pc = .socket → b.sockets.live = false)
    (moved : b.step o force action = some b') :
    Tally (failures ++ failedAt b action) (reads ++ readAt b action) b' := by
  cases action with
  | alarm =>
      cases moved
      exact Tally.quiet ⟨tally.rounds, tally.failed, tally.bytes, tally.sockets⟩
  | test => exact tally.test moved
  | socket connects => exact tally.socket closed moved
  | write whole => exact tally.write moved
  | shutdown succeeds => exact tally.shutdown moved
  | read length => exact tally.read moved
  | close succeeds => exact tally.close moved

theorem OwnSockets.step (forgets : o.keepAlive = false) (own : OwnSockets b)
    (moved : b.step o force action = some b') : OwnSockets b' := by
  obtain ⟨live, stray, pc⟩ := own
  cases action with
  | read length =>
      match length with
      | none | some 0 | some (n + 1) =>
          rw [BenchCore.step] at moved
          constructor <;> grind
  | alarm | test | socket | write | shutdown | close =>
      rw [BenchCore.step] at moved
      constructor <;> grind

theorem OneSocket.step (keeps : o.keepAlive = true) (one : OneSocket failures b)
    (moved : b.step o force action = some b') : OneSocket (failures ++ failedAt b action) b' := by
  obtain ⟨live, dead, stray, pc⟩ := one
  cases action with
  | read length =>
      match length with
      | none | some 0 | some (n + 1) =>
          rw [BenchCore.step] at moved
          constructor <;> grind [failedAt]
  | socket succeeds | write succeeds | shutdown succeeds | close succeeds =>
      rw [BenchCore.step] at moved
      cases succeeds <;> constructor <;> grind [failedAt]
  | alarm | test =>
      rw [BenchCore.step] at moved
      constructor <;> grind [failedAt]

/-- The counters and the sockets, after a run. -/
structure Settled (o : Options) (failures : List BenchAction) (reads : List Nat) (b : BenchCore) :
    Prop where
  tally : Tally failures reads b
  own : o.keepAlive = false → OwnSockets b
  one : o.keepAlive = true → OneSocket failures b

theorem start_settled (o : Options) : Settled o [] [] (start o) := by
  have pc : (start o).pc = if o.keepAlive then .connect else .top := rfl
  cases keeps : o.keepAlive with
  | false =>
      rw [keeps, if_neg Bool.false_ne_true] at pc
      constructor
      · exact ⟨⟨0, by rw [pc]; rfl, rfl⟩, by rw [pc]; rfl, rfl, rfl⟩
      · exact fun _ => ⟨by rw [pc]; rfl, rfl, by rw [pc]; decide⟩
      · intro same
        rw [keeps] at same
        cases same
  | true =>
      rw [keeps, if_pos rfl] at pc
      constructor
      · exact ⟨⟨0, by rw [pc]; rfl, rfl⟩, by rw [pc]; rfl, rfl, rfl⟩
      · intro same
        rw [keeps] at same
        cases same
      · intro _
        constructor
        · rw [pc]
          rintro (same | same) <;> cases same
        · exact fun _ => rfl
        · rw [pc]
          rfl
        · rw [pc]
          decide

theorem Settled.step (settled : Settled o failures reads b)
    (moved : b.step o force action = some b') :
    Settled o (failures ++ failedAt b action) (reads ++ readAt b action) b' where
  tally := by
    apply settled.tally.step _ moved
    cases keeps : o.keepAlive with
    | false =>
        rw [(settled.own keeps).live]
        rintro (pc | pc) <;> rw [pc] <;> rfl
    | true =>
        rintro (pc | pc)
        · exact (settled.one keeps).dead pc
        · exact absurd pc (settled.one keeps).pc.1
  own forgets := (settled.own forgets).step forgets moved
  one keeps := (settled.one keeps).step keeps moved

theorem run_settled {actions : List BenchAction}
    (ran : (benchcore o force).replay (start o) actions = some b) :
    Settled o ((benchcore o force).observed failedAt (start o) actions)
      ((benchcore o force).observed readAt (start o) actions) b := by
  apply System.replay_induction (P := fun actions b =>
    Settled o ((benchcore o force).observed failedAt (start o) actions)
      ((benchcore o force).observed readAt (start o) actions) b) _ _ ran
  · exact start_settled o
  · intro actions b action b' before settled moved
    rw [System.observed_concat failedAt before, System.observed_concat readAt before]
    exact settled.step moved

/-- What was counted when `benchcore` returns, as far as an `int` holds it: each request that was begun
    as a success or a failure, and of the failures one too few. -/
theorem benchcore_counts {actions : List BenchAction}
    (ran : (benchcore o force).replay (start o) actions = some b) (done : b.pc = .returned) :
    let failures := (benchcore o force).observed failedAt (start o) actions
    let reads := (benchcore o force).observed readAt (start o) actions
    (∃ successes, b.rounds = successes + failures.length ∧ b.speed = counted successes) ∧
      b.failed = corrected (counted failures.length) ∧ b.bytes = counted reads.sum ∧
      (o.keepAlive = false → b.sockets.opened = b.sockets.closed ∧ b.sockets.stray = 0) ∧
      (o.keepAlive = true → b.sockets.opened = b.sockets.closed + b.sockets.live.toNat ∧
        failures.count (.read none) = b.sockets.stray + (!b.sockets.live).toNat) := by
  obtain ⟨tally, own, one⟩ := run_settled ran
  have rounds := tally.rounds
  have failed := tally.failed
  rw [done] at rounds failed
  rw [if_pos rfl] at failed
  refine ⟨rounds, failed, tally.bytes, fun forgets => ?_, fun keeps => ?_⟩
  · have sockets := tally.sockets
    rw [(own forgets).live, done] at sockets
    exact ⟨sockets, (own forgets).stray⟩
  · refine ⟨tally.sockets, ?_⟩
    rw [(one keeps).stray, done]
    cases b.sockets.live <;> rfl

/-- The benchmark of a server that ends the connection after its first reply. -/
def keepOptions : Options where
  method := .methodGet
  http10 := 2
  forceReload := false
  keepAlive := true
  proxyhost := none
  proxyport := 80

def cutOff : List BenchAction :=
  [.socket true, .test, .write true, .test, .read (some 90), .test, .write true, .test, .read none,
    .test, .write false, .socket true, .alarm, .test]

theorem benchcore_counts_cut :
    ∃ b, (benchcore keepOptions false).replay (start keepOptions) cutOff = some b ∧
      (∃ successes, b.rounds = successes + 2 ∧ b.speed = counted successes) ∧ b.failed = 1 := by
  obtain ⟨b, ran, done⟩ : ∃ b, (benchcore keepOptions false).replay (start keepOptions) cutOff =
      some b ∧ b.pc = .returned := ⟨_, rfl, rfl⟩
  have failures : (benchcore keepOptions false).observed failedAt (start keepOptions) cutOff =
      [.read none, .write false] := rfl
  obtain ⟨rounds, failed, -⟩ := benchcore_counts ran done
  rw [failures] at rounds failed
  exact ⟨b, ran, rounds, failed⟩

/-- How many steps there are at most once the alarm has come. -/
@[grind] def stepsLeft : BenchPc → Nat
  | .socket => 6
  | .write => 5
  | .read | .shutdown => 4
  | .wait => 3
  | .close | .connect => 2
  | .top => 1
  | .returned => 0

/-- The steps, without the failures in the loop that connects. -/
def progressAt (b : BenchCore) : BenchAction → List BenchAction
  | .alarm => []
  | .socket false => if b.pc = .connect then [] else [.socket false]
  | action => [action]

theorem step_expired (expired : b.timerexpired = true) (moved : b.step o force action = some b') :
    b'.timerexpired = true ∧
      (progressAt b action).length + stepsLeft b'.pc ≤ stepsLeft b.pc := by
  cases action with
  | read length =>
      match length with
      | none | some 0 | some (n + 1) =>
          rw [BenchCore.step] at moved
          grind [progressAt]
  | socket succeeds | write succeeds | shutdown succeeds | close succeeds =>
      rw [BenchCore.step] at moved
      cases succeeds <;> grind [progressAt]
  | alarm | test =>
      rw [BenchCore.step] at moved
      grind [progressAt]

theorem step_possible (running : b.pc ≠ .returned) :
    ∃ action b', b.step o force action = some b' ∧ progressAt b action ≠ [] := by
  cases pc : b.pc with
  | connect => exact ⟨.socket true, by simp [BenchCore.step, pc, progressAt]⟩
  | top => exact ⟨.test, by simp [BenchCore.step, pc, progressAt]; split_ifs <;> simp⟩
  | socket => exact ⟨.socket true, by simp [BenchCore.step, pc, progressAt]⟩
  | write => exact ⟨.write false, by simp [BenchCore.step, pc, progressAt]⟩
  | shutdown => exact ⟨.shutdown true, by simp [BenchCore.step, pc, progressAt]⟩
  | wait => exact ⟨.test, by simp [BenchCore.step, pc, progressAt]; split_ifs <;> simp⟩
  | read => exact ⟨.read none, by simp [BenchCore.step, pc, progressAt]⟩
  | close => exact ⟨.close true, by simp [BenchCore.step, pc, progressAt]⟩
  | returned => exact absurd pc running

/-- Once the alarm has come, `benchcore` goes on until it returns, which takes at most six steps; only
    the loop that connects has no end while `Socket` fails. -/
theorem benchcore_ends {actions : List BenchAction} (expired : b.timerexpired = true)
    (ran : (benchcore o force).replay b actions = some b') :
    ((benchcore o force).observed progressAt b actions).length ≤ 6 ∧
      (b'.pc ≠ .returned → ∃ action b'', (benchcore o force).step b' action = some b'' ∧
        progressAt b' action ≠ []) := by
  have bounded : b'.timerexpired = true ∧
      ((benchcore o force).observed progressAt b actions).length + stepsLeft b'.pc ≤
        stepsLeft b.pc := by
    apply System.replay_induction (P := fun actions b' => b'.timerexpired = true ∧
      ((benchcore o force).observed progressAt b actions).length + stepsLeft b'.pc ≤
        stepsLeft b.pc) _ _ ran
    · exact ⟨expired, Nat.le_of_eq (Nat.zero_add _)⟩
    · intro actions t action u before ih moved
      have next := step_expired ih.1 moved
      rw [System.observed_concat progressAt before, List.length_append]
      refine ⟨next.1, ?_⟩
      omega
  have most : stepsLeft b.pc ≤ 6 := by cases b.pc <;> decide
  exact ⟨by omega, step_possible⟩

theorem benchcore_ends_connecting :
    ∃ b, (benchcore keepOptions false).replay { start keepOptions with timerexpired := true }
        [.socket false, .socket true, .test] = some b ∧
      ((benchcore keepOptions false).observed progressAt { start keepOptions with timerexpired := true }
        [.socket false, .socket true, .test]).length ≤ 6 := by
  obtain ⟨b, ran⟩ : ∃ b, (benchcore keepOptions false).replay
      { start keepOptions with timerexpired := true } [.socket false, .socket true, .test] = some b :=
    ⟨_, rfl⟩
  exact ⟨b, ran, (benchcore_ends rfl ran).1⟩

end BenchCore

end WebServer.WebBench
