import WebServer.Lib.RoundRobin
import WebServer.Loop.Acceptor

/-! # Which loop gets a connection

`GetNextLoop` moves its cursor on before `HandNewConn` looks at the descriptor, so a descriptor that
is turned away has used up the turn of a loop. The connections that are queued go to the loops in
rotation, less the turns lost so.
-/

namespace WebServer

open Lib

/-- `EventLoopThreadPool` with its `num_threads` loops started. -/
def LoopThreadPool.new (numThreads : Nat) (positive : 0 < numThreads) : LoopThreadPool :=
  ⟨numThreads, 0, positive⟩

/-- The descriptors for which `HandNewConn` asks for a loop, up to the end of its loop; `true` where
    the connection is queued there. -/
def AcceptResult.turns : List AcceptResult → List Bool
  | [] | .fail :: _ => []
  | .ok acceptFd nonBlocking :: results =>
      if acceptFd = 0 then []
      else if kMaxFds ≤ acceptFd then false :: turns results
      else if nonBlocking then true :: turns results
      else [false]

/-- What `accept` has returned by some moment of several dispatches of `HandNewConn`. -/
inductive SoFar : List (List AcceptResult) → List (List AcceptResult) → Prop where
  | start {dispatches} : SoFar [] dispatches
  | within {part results dispatches} : part <+: results → SoFar [part] (results :: dispatches)
  | later {results sofar dispatches} : SoFar sofar dispatches →
      SoFar (results :: sofar) (results :: dispatches)

namespace Acceptor

/-- `HandNewConn`, dispatched several times. -/
def handAll (a : Acceptor) (dispatches : List (List AcceptResult)) : Acceptor :=
  dispatches.foldl (fun a results => handNewConn results a) a

/-- The loops, once for each connection queued to them. -/
def queued (a : Acceptor) : List LoopId := a.handed.map Prod.fst

/-- The numbers of connections queued to any two loops differ by at most one. -/
def Balanced (a : Acceptor) : Prop := Level a.pool.numThreads a.queued

/-- The loops that `a'` has queued connections to since `a`, when `turns` were taken. -/
structure Rotated (a a' : Acceptor) (turns : List Bool) : Prop where
  numThreads : a'.pool.numThreads = a.pool.numThreads
  next : a'.pool.next = (a.pool.next + turns.length) % a.pool.numThreads
  queued : a'.queued = a.queued ++ workers a.pool.numThreads a.pool.next turns

variable {a a' a'' : Acceptor}

theorem Rotated.none (pool : a'.pool = a.pool) (handed : a'.handed = a.handed) :
    Rotated a a' [] := by
  refine ⟨congrArg LoopThreadPool.numThreads pool, ?_, ?_⟩
  · rw [pool, List.length_nil, Nat.add_zero, Nat.mod_eq_of_lt a.pool.inRange]
  · exact (congrArg (List.map Prod.fst) handed).trans (List.append_nil _).symm

theorem workers_mod (n t : Nat) (turns : List Bool) :
    workers n (t % n) turns = workers n t turns := by
  induction turns generalizing t with
  | nil => rfl
  | cons used turns ih =>
      have next : workers n (t % n + 1) turns = workers n (t + 1) turns := by
        rw [← ih (t % n + 1), Nat.mod_add_mod, ih]
      unfold workers at next ⊢
      rw [usedTurns, usedTurns]
      split_ifs
      · rw [List.map_cons, List.map_cons, next, Nat.mod_mod]
      · exact next

theorem Rotated.trans {turns later : List Bool} (first : Rotated a a' turns)
    (second : Rotated a' a'' later) : Rotated a a'' (turns ++ later) := by
  refine ⟨second.numThreads.trans first.numThreads, ?_, ?_⟩
  · rw [second.next, first.next, first.numThreads, Nat.mod_add_mod, Nat.add_assoc,
      List.length_append]
  · rw [second.queued, first.queued, first.numThreads, first.next, workers_mod, workers_append,
      List.append_assoc]

theorem Rotated.cons {used : Bool} {later : List Bool} (first : Rotated a a' [used])
    (second : Rotated a' a'' later) : Rotated a a'' (used :: later) :=
  first.trans second

theorem Rotated.turn (used : Bool) (pool : a'.pool = a.pool.getNextLoop.2)
    (handed : a'.queued = a.queued ++ if used then [a.pool.getNextLoop.1] else []) :
    Rotated a a' [used] := by
  refine ⟨by rw [pool]; rfl, by rw [pool]; rfl, ?_⟩
  rw [handed]
  cases used with
  | false => rfl
  | true =>
      show _ = _ ++ [a.pool.next % a.pool.numThreads]
      rw [Nat.mod_eq_of_lt a.pool.inRange]
      rfl

theorem handNewConn_rotated (results : List AcceptResult) (a : Acceptor) :
    Rotated a (handNewConn results a) (AcceptResult.turns results) := by
  induction results generalizing a with
  | nil => exact .none rfl rfl
  | cons r results ih =>
      cases r with
      | fail => exact .none rfl rfl
      | ok fd nonBlocking =>
          unfold handNewConn AcceptResult.turns
          dsimp only
          split_ifs with zero many free
          · exact .none rfl rfl
          · refine Rotated.cons ?_ (ih _)
            exact .turn false rfl (List.append_nil _).symm
          · refine Rotated.cons ?_ (ih _)
            exact .turn true rfl List.map_append
          · exact .turn false rfl (List.append_nil _).symm

theorem handAll_rotated (a : Acceptor) (dispatches : List (List AcceptResult)) :
    Rotated a (a.handAll dispatches) (dispatches.flatMap AcceptResult.turns) := by
  induction dispatches generalizing a with
  | nil => exact .none rfl rfl
  | cons results dispatches ih =>
      rw [List.flatMap_cons]
      exact (handNewConn_rotated results a).trans (ih _)

end Acceptor

theorem AcceptResult.turns_front {part results : List AcceptResult} (within : part <+: results) :
    turns part <+: turns results := by
  induction part generalizing results with
  | nil => exact List.nil_prefix
  | cons r part ih =>
      obtain ⟨results, rfl⟩ : ∃ rest, results = r :: rest := by
        obtain ⟨rest, rfl⟩ := within
        exact ⟨_, rfl⟩
      have rest := ih ((List.prefix_cons_inj r).mp within)
      cases r with
      | fail => exact List.nil_prefix
      | ok fd nonBlocking =>
          unfold turns
          split_ifs
          · exact List.prefix_refl _
          · exact (List.prefix_cons_inj false).mpr rest
          · exact (List.prefix_cons_inj true).mpr rest
          · exact List.prefix_refl _

/-- After any number of turns there is a moment of the dispatch. -/
theorem AcceptResult.prefix_turns {results : List AcceptResult} {front : List Bool}
    (within : front <+: turns results) : ∃ part, part <+: results ∧ turns part = front := by
  induction results generalizing front with
  | nil => exact ⟨[], List.nil_prefix, (List.prefix_nil.mp within).symm⟩
  | cons r results ih =>
      cases front with
      | nil => exact ⟨[], List.nil_prefix, rfl⟩
      | cons used front =>
          have whole : used :: front = turns (r :: results) →
              ∃ part, part <+: r :: results ∧ turns part = used :: front :=
            fun same => ⟨_, List.prefix_refl _, same.symm⟩
          cases r with
          | fail => cases List.prefix_nil.mp within
          | ok fd nonBlocking =>
              unfold turns at within
              split_ifs at within with zero many free
              · cases List.prefix_nil.mp within
              · obtain ⟨rfl, rest⟩ := List.cons_prefix_cons.mp within
                obtain ⟨part, before, same⟩ := ih rest
                refine ⟨_, (List.prefix_cons_inj (.ok fd nonBlocking)).mpr before, ?_⟩
                rw [turns, if_neg zero, if_pos many, same]
              · obtain ⟨rfl, rest⟩ := List.cons_prefix_cons.mp within
                obtain ⟨part, before, same⟩ := ih rest
                refine ⟨_, (List.prefix_cons_inj (.ok fd nonBlocking)).mpr before, ?_⟩
                rw [turns, if_neg zero, if_neg many, if_pos free, same]
              · obtain ⟨rfl, rest⟩ := List.cons_prefix_cons.mp within
                apply whole
                rw [turns, if_neg zero, if_neg many, if_neg free, List.prefix_nil.mp rest]

theorem SoFar.turns_front {sofar dispatches : List (List AcceptResult)}
    (moment : SoFar sofar dispatches) :
    sofar.flatMap AcceptResult.turns <+: dispatches.flatMap AcceptResult.turns := by
  induction moment with
  | start => exact List.nil_prefix
  | within part =>
      rw [List.flatMap_cons, List.flatMap_cons, List.flatMap_nil, List.append_nil]
      exact (AcceptResult.turns_front part).trans (List.prefix_append _ _)
  | later _ ih =>
      rw [List.flatMap_cons, List.flatMap_cons]
      exact (List.prefix_append_right_inj _).mpr ih

theorem SoFar.of_front {front : List Bool} {dispatches : List (List AcceptResult)}
    (within : front <+: dispatches.flatMap AcceptResult.turns) :
    ∃ sofar, SoFar sofar dispatches ∧ sofar.flatMap AcceptResult.turns = front := by
  induction dispatches generalizing front with
  | nil => exact ⟨[], .start, (List.prefix_nil.mp within).symm⟩
  | cons results dispatches ih =>
      rw [List.flatMap_cons] at within
      rcases List.prefix_or_prefix_of_prefix within (List.prefix_append _ _) with
        inside | ⟨later, rfl⟩
      · obtain ⟨part, before, same⟩ := AcceptResult.prefix_turns inside
        refine ⟨[part], .within before, ?_⟩
        rw [List.flatMap_cons, List.flatMap_nil, List.append_nil, same]
      · obtain ⟨sofar, moment, same⟩ := ih ((List.prefix_append_right_inj _).mp within)
        refine ⟨results :: sofar, .later moment, ?_⟩
        rw [List.flatMap_cons, same]

namespace Acceptor

/-- The numbers, among the descriptors for which a loop is asked, of those that are queued. -/
def queuedTurns (dispatches : List (List AcceptResult)) : List Nat :=
  usedTurns 0 (dispatches.flatMap AcceptResult.turns)

theorem handAll_balanced_iff (listenFd : Nat) {numThreads : Nat} (positive : 0 < numThreads)
    (dispatches : List (List AcceptResult)) :
    ((start listenFd (.new numThreads positive)).handAll dispatches).Balanced ↔
      Level numThreads (workers numThreads 0 (dispatches.flatMap AcceptResult.turns)) := by
  have rotated := handAll_rotated (start listenFd (.new numThreads positive)) dispatches
  unfold Balanced
  rw [rotated.numThreads, rotated.queued]
  exact Iff.rfl

theorem balanced_of_queued (listenFd : Nat) {numThreads : Nat} (positive : 0 < numThreads)
    {dispatches : List (List AcceptResult)}
    (kept : ∀ used ∈ dispatches.flatMap AcceptResult.turns, used = true) :
    ((start listenFd (.new numThreads positive)).handAll dispatches).Balanced := by
  rw [handAll_balanced_iff, List.eq_replicate_of_mem kept]
  exact (workers_level_iff positive 0 _).mpr (spread_all numThreads 0 _) _ (List.prefix_refl _)

/-- The loops are balanced at every moment exactly if the queued connections are spread over the
    rotation of all descriptors, those that are turned away included. -/
theorem balanced_iff (listenFd numThreads : Nat) (positive : 0 < numThreads)
    (dispatches : List (List AcceptResult)) :
    (∀ sofar, SoFar sofar dispatches →
      ((start listenFd (.new numThreads positive)).handAll sofar).Balanced) ↔
      Spread numThreads (queuedTurns dispatches) := by
  rw [queuedTurns, ← workers_level_iff positive]
  constructor
  · intro balanced front within
    obtain ⟨sofar, moment, rfl⟩ := SoFar.of_front within
    exact (handAll_balanced_iff listenFd positive sofar).mp (balanced sofar moment)
  · intro level sofar moment
    exact (handAll_balanced_iff listenFd positive sofar).mpr (level _ moment.turns_front)

theorem balanced_iff_threeLoops :
    (∀ sofar, SoFar sofar [[.ok 7 true, .ok 8 true], [.ok 9 true]] →
      ((start 4 (.new 3 (by decide))).handAll sofar).Balanced) ↔
      Spread 3 (queuedTurns [[.ok 7 true, .ok 8 true], [.ok 9 true]]) :=
  balanced_iff 4 3 (by decide) _

/-- Between two connections a descriptor is turned away: both are queued to the first loop. -/
theorem turnedAway_unbalanced :
    ¬ ∀ sofar, SoFar sofar [[.ok 7 true, .ok 100000 true, .ok 8 true]] →
      ((start 4 (.new 2 (by decide))).handAll sofar).Balanced := by
  intro balanced
  have whole := balanced _ (.within (List.prefix_refl _))
  exact absurd (whole 0 (by decide) 1 (by decide)) (by decide)

end Acceptor

end WebServer
