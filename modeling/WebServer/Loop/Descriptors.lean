import WebServer.Lib.Observation
import WebServer.Loop.Lifetime

/-! # Where the accepted descriptors are

A descriptor that `accept` returned belongs to one object as long as it is open, and is closed once.
Only where `SetSocketNonBlocking` fails in `HandNewConn` nobody has it and nobody closes it.
-/

namespace WebServer

open Lib

namespace Server

variable {w w' w'' : Server} {l : LoopId} {c : ConnId} {o : Conn} {action : Action}
  {leaks : List ConnId}

/-- The connection that `HandNewConn` drops without a `close`. -/
def leakedBy (w : Server) : Action → List ConnId
  | .accept fd _ false => if fd < kMaxFds then [w.accepted] else []
  | _ => []

/-- Every accepted descriptor is closed, or open in one place and then owned or leaked. -/
structure Accounted (leaks : List ConnId) (w : Server) : Prop where
  total : ∀ c < w.accepted, c ∈ w.closed ∨ ∃ fd, w.descriptors fd = some (.accepted c)
  known : ∀ {fd c}, w.descriptors fd = some (.accepted c) → c < w.accepted ∧ c ∉ w.closed
  single : ∀ {fd fd' c}, w.descriptors fd = some (.accepted c) →
    w.descriptors fd' = some (.accepted c) → fd' = fd
  owned : ∀ {fd c}, w.descriptors fd = some (.accepted c) → (w.objects c ≠ none ↔ c ∉ leaks)
  bounded : ∀ c ∈ leaks, c < w.accepted

/-- A step that opens and closes no descriptor and neither makes nor destroys an object. -/
structure Settled (w w' : Server) : Prop where
  descriptors : w'.descriptors = w.descriptors
  closed : w'.closed = w.closed
  accepted : w'.accepted = w.accepted
  objects : ∀ c, w'.objects c = none ↔ w.objects c = none

theorem Settled.of_same (descriptors : w'.descriptors = w.descriptors) (closed : w'.closed = w.closed)
    (accepted : w'.accepted = w.accepted) (objects : w'.objects = w.objects) : Settled w w' :=
  ⟨descriptors, closed, accepted, fun c => by rw [objects]⟩

theorem Settled.of_update {o' : Conn} (descriptors : w'.descriptors = w.descriptors)
    (closed : w'.closed = w.closed) (accepted : w'.accepted = w.accepted)
    (here : w.objects c = some o) (objects : w'.objects = Function.update w.objects c (some o')) :
    Settled w w' := by
  refine ⟨descriptors, closed, accepted, fun d => ?_⟩
  rw [objects]
  by_cases own : d = c
  · subst own
    rw [Function.update_self, here]
    exact iff_of_false (Option.some_ne_none _) (Option.some_ne_none _)
  · rw [Function.update_of_ne own]

theorem Settled.trans (first : Settled w w') (second : Settled w' w'') : Settled w w'' where
  descriptors := second.descriptors.trans first.descriptors
  closed := second.closed.trans first.closed
  accepted := second.accepted.trans first.accepted
  objects c := (second.objects c).trans (first.objects c)

theorem Accounted.settled (accounted : Accounted leaks w) (settled : Settled w w') :
    Accounted leaks w' := by
  obtain ⟨descriptors, closed, accepted, objects⟩ := settled
  constructor
  · rw [accepted, closed, descriptors]
    exact accounted.total
  · rw [accepted, closed, descriptors]
    exact accounted.known
  · rw [descriptors]
    exact accounted.single
  · intro fd c opened
    rw [descriptors] at opened
    rw [ne_eq, objects]
    exact accounted.owned opened
  · rw [accepted]
    exact accounted.bounded

theorem handleEvents_settled (here : w.objects c = some o) (ctl : Bool) (e : Event) :
    Settled w (handleEvents ctl w c e) := by
  unfold Server.handleEvents
  rw [here]
  dsimp only
  split
  · exact .of_same rfl rfl rfl rfl
  · split
    · exact .of_update rfl rfl rfl here rfl
    · rw [epollMod_eq]
      exact .of_update rfl rfl rfl here rfl
    · exact .of_update rfl rfl rfl here rfl

theorem newEvent_settled (here : w.objects c = some o) (ctl : Bool) :
    Settled w (newEvent ctl w c) := by
  unfold Server.newEvent
  rw [here]
  dsimp only
  rw [epollAdd_eq]
  exact .of_update rfl rfl rfl here rfl

/-- Only the acceptor opens a descriptor, and only the end of an object closes one. -/
theorem step_settled (sound : Sound w) (moved : w.step action = some w') :
    Settled w w' ∧ leakedBy w action = [] ∨
      (∃ fd l nonBlocking, action = .accept fd l nonBlocking ∧
        w.accept fd l nonBlocking = some w') ∨
      ∃ c, action = .destroy c ∧ w.destroy c = some w' := by
  have same : w'.descriptors = w.descriptors → w'.closed = w.closed → w'.accepted = w.accepted →
      w'.objects = w.objects → Settled w w' := .of_same
  unfold Server.step at moved
  split at moved
  · cases moved
  · cases action with
    | accept fd l nonBlocking => exact .inr (.inl ⟨fd, l, nonBlocking, rfl, moved⟩)
    | destroy c => exact .inr (.inr ⟨c, rfl, moved⟩)
    | acceptNext =>
        cases moved
        exact .inl ⟨same rfl rfl rfl rfl, rfl⟩
    | poll l reported other =>
        dsimp only [Server.poll] at moved
        split at moved
        · cases moved
          exact .inl ⟨same rfl rfl rfl rfl, rfl⟩
        · cases moved
    | dispatch l e ctl =>
        obtain ⟨c, o, ret, -, -, -, -, -, called, rfl⟩ := dispatch_cases sound moved
        have parted : Settled w (w.setPhase o.loop (.events ret)) := .of_same rfl rfl rfl rfl
        exact .inl ⟨parted.trans (handleEvents_settled called.here ctl e), rfl⟩
    | swap l =>
        dsimp only [Server.swap] at moved
        split at moved
        · cases moved
          exact .inl ⟨same rfl rfl rfl rfl, rfl⟩
        · cases moved
    | runFunctor l ctl =>
        rcases runFunctor_cases sound moved with
          ⟨c, o, rest, -, -, -, -, called, -, rfl⟩ | ⟨-, rfl⟩
        · have parted : Settled w (w.setPhase o.loop (.functors rest)) := .of_same rfl rfl rfl rfl
          exact .inl ⟨parted.trans (newEvent_settled called.here ctl), rfl⟩
        · exact .inl ⟨same rfl rfl rfl rfl, rfl⟩
    | handleExpired l i ctl =>
        obtain ⟨expired, ⟨rfl, -⟩ | ⟨top, n, found, holding, due, rfl⟩⟩ := handleExpired_cases moved
        · exact .inl ⟨same rfl rfl rfl rfl, rfl⟩
        · rcases pop_cases sound expired found holding due ctl with
            ⟨-, popped⟩ | ⟨c, o, o₁, byTimer, -, -, called, -, -, -, popped⟩
          · rw [popped] at same ⊢
            exact .inl ⟨same rfl rfl rfl rfl, rfl⟩
          · rw [popped]
            have here : w.objects c = some o := called.here
            exact .inl ⟨.of_update rfl rfl rfl here rfl, rfl⟩
    | tick now =>
        dsimp only at moved
        split at moved
        · cases moved
          exact .inl ⟨same rfl rfl rfl rfl, rfl⟩
        · cases moved

theorem Accounted.unopened (accounted : Accounted leaks w) (fd : Nat) :
    w.descriptors fd ≠ some (.accepted w.accepted) :=
  fun opened => Nat.lt_irrefl _ (accounted.known opened).1

theorem Accounted.turnedAway (accounted : Accounted leaks w) :
    Accounted leaks { w with accepted := w.accepted + 1, closed := w.closed ++ [w.accepted] } where
  total c counted := by
    rcases Nat.lt_succ_iff_lt_or_eq.mp counted with old | rfl
    · exact (accounted.total c old).imp_left (List.mem_append_left _)
    · exact .inl (List.mem_append_right _ List.mem_cons_self)
  known opened := by
    obtain ⟨old, unclosed⟩ := accounted.known opened
    refine ⟨Nat.lt_succ_of_lt old, fun shut => ?_⟩
    rcases List.mem_append.mp shut with before | new
    · exact unclosed before
    · exact old.ne (List.mem_singleton.mp new)
  single := accounted.single
  owned := accounted.owned
  bounded c leaked := Nat.lt_succ_of_lt (accounted.bounded c leaked)

/-- A new connection gets the descriptor, or it leaks. -/
theorem Accounted.opened (accounted : Accounted leaks w) (sound : Sound w) {fd : Nat}
    (unused : w.descriptors fd = none) {leaks' : List ConnId}
    (opens : w'.descriptors = Function.update w.descriptors fd (some (.accepted w.accepted)))
    (closed : w'.closed = w.closed) (accepted : w'.accepted = w.accepted + 1)
    (own : w'.objects w.accepted ≠ none ↔ w.accepted ∉ leaks')
    (others : ∀ c, c ≠ w.accepted → w'.objects c = w.objects c ∧ (c ∈ leaks' ↔ c ∈ leaks)) :
    Accounted leaks' w' := by
  have entry {fd' : Nat} {c : ConnId} (here : w'.descriptors fd' = some (.accepted c)) :
      fd' = fd ∧ c = w.accepted ∨ fd' ≠ fd ∧ w.descriptors fd' = some (.accepted c) := by
    rw [opens] at here
    by_cases same : fd' = fd
    · rw [same, Function.update_self] at here
      cases here
      exact .inl ⟨same, rfl⟩
    · rw [Function.update_of_ne same] at here
      exact .inr ⟨same, here⟩
  constructor
  · intro c counted
    rw [accepted] at counted
    rw [closed, opens]
    rcases Nat.lt_succ_iff_lt_or_eq.mp counted with old | rfl
    · apply (accounted.total c old).imp_right
      rintro ⟨fd', here⟩
      refine ⟨fd', ?_⟩
      rw [Function.update_of_ne]
      · exact here
      · rintro rfl
        rw [unused] at here
        cases here
    · exact .inr ⟨fd, Function.update_self ..⟩
  · intro fd' c here
    rw [accepted, closed]
    rcases entry here with ⟨-, rfl⟩ | ⟨-, here⟩
    · exact ⟨Nat.lt_succ_self _, fun shut => Nat.lt_irrefl _ (sound.ended shut).2⟩
    · obtain ⟨old, unclosed⟩ := accounted.known here
      exact ⟨Nat.lt_succ_of_lt old, unclosed⟩
  · intro fd₁ fd₂ c one two
    rcases entry one with ⟨rfl, rfl⟩ | ⟨-, one⟩
    · rcases entry two with ⟨same, -⟩ | ⟨-, two⟩
      · exact same
      · exact absurd two (accounted.unopened fd₂)
    · rcases entry two with ⟨-, rfl⟩ | ⟨-, two⟩
      · exact absurd one (accounted.unopened fd₁)
      · exact accounted.single one two
  · intro fd' c here
    rcases entry here with ⟨-, rfl⟩ | ⟨-, here⟩
    · exact own
    · obtain ⟨object, leak⟩ := others c (accounted.known here).1.ne
      rw [object, leak]
      exact accounted.owned here
  · intro c leaked
    rw [accepted]
    by_cases same : c = w.accepted
    · exact Nat.lt_succ_of_le (Nat.le_of_eq same)
    · exact Nat.lt_succ_of_lt (accounted.bounded c ((others c same).2.mp leaked))

theorem Accounted.accept (accounted : Accounted leaks w) (sound : Sound w) {fd : Nat}
    {nonBlocking : Bool} (moved : w.accept fd l nonBlocking = some w') :
    Accounted (leaks ++ leakedBy w (.accept fd l nonBlocking)) w' := by
  have fresh : w.accepted ∉ leaks := fun leaked => Nat.lt_irrefl _ (accounted.bounded _ leaked)
  unfold Server.accept at moved
  dsimp only at moved
  split_ifs at moved with allowed large sets
  · cases moved
    have none : leakedBy w (.accept fd l nonBlocking) = [] := by
      cases nonBlocking with
      | true => rfl
      | false => exact if_neg (Nat.not_lt.mpr large)
    rw [none, List.append_nil]
    exact accounted.turnedAway
  · cases moved
    subst sets
    have none : leakedBy w (.accept fd l true) = [] := rfl
    rw [none, List.append_nil]
    apply accounted.opened sound allowed.2.2
    · rfl
    · rfl
    · rfl
    · refine iff_of_true ?_ fresh
      simp [Server.setLoop, Server.setConn]
    · intro c other
      exact ⟨Function.update_of_ne other .., Iff.rfl⟩
  · cases moved
    obtain rfl := Bool.eq_false_of_not_eq_true sets
    rw [leakedBy, if_pos (Nat.not_le.mp large)]
    apply accounted.opened sound allowed.2.2
    · rfl
    · rfl
    · rfl
    · refine iff_of_false (not_not_intro sound.unknown) ?_
      simp
    · intro c other
      refine ⟨rfl, ?_⟩
      rw [List.mem_append, List.mem_singleton, or_iff_left other]

theorem Accounted.destroy (accounted : Accounted leaks w) (sound : Sound w)
    (moved : w.destroy c = some w') : Accounted leaks w' := by
  obtain ⟨o, here, -, rfl⟩ := destroy_cases moved
  have mine := (sound.object here).2.2.1
  have entry {fd d} (opened : Function.update w.descriptors o.http.fd none fd = some (.accepted d)) :
      d ≠ c ∧ w.descriptors fd = some (.accepted d) := by
    by_cases own : fd = o.http.fd
    · rw [own, Function.update_self] at opened
      cases opened
    · rw [Function.update_of_ne own] at opened
      refine ⟨?_, opened⟩
      rintro rfl
      exact own (accounted.single mine opened)
  constructor
  · intro d counted
    by_cases same : d = c
    · exact .inl (List.mem_append_right _ (List.mem_singleton.mpr same))
    · rcases accounted.total d counted with shut | ⟨fd, opened⟩
      · exact .inl (List.mem_append_left _ shut)
      · refine .inr ⟨fd, (Function.update_of_ne ?_ ..).trans opened⟩
        rintro rfl
        rw [mine] at opened
        cases opened
        exact same rfl
  · intro fd d opened
    obtain ⟨other, opened⟩ := entry opened
    obtain ⟨counted, unclosed⟩ := accounted.known opened
    refine ⟨counted, fun shut => ?_⟩
    rcases List.mem_append.mp shut with before | new
    · exact unclosed before
    · exact other (List.mem_singleton.mp new)
  · intro fd fd' d one two
    exact accounted.single (entry one).2 (entry two).2
  · intro fd d opened
    obtain ⟨other, opened⟩ := entry opened
    rw [← accounted.owned opened]
    show Function.update w.objects c none d ≠ none ↔ _
    rw [Function.update_of_ne other]
  · exact accounted.bounded

theorem Accounted.step (accounted : Accounted leaks w) (sound : Sound w)
    (moved : w.step action = some w') : Accounted (leaks ++ leakedBy w action) w' := by
  rcases step_settled sound moved with
    ⟨settled, none⟩ | ⟨fd, l, nonBlocking, rfl, accepts⟩ | ⟨c, rfl, destroys⟩
  · rw [none, List.append_nil]
    exact accounted.settled settled
  · exact accounted.accept sound accepts
  · rw [leakedBy, List.append_nil]
    · exact accounted.destroy sound destroys
    · exact nofun

theorem start_accounted (now : Timeval) (system : List Nat) : Accounted [] (start now system) := by
  have none {fd c} : (start now system).descriptors fd ≠ some (.accepted c) := by
    unfold start
    dsimp only
    split_ifs
    · simp
    · simp
  constructor
  · intro c counted
    exact absurd counted (Nat.not_lt_zero c)
  · intro fd c opened
    exact absurd opened none
  · intro fd fd' c opened
    exact absurd opened none
  · intro fd c opened
    exact absurd opened none
  · intro c leaked
    cases leaked

/-- Every descriptor that was accepted is either closed, once, or open in one place; then a living
    object has it, unless it is one of those that leaked when `SetSocketNonBlocking` failed. -/
theorem descriptors_accounted {now : Timeval} {system : List Nat} {actions : List Action}
    (ran : server.replay (start now system) actions = some w) :
    w.closed.Nodup ∧
      (∀ c < w.accepted, c ∉ w.closed ↔ ∃ fd, w.descriptors fd = some (.accepted c)) ∧
      ∀ fd c, w.descriptors fd = some (.accepted c) →
        (∀ fd', w.descriptors fd' = some (.accepted c) → fd' = fd) ∧
        ((∃ o, w.objects c = some o ∧ o.http.fd = fd) ↔
          c ∉ server.observed leakedBy (start now system) actions) := by
  have reached := replay_reachable ran
  have sound := reached_sound reached
  have accounted : Accounted (server.observed leakedBy (start now system) actions) w := by
    apply System.replay_induction (P := fun actions w =>
      Accounted (server.observed leakedBy (start now system) actions) w) _ _ ran
    · exact start_accounted now system
    · intro actions w action w' before accounted moved
      rw [System.observed_concat leakedBy before]
      exact accounted.step (reached_sound (replay_reachable before)) moved
  refine ⟨sound.closedOnce, fun c counted => ?_, fun fd c opened => ?_⟩
  · constructor
    · exact (accounted.total c counted).resolve_left
    · rintro ⟨fd, opened⟩
      exact (accounted.known opened).2
  · refine ⟨fun fd' => accounted.single opened, ?_⟩
    rw [← accounted.owned opened]
    constructor
    · rintro ⟨o, here, -⟩ gone
      rw [gone] at here
      cases here
    · intro there
      obtain ⟨o, here⟩ := Option.ne_none_iff_exists'.mp there
      exact ⟨o, here, accounted.single opened (sound.object here).2.2.1⟩

/-- The first descriptor leaks, and the second one is a connection's. -/
def leakAndServe : List Action := [.accept 9 0 false, .accept 10 0 true]

theorem descriptors_accounted_leak : ∃ w,
    server.replay (start ⟨0, 0, by decide⟩ [3]) leakAndServe = some w ∧
      ¬ (∃ o, w.objects 0 = some o ∧ o.http.fd = 9) ∧ ∃ o, w.objects 1 = some o ∧ o.http.fd = 10 := by
  obtain ⟨w, ran, first, second⟩ : ∃ w,
      server.replay (start ⟨0, 0, by decide⟩ [3]) leakAndServe = some w ∧
        w.descriptors 9 = some (.accepted 0) ∧ w.descriptors 10 = some (.accepted 1) :=
    ⟨_, rfl, rfl, rfl⟩
  have leaks : server.observed leakedBy (start ⟨0, 0, by decide⟩ [3]) leakAndServe = [0] := rfl
  obtain ⟨-, -, owned⟩ := descriptors_accounted ran
  rw [leaks] at owned
  refine ⟨w, ran, fun serves => ?_, (owned 10 1 second).2.mpr (by decide)⟩
  exact absurd ((owned 9 0 first).2.mp serves) (by decide)

end Server

end WebServer
