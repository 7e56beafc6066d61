import WebServer.Loop.Server

/-! # The acceptor

`Start` registers the listening descriptor once. From then on every dispatch of its channel has to
leave behind the mask with which it is to be reported again, and a place for every descriptor that
`accept` returned. The results of `accept`, `SetSocketNonBlocking` and `epoll_ctl` are scripted.
-/

namespace WebServer

open Lib

/-- `EventLoopThreadPool` after its `Start`. -/
structure LoopThreadPool where
  numThreads : Nat
  next : Nat
  inRange : next < numThreads

/-- `GetNextLoop`. -/
def LoopThreadPool.getNextLoop (p : LoopThreadPool) : LoopId × LoopThreadPool :=
  (p.next, { p with
    next := (p.next + 1) % p.numThreads
    inRange := Nat.mod_lt _ (Nat.zero_lt_of_lt p.inRange) })

/-- One result of `accept`; a descriptor comes with the success of its `SetSocketNonBlocking`. -/
inductive AcceptResult where
  | ok (fd : Nat) (nonBlocking : Bool)
  | fail
  deriving Repr, DecidableEq

def AcceptResult.isOk : AcceptResult → Bool
  | .ok _ _ => true
  | .fail => false

/-- A dispatch of the listening descriptor, and what its handlers will meet. -/
structure AcceptDispatch where
  revents : Mask
  readable : revents.has EPOLLIN = true
  /-- Results of `accept` to come; it fails with `EAGAIN` when they are used up. -/
  results : List AcceptResult
  ctl : Bool

structure Acceptor where
  acceptChannel : Channel
  /-- `fd2channel_` holds the channel. -/
  polled : Bool
  /-- The mask that the kernel holds for the listening descriptor. -/
  interest : Mask
  pool : LoopThreadPool
  /-- The descriptors that `accept` returned in the last dispatch. -/
  accepted : List Nat
  closed : List Nat
  /-- The loops that were given an `HttpData`, and its descriptor. -/
  handed : List (LoopId × Nat)

namespace Acceptor

def setEvents (a : Acceptor) (events : Mask) : Acceptor :=
  { a with acceptChannel := { a.acceptChannel with events } }

/-- The acceptor once `Start` has added its channel to the poller. -/
def start (listenFd : Nat) (pool : LoopThreadPool) : Acceptor where
  acceptChannel :=
    ({ Channel.new listenFd with events := EPOLLIN ||| EPOLLET }).equalAndUpdateLastEvents.2
  polled := true
  interest := EPOLLIN ||| EPOLLET
  pool
  accepted := []
  closed := []
  handed := []

/-- `HandNewConn`. -/
def handNewConn : List AcceptResult → Acceptor → Acceptor
  | [], a | .fail :: _, a => a.setEvents (EPOLLIN ||| EPOLLET)
  | .ok acceptFd nonBlocking :: results, a =>
      let a := { a with accepted := a.accepted ++ [acceptFd] }
      -- The loop goes on as long as the descriptor is positive.
      if acceptFd = 0 then a.setEvents (EPOLLIN ||| EPOLLET)
      else
        let (loop, pool) := a.pool.getNextLoop
        let a := { a with pool }
        if kMaxFds ≤ acceptFd then handNewConn results { a with closed := a.closed ++ [acceptFd] }
        else if nonBlocking then
          handNewConn results { a with handed := a.handed ++ [(loop, acceptFd)] }
        else a

/-- `HandThisConn`: `EpollMod` without a timeout. -/
def handThisConn (ctl : Bool) (a : Acceptor) : Acceptor :=
  let (result, acceptChannel) := a.acceptChannel.epollMod ctl
  let a := { a with acceptChannel }
  match result with
  | .elided => a
  | .registered mask => { a with interest := mask }
  | .failed => { a with polled := false }

def callbacks (d : AcceptDispatch) : Channel.Callbacks Acceptor where
  setEvents events a := a.setEvents events
  readHandler := some fun a => .ok (handNewConn d.results a)
  connHandler := some fun a => .ok (handThisConn d.ctl a)

/-- The channel of a reported descriptor is dispatched while the poller has it. -/
def dispatch (a : Acceptor) (d : AcceptDispatch) : Except Fault Acceptor :=
  let a := { a with
    acceptChannel := { a.acceptChannel with revents := d.revents, events := 0#32 }
    accepted := []
    closed := []
    handed := [] }
  if a.polled then Channel.handleEvents (callbacks d) d.revents a else .ok a

/-- One dispatch after the other. -/
def run (a : Acceptor) (ds : List AcceptDispatch) : Except Fault Acceptor :=
  ds.foldlM dispatch a

/-- Every accepted descriptor is either closed or given to one loop. -/
def Accounted (a : Acceptor) : Prop := a.accepted.Perm (a.closed ++ a.handed.map Prod.snd)

/-- What a dispatch has to leave behind. -/
structure Survives (a : Acceptor) : Prop where
  interest : a.interest.has EPOLLIN = true
  accounted : a.Accounted

end Acceptor

/-- `HandNewConn` can dispose of the descriptor. -/
def AcceptResult.Disposable : AcceptResult → Prop
  | .ok fd nonBlocking => 0 < fd ∧ (fd < kMaxFds → nonBlocking = true)
  | .fail => True

instance (r : AcceptResult) : Decidable r.Disposable := by
  cases r <;> unfold AcceptResult.Disposable <;> infer_instance

/-- So it can with all the descriptors before the first failure of `accept`. -/
def AcceptDispatch.Disposable (d : AcceptDispatch) : Prop :=
  ∀ r ∈ d.results.takeWhile AcceptResult.isOk, r.Disposable

namespace Acceptor

variable {a : Acceptor} {d : AcceptDispatch} {results : List AcceptResult}

theorem disposable_cons {fd : Nat} {nonBlocking : Bool} :
    (∀ r ∈ (AcceptResult.ok fd nonBlocking :: results).takeWhile AcceptResult.isOk, r.Disposable) ↔
      (0 < fd ∧ (fd < kMaxFds → nonBlocking = true)) ∧
        ∀ r ∈ results.takeWhile AcceptResult.isOk, r.Disposable := by
  rw [List.takeWhile_cons_of_pos rfl, List.forall_mem_cons]
  rfl

theorem Accounted.close (accounted : a.Accounted) (fd : Nat) (pool : LoopThreadPool) :
    Accounted { a with accepted := a.accepted ++ [fd], pool, closed := a.closed ++ [fd] } := by
  apply (accounted.append_right [fd]).trans
  rw [List.append_assoc, List.append_assoc]
  exact List.perm_append_comm.append_left a.closed

theorem Accounted.hand (accounted : a.Accounted) (fd : Nat) (loop : LoopId)
    (pool : LoopThreadPool) :
    Accounted { a with accepted := a.accepted ++ [fd], pool, handed := a.handed ++ [(loop, fd)] } := by
  unfold Accounted
  rw [List.map_append, ← List.append_assoc]
  exact accounted.append_right [fd]

theorem handNewConn_frame (results : List AcceptResult) (a : Acceptor) :
    (handNewConn results a).acceptChannel.lastEvents = a.acceptChannel.lastEvents ∧
      (handNewConn results a).interest = a.interest ∧
      (handNewConn results a).polled = a.polled := by
  fun_induction handNewConn results a with
  | case1 | case2 => exact ⟨rfl, rfl, rfl⟩
  | case3 | case6 => exact ⟨rfl, rfl, rfl⟩
  | case4 _ _ _ _ _ _ _ _ _ _ _ ih => exact ih
  | case5 _ _ _ _ _ _ _ _ _ _ ih => exact ih

theorem handNewConn_disposes
    (disposable : ∀ r ∈ results.takeWhile AcceptResult.isOk, r.Disposable)
    (accounted : a.Accounted) :
    (handNewConn results a).Accounted ∧
      (handNewConn results a).acceptChannel.events = EPOLLIN ||| EPOLLET := by
  induction results generalizing a with
  | nil => exact ⟨accounted, rfl⟩
  | cons r results ih =>
      cases r with
      | fail => exact ⟨accounted, rfl⟩
      | ok fd nonBlocking =>
          obtain ⟨⟨positive, set⟩, later⟩ := disposable_cons.mp disposable
          unfold handNewConn
          dsimp only
          rw [if_neg (by omega)]
          split_ifs with many free
          · exact ih later (accounted.close fd _)
          · exact ih later (accounted.hand fd _ _)
          · exact absurd (set (by omega)) free

/-- A descriptor that it cannot dispose of is in no list. -/
theorem handNewConn_loses
    (indisposable : ¬ ∀ r ∈ results.takeWhile AcceptResult.isOk, r.Disposable)
    (accounted : a.Accounted) : ¬ (handNewConn results a).Accounted := by
  induction results generalizing a with
  | nil => exact absurd (by simp) indisposable
  | cons r results ih =>
      cases r with
      | fail => exact absurd (by simp [AcceptResult.isOk]) indisposable
      | ok fd nonBlocking =>
          rw [disposable_cons] at indisposable
          have lost : ∀ b : Acceptor, b.accepted = a.accepted ++ [fd] → b.closed = a.closed →
              b.handed = a.handed → ¬ b.Accounted := by
            intro b accepted closed handed kept
            have more := kept.length_eq
            have before := accounted.length_eq
            rw [accepted, closed, handed, List.length_append, List.length_singleton] at more
            omega
          unfold handNewConn
          dsimp only
          split_ifs with zero many free
          · exact lost _ rfl rfl rfl
          · exact ih (fun later => indisposable ⟨⟨by omega, by omega⟩, later⟩)
              (accounted.close fd _)
          · exact ih (fun later => indisposable ⟨⟨by omega, fun _ => free⟩, later⟩)
              (accounted.hand fd _ _)
          · exact lost _ rfl rfl rfl

/-- The registration with which the next dispatch is reported. -/
structure Registered (a : Acceptor) : Prop where
  polled : a.polled = true
  interest : a.interest = EPOLLIN ||| EPOLLET
  lastEvents : a.acceptChannel.lastEvents = EPOLLIN ||| EPOLLET

/-- The channel as the read handler of a dispatch finds it. -/
def reported (a : Acceptor) (d : AcceptDispatch) : Acceptor :=
  { a with
    acceptChannel := { a.acceptChannel with revents := d.revents, events := 0#32 }
    accepted := []
    closed := []
    handed := [] }

theorem reported_accounted (a : Acceptor) (d : AcceptDispatch) : (a.reported d).Accounted :=
  List.Perm.refl []

theorem dispatch_eq (polled : a.polled = true) (d : AcceptDispatch) :
    a.dispatch d = .ok (handThisConn d.ctl (handNewConn d.results (a.reported d))) := by
  have here : (d.revents.has EPOLLHUP && !d.revents.has EPOLLIN) = false := by simp [d.readable]
  have asked : d.revents.has (EPOLLIN ||| EPOLLPRI ||| EPOLLRDHUP) = true := by
    rw [Mask.has_flag_or, Mask.has_flag_or, d.readable]
    rfl
  unfold dispatch
  rw [if_pos polled]
  unfold Channel.handleEvents
  simp only [here, asked, callbacks, Channel.invoke, Option.isSome_none, Bool.and_false, if_true,
    ite_self, bind, Except.bind, Bool.false_eq_true, if_false]
  rfl

theorem handThisConn_accounted (ctl : Bool) (a : Acceptor) :
    (handThisConn ctl a).Accounted ↔ a.Accounted := by
  unfold handThisConn
  dsimp only
  split <;> exact Iff.rfl

theorem handThisConn_elided (ctl : Bool) (registered : a.Registered)
    (events : a.acceptChannel.events = EPOLLIN ||| EPOLLET) :
    (handThisConn ctl a).Registered := by
  have elided : (a.acceptChannel.epollMod ctl).1 = .elided := by
    unfold Channel.epollMod Channel.equalAndUpdateLastEvents
    rw [registered.lastEvents, events, beq_self_eq_true]
    rfl
  unfold handThisConn
  dsimp only
  rw [elided]
  exact ⟨registered.polled, registered.interest, events⟩

theorem handNewConn_registered (registered : a.Registered) (d : AcceptDispatch) :
    (handNewConn d.results (a.reported d)).Registered := by
  obtain ⟨lastEvents, interest, polled⟩ := handNewConn_frame d.results (a.reported d)
  exact ⟨polled.trans registered.polled, interest.trans registered.interest,
    lastEvents.trans registered.lastEvents⟩

theorem dispatch_survives_iff (registered : a.Registered) (d : AcceptDispatch) :
    ∃ a', a.dispatch d = .ok a' ∧ (a'.Survives ↔ d.Disposable) ∧
      (d.Disposable → a'.Registered) := by
  have kept : d.Disposable →
      (handThisConn d.ctl (handNewConn d.results (a.reported d))).Registered := by
    intro disposable
    apply handThisConn_elided d.ctl (handNewConn_registered registered d)
    exact (handNewConn_disposes disposable (reported_accounted a d)).2
  refine ⟨_, dispatch_eq registered.polled d, ?_, kept⟩
  constructor
  · intro survives
    by_contra indisposable
    apply handNewConn_loses indisposable (reported_accounted a d)
    exact (handThisConn_accounted d.ctl _).mp survives.accounted
  · intro disposable
    refine ⟨?_, (handThisConn_accounted d.ctl _).mpr ?_⟩
    · rw [(kept disposable).interest]
      decide
    · exact (handNewConn_disposes disposable (reported_accounted a d)).1

theorem start_registered (listenFd : Nat) (pool : LoopThreadPool) :
    (start listenFd pool).Registered := ⟨rfl, rfl, rfl⟩

theorem run_cons {a' : Acceptor} (moved : a.dispatch d = .ok a') (ds : List AcceptDispatch) :
    a.run (d :: ds) = a'.run ds := by
  unfold run
  rw [List.foldlM_cons, moved]
  rfl

theorem registered_survives_iff (registered : a.Registered) (ds : List AcceptDispatch) :
    (∀ front d, front ++ [d] <+: ds → ∃ a', a.run (front ++ [d]) = .ok a' ∧ a'.Survives) ↔
      ∀ d ∈ ds, d.Disposable := by
  induction ds generalizing a with
  | nil =>
      constructor
      · exact fun _ => List.forall_mem_nil _
      · intro _ front d before
        have := before.length_le
        simp at this
  | cons d ds ih =>
      obtain ⟨a', moved, survives_iff, kept⟩ := dispatch_survives_iff registered d
      rw [List.forall_mem_cons]
      constructor
      · intro survives
        have first : d.Disposable := by
          obtain ⟨a₁, ran, survived⟩ := survives [] d (by simp)
          rw [List.nil_append, run_cons moved] at ran
          cases ran
          exact survives_iff.mp survived
        refine ⟨first, (ih (kept first)).mp fun front e before => ?_⟩
        rw [← run_cons moved]
        exact survives (d :: front) e ((List.prefix_cons_inj d).mpr before)
      · rintro ⟨first, later⟩ front e before
        cases front with
        | nil =>
            obtain ⟨rfl, -⟩ := List.cons_prefix_cons.mp before
            exact ⟨a', run_cons moved [], survives_iff.mpr first⟩
        | cons d₁ front =>
            obtain ⟨rfl, within⟩ := List.cons_prefix_cons.mp before
            rw [List.cons_append, run_cons moved]
            exact (ih (kept first)).mpr later front e within

/-- The acceptor survives every dispatch of a run exactly if `accept` never returns `0` in it and
    `SetSocketNonBlocking` never fails on a descriptor below `kMaxFds`. -/
theorem survives_iff (listenFd : Nat) (pool : LoopThreadPool) (ds : List AcceptDispatch) :
    (∀ front d, front ++ [d] <+: ds →
      ∃ a, (start listenFd pool).run (front ++ [d]) = .ok a ∧ a.Survives) ↔
      ∀ d ∈ ds, d.Disposable :=
  registered_survives_iff (start_registered listenFd pool) ds

/-- A connection whose descriptor cannot be made non-blocking. -/
def blockingSocket : AcceptDispatch where
  revents := EPOLLIN
  readable := by decide
  results := [.ok 7 false]
  ctl := true

theorem blockingSocket_stops :
    ¬ ∀ listenFd pool ds front d, front ++ [d] <+: ds →
      ∃ a, (start listenFd pool).run (front ++ [d]) = .ok a ∧ a.Survives := by
  intro survives
  obtain ⟨a, ran, survived⟩ := survives 3 ⟨1, 0, by decide⟩ [blockingSocket] [] blockingSocket
    (List.prefix_refl _)
  cases ran
  exact absurd survived.interest (by decide)

end Acceptor

end WebServer
