import WebServer.Loop.Server

/-! # Who owns a connection

A connection is first queued as a functor, then registered in the tables of its loop, and held by at
most one timer node. Its descriptor stays open as long as the object lives, so the entry of a table
at a descriptor can only be the connection that has this descriptor now. A step acts on one
connection; `Touch` says what it may change, and `Sound.touch` that this keeps the invariant.
-/

namespace WebServer

open Lib

/-- A run of `HandleClose` by a timer came when the timeout was over. -/
def CloseRecord.Due (r : CloseRecord) : Prop :=
  ∀ last now, r.byTimer = some (last, now) → ∃ added timeout, last = some (added, timeout) ∧
    added.milliseconds + timeout ≤ now.milliseconds

namespace IoLoop

/-- The channels still to be handled. -/
def ready (s : IoLoop) : List ReadyChannel :=
  match s.phase with
  | .events ret => ret
  | _ => []

/-- The swapped-out functors still to be run. -/
def toRun (s : IoLoop) : List ConnId :=
  match s.phase with
  | .functors rest => rest
  | _ => []

/-- The connections whose `NewEvent` is still to be run. -/
def queued (s : IoLoop) : List ConnId := s.pendingFunctors ++ s.toRun

/-- The loop refers to the connection. -/
def Mentions (s : IoLoop) (c : ConnId) : Prop :=
  (∃ fd, s.fd2http fd = some c) ∨ (∃ n ∈ s.timerNodeQueue, n.spHttpData = some c) ∨ c ∈ s.queued

end IoLoop

namespace Server

/-- A timer node that holds the connection is the one the connection is linked to, and was made by
    the last `AddTimer`. -/
structure Timed (now : Timeval) (n : TimerNode) (o : Conn) : Prop where
  link : o.http.timer = some n.id
  valid : n.deleted = false
  running : o.http.connectionState ≠ .hDisconnected
  added : ∃ added timeout, o.lastAdd = some (added, timeout) ∧ added.Before now ∧
    n.expiredTime = added.reading + timeout

/-- What holds of a loop in every reachable state. -/
structure LoopSound (w : Server) (l : LoopId) (loop : IoLoop) : Prop where
  channels : ∀ {fd c}, loop.fd2channel fd = some c → loop.fd2http fd = some c
  registered : ∀ {fd c}, loop.fd2http fd = some c → ∃ o, w.objects c = some o ∧ o.loop = l ∧
    o.http.fd = fd ∧ o.http.connectionState ≠ .hDisconnected
  timed : ∀ {n c}, n ∈ loop.timerNodeQueue → n.spHttpData = some c →
    ∃ o, w.objects c = some o ∧ o.loop = l ∧ Timed w.now n o
  ids : (loop.timerNodeQueue.map TimerNode.id).Nodup
  numbered : ∀ {n}, n ∈ loop.timerNodeQueue → n.id < w.nodes
  queued : ∀ {c}, c ∈ loop.queued → ∃ o, w.objects c = some o ∧ o.loop = l ∧
    o.http.timer = none ∧ o.http.connectionState ≠ .hDisconnected ∧ o.http.outBuffer = [] ∧
    loop.fd2http o.http.fd ≠ some c
  once : loop.queued.Nodup
  running : loop.toRun ⊆ loop.functors
  ready : ∀ {fd c}, (fd, c) ∈ loop.ready → loop.fd2channel fd = some c
  distinct : (loop.ready.map Prod.fst).Nodup

/-- What holds in every reachable state. -/
structure Sound (w : Server) : Prop where
  loops : ∀ l, LoopSound w l (w.loops l)
  object : ∀ {c o}, w.objects c = some o → o.http.channel.fd = o.http.fd ∧ o.http.cleared = [] ∧
    w.descriptors o.http.fd = some (.accepted c) ∧ c < w.accepted
  links : ∀ {c d o p i}, w.objects c = some o → w.objects d = some p → o.http.timer = some i →
    p.http.timer = some i → c = d
  linked : ∀ {c o i}, w.objects c = some o → o.http.timer = some i → i < w.nodes
  ended : ∀ {c}, c ∈ w.closed → w.objects c = none ∧ c < w.accepted
  closedOnce : w.closed.Nodup
  recorded : ∀ {r}, r ∈ w.handleClosed → r.conn < w.accepted ∧
    ∀ o, w.objects r.conn = some o → o.http.connectionState = .hDisconnected
  recordedOnce : (w.handleClosed.map CloseRecord.conn).Nodup
  due : ∀ {r}, r ∈ w.handleClosed → r.Due
  live : w.crashed ≠ some .dangling

variable {w w' : Server} {l : LoopId} {c : ConnId} {o o' : Conn}

theorem loopSound_new (w : Server) (l : LoopId) : LoopSound w l .new where
  channels := by
    intro fd c stored
    cases stored
  registered := by
    intro fd c stored
    cases stored
  timed := by
    intro n c here
    cases here
  ids := List.nodup_nil
  numbered := by
    intro n here
    cases here
  queued := by
    intro c here
    cases here
  once := List.nodup_nil
  running := List.nil_subset _
  ready := by
    intro fd c here
    cases here
  distinct := List.nodup_nil

theorem start_sound (now : Timeval) (system : List Nat) : Sound (start now system) where
  loops := loopSound_new _
  object := by
    intro c o here
    cases here
  links := by
    intro c d o p i here
    cases here
  linked := by
    intro c o i here
    cases here
  ended := by
    intro c here
    cases here
  closedOnce := List.nodup_nil
  recorded := by
    intro r here
    cases here
  recordedOnce := List.nodup_nil
  due := by
    intro r here
    cases here
  live := by simp [start]

theorem Sound.same_descriptor (sound : Sound w) {d : ConnId} {p : Conn}
    (one : w.objects c = some o) (other : w.objects d = some p) (same : o.http.fd = p.http.fd) :
    c = d := by
  have mine := (sound.object one).2.2.1
  have its := (sound.object other).2.2.1
  rw [same, its] at mine
  cases mine
  rfl

theorem Sound.setLoop (sound : Sound w) {loop' : IoLoop} (loop : LoopSound w l loop') :
    Sound (w.setLoop l loop') := by
  refine { sound with loops := ?_ }
  intro l'
  by_cases same : l' = l
  · subst same
    rw [setLoop_loops, Function.update_self]
    exact { loop with }
  · rw [setLoop_loops, Function.update_of_ne same]
    exact { sound.loops l' with }

theorem LoopSound.mentions {loop : IoLoop} (sound : LoopSound w l loop) (mentioned : loop.Mentions c)
    (here : w.objects c = some o) : o.loop = l := by
  have its : ∃ p, w.objects c = some p ∧ p.loop = l := by
    rcases mentioned with ⟨fd, stored⟩ | ⟨n, waiting, holds⟩ | queued
    · obtain ⟨p, there, loop, -⟩ := sound.registered stored
      exact ⟨p, there, loop⟩
    · obtain ⟨p, there, loop, -⟩ := sound.timed waiting holds
      exact ⟨p, there, loop⟩
    · obtain ⟨p, there, loop, -⟩ := sound.queued queued
      exact ⟨p, there, loop⟩
  obtain ⟨p, there, loop⟩ := its
  rw [here] at there
  cases there
  exact loop

/-- A loop does not notice what happens to objects that it does not mention. -/
theorem LoopSound.frame {loop : IoLoop} (sound : LoopSound w l loop)
    (kept : ∀ {d p}, loop.Mentions d → w.objects d = some p → w'.objects d = some p)
    (now : w.now.Before w'.now) (nodes : w.nodes ≤ w'.nodes) : LoopSound w' l loop := by
  refine { sound with
    registered := ?registered, timed := ?timed, numbered := ?numbered, queued := ?queued }
  case registered =>
    intro fd d stored
    obtain ⟨p, there, rest⟩ := sound.registered stored
    exact ⟨p, kept (.inl ⟨fd, stored⟩) there, rest⟩
  case timed =>
    intro n d waiting holds
    obtain ⟨p, there, loop, timed⟩ := sound.timed waiting holds
    obtain ⟨added, timeout, last, order, stamp⟩ := timed.added
    exact ⟨p, kept (.inr (.inl ⟨n, waiting, holds⟩)) there, loop, timed.link, timed.valid,
      timed.running, added, timeout, last, order.trans now, stamp⟩
  case numbered =>
    intro n waiting
    exact (sound.numbered waiting).trans_le nodes
  case queued =>
    intro d waiting
    obtain ⟨p, there, rest⟩ := sound.queued waiting
    exact ⟨p, kept (.inr (.inr waiting)) there, rest⟩

/-- What the handlers and the timers of one connection may change; `loop'` is its loop after it. -/
structure Touch (c : ConnId) (o o' : Conn) (w w' : Server) (loop' : IoLoop) : Prop where
  objects : w'.objects = Function.update w.objects c (some o')
  loops : w'.loops = Function.update w.loops o.loop loop'
  descriptors : w'.descriptors = w.descriptors
  now : w'.now = w.now
  accepted : w'.accepted = w.accepted
  closed : w'.closed = w.closed
  crashed : w'.crashed = w.crashed
  nodes : w.nodes ≤ w'.nodes
  loop : o'.loop = o.loop
  fd : o'.http.fd = o.http.fd
  channelFd : o'.http.channel.fd = o.http.channel.fd
  cleared : o'.http.cleared = []
  link : ∀ i, o'.http.timer = some i → o.http.timer = some i ∨ w.nodes ≤ i ∧ i < w'.nodes
  phase : loop'.phase = (w.loops o.loop).phase
  pending : loop'.pendingFunctors = (w.loops o.loop).pendingFunctors
  functors : loop'.functors = (w.loops o.loop).functors
  channels : ∀ fd, fd ≠ o.http.fd → loop'.fd2channel fd = (w.loops o.loop).fd2channel fd
  https : ∀ fd, fd ≠ o.http.fd → loop'.fd2http fd = (w.loops o.loop).fd2http fd
  ownHttp : ∀ d, loop'.fd2http o.http.fd = some d →
    d = c ∧ o'.http.connectionState ≠ .hDisconnected
  ownChannel : ∀ d, loop'.fd2channel o.http.fd = some d → loop'.fd2http o.http.fd = some d
  others : ∀ n ∈ loop'.timerNodeQueue, ∀ d, n.spHttpData = some d → d ≠ c →
    n ∈ (w.loops o.loop).timerNodeQueue
  own : ∀ n ∈ loop'.timerNodeQueue, n.spHttpData = some c → Timed w.now n o'
  ids : (loop'.timerNodeQueue.map TimerNode.id).Nodup
  numbered : ∀ n ∈ loop'.timerNodeQueue, n.id < w'.nodes
  closing : o.http.connectionState = .hDisconnected → o'.http.connectionState = .hDisconnected
  recorded : w'.handleClosed = w.handleClosed ∨
    ∃ r : CloseRecord, w'.handleClosed = w.handleClosed ++ [r] ∧ r.conn = c ∧ r.Due ∧
      o.http.connectionState ≠ .hDisconnected ∧ o'.http.connectionState = .hDisconnected

/-- The connection waits neither for a functor nor for an event. -/
structure Called (w : Server) (c : ConnId) (o : Conn) : Prop where
  here : w.objects c = some o
  queued : c ∉ (w.loops o.loop).queued
  ready : o.http.fd ∉ (w.loops o.loop).ready.map Prod.fst

theorem Touch.mine {loop' : IoLoop} (t : Touch c o o' w w' loop') : w'.objects c = some o' := by
  rw [t.objects, Function.update_self]

theorem Touch.apart {loop' : IoLoop} (t : Touch c o o' w w' loop') {d : ConnId} (other : d ≠ c) :
    w'.objects d = w.objects d := by
  rw [t.objects, Function.update_of_ne other]

theorem Touch.holds {loop' : IoLoop} (t : Touch c o o' w w' loop') {d : ConnId} {p : Conn}
    (there : w'.objects d = some p) : d = c ∧ p = o' ∨ d ≠ c ∧ w.objects d = some p := by
  by_cases own : d = c
  · rw [own, t.mine] at there
    exact .inl ⟨own, (Option.some.inj there).symm⟩
  · rw [t.apart own] at there
    exact .inr ⟨own, there⟩

/-- The other connections of a loop keep what they have. -/
theorem Touch.loopSound {loop' : IoLoop} (t : Touch c o o' w w' loop') (sound : Sound w)
    (called : Called w c o) : LoopSound w' o.loop loop' := by
  have here := called.here
  have before := sound.loops o.loop
  have mine_only : ∀ d p, w.objects d = some p → p.http.fd = o.http.fd → d = c :=
    fun d p there same => sound.same_descriptor there here same
  have queued_eq : loop'.queued = (w.loops o.loop).queued := by
    simp only [IoLoop.queued, IoLoop.toRun, t.phase, t.pending]
  have ready_eq : loop'.ready = (w.loops o.loop).ready := by
    simp only [IoLoop.ready, t.phase]
  constructor
  case channels =>
    intro fd d stored
    by_cases own : fd = o.http.fd
    · subst own
      exact t.ownChannel d stored
    · rw [t.channels fd own] at stored
      rw [t.https fd own]
      exact before.channels stored
  case registered =>
    intro fd d stored
    by_cases own : fd = o.http.fd
    · subst own
      obtain ⟨rfl, running⟩ := t.ownHttp d stored
      exact ⟨o', t.mine, t.loop, t.fd, running⟩
    · rw [t.https fd own] at stored
      obtain ⟨p, there, loop, fd_eq, running⟩ := before.registered stored
      have other : d ≠ c := by
        rintro rfl
        rw [here] at there
        cases there
        exact own fd_eq.symm
      exact ⟨p, (t.apart other).trans there, loop, fd_eq, running⟩
  case timed =>
    intro n d waiting holds
    rw [t.now]
    by_cases own : d = c
    · subst own
      exact ⟨o', t.mine, t.loop, t.own n waiting holds⟩
    · obtain ⟨p, there, rest⟩ := before.timed (t.others n waiting d holds own) holds
      exact ⟨p, (t.apart own).trans there, rest⟩
  case ids => exact t.ids
  case numbered =>
    intro n waiting
    exact t.numbered n waiting
  case queued =>
    intro d waiting
    rw [queued_eq] at waiting
    obtain ⟨p, there, loop, unlinked, running, empty, unregistered⟩ := before.queued waiting
    have other : d ≠ c := by
      rintro rfl
      exact called.queued waiting
    refine ⟨p, (t.apart other).trans there, loop, unlinked, running, empty, ?_⟩
    rw [t.https _ fun fd_eq => other (mine_only d p there fd_eq)]
    exact unregistered
  case once =>
    rw [queued_eq]
    exact before.once
  case running =>
    simp only [IoLoop.toRun, t.phase, t.functors]
    exact before.running
  case ready =>
    intro fd d listed
    rw [ready_eq] at listed
    rw [t.channels fd ?_]
    · exact before.ready listed
    · rintro rfl
      exact called.ready (List.mem_map_of_mem listed)
  case distinct =>
    rw [ready_eq]
    exact before.distinct

theorem Touch.otherLoop {loop' : IoLoop} (t : Touch c o o' w w' loop') (sound : Sound w)
    (here : w.objects c = some o) (other : l ≠ o.loop) : LoopSound w' l (w'.loops l) := by
  rw [t.loops, Function.update_of_ne other]
  refine (sound.loops l).frame ?_ (t.now ▸ .refl _) t.nodes
  intro d p mentioned there
  rw [t.apart, there]
  rintro rfl
  exact other ((sound.loops l).mentions mentioned here).symm

theorem Touch.unlinked {loop' : IoLoop} (t : Touch c o o' w w' loop') (sound : Sound w)
    (here : w.objects c = some o) {d : ConnId} {p : Conn} {i : Nat} (other : d ≠ c)
    (there : w.objects d = some p) (link : o'.http.timer = some i) : p.http.timer ≠ some i := by
  intro its
  rcases t.link i link with old | ⟨later, -⟩
  · exact other (sound.links there here its old)
  · exact absurd (sound.linked there its) (Nat.not_lt.mpr later)

theorem Touch.stillRecorded {loop' : IoLoop} (t : Touch c o o' w w' loop') (sound : Sound w)
    (here : w.objects c = some o) {r : CloseRecord} (listed : r ∈ w.handleClosed) :
    r.conn < w'.accepted ∧
      ∀ p, w'.objects r.conn = some p → p.http.connectionState = .hDisconnected := by
  obtain ⟨known, shut⟩ := sound.recorded listed
  rw [t.accepted]
  refine ⟨known, fun p there => ?_⟩
  rcases t.holds there with ⟨own, rfl⟩ | ⟨-, there⟩
  · exact t.closing (shut o (own ▸ here))
  · exact shut p there

theorem Sound.touch {loop' : IoLoop} (sound : Sound w) (called : Called w c o)
    (t : Touch c o o' w w' loop') : Sound w' := by
  have here := called.here
  constructor
  case loops =>
    intro l
    by_cases same : l = o.loop
    · subst same
      rw [t.loops, Function.update_self]
      exact t.loopSound sound called
    · exact t.otherLoop sound here same
  case object =>
    intro d p there
    rw [t.descriptors, t.accepted]
    rcases t.holds there with ⟨rfl, rfl⟩ | ⟨-, there⟩
    · obtain ⟨channel_fd, -, descriptor, known⟩ := sound.object here
      exact ⟨t.channelFd.trans (channel_fd.trans t.fd.symm), t.cleared, t.fd ▸ descriptor, known⟩
    · exact sound.object there
  case links =>
    intro d e p q i one two its too
    rcases t.holds one with ⟨rfl, rfl⟩ | ⟨own, one⟩
    · rcases t.holds two with ⟨same, -⟩ | ⟨also, two⟩
      · exact same.symm
      · exact absurd too (t.unlinked sound here also two its)
    · rcases t.holds two with ⟨rfl, rfl⟩ | ⟨-, two⟩
      · exact absurd its (t.unlinked sound here own one too)
      · exact sound.links one two its too
  case linked =>
    intro d p i there link
    rcases t.holds there with ⟨rfl, rfl⟩ | ⟨-, there⟩
    · rcases t.link i link with old | ⟨-, known⟩
      · exact (sound.linked here old).trans_le t.nodes
      · exact known
    · exact (sound.linked there link).trans_le t.nodes
  case ended =>
    intro d shut
    rw [t.closed] at shut
    rw [t.accepted]
    obtain ⟨gone, known⟩ := sound.ended shut
    have other : d ≠ c := by
      rintro rfl
      rw [here] at gone
      cases gone
    exact ⟨(t.apart other).trans gone, known⟩
  case closedOnce =>
    rw [t.closed]
    exact sound.closedOnce
  case recorded =>
    intro r listed
    rcases t.recorded with same | ⟨new, more, rfl, -, -, shut⟩
    · rw [same] at listed
      exact t.stillRecorded sound here listed
    · rw [more, List.mem_append, List.mem_singleton] at listed
      rcases listed with old | rfl
      · exact t.stillRecorded sound here old
      · rw [t.accepted]
        refine ⟨(sound.object here).2.2.2, fun p there => ?_⟩
        rw [t.mine] at there
        cases there
        exact shut
  case recordedOnce =>
    rcases t.recorded with same | ⟨new, more, rfl, -, running, -⟩
    · rw [same]
      exact sound.recordedOnce
    · rw [more, List.map_append, List.nodup_append]
      refine ⟨sound.recordedOnce, by simp, ?_⟩
      intro d listed e added
      obtain ⟨r, old, rfl⟩ := List.mem_map.mp listed
      rw [List.map_singleton, List.mem_singleton] at added
      subst added
      intro same
      exact running ((sound.recorded old).2 o (same ▸ here))
  case due =>
    intro r listed
    rcases t.recorded with same | ⟨new, more, -, due, -, -⟩
    · rw [same] at listed
      exact sound.due listed
    · rw [more, List.mem_append, List.mem_singleton] at listed
      rcases listed with old | rfl
      · exact sound.due old
      · exact due
  case live =>
    rw [t.crashed]
    exact sound.live

/-- The connection as an operation finds it is the one stored, up to what its handlers did. -/
structure Handled (o o₁ : Conn) : Prop where
  loop : o₁.loop = o.loop
  fd : o₁.http.fd = o.http.fd
  channelFd : o₁.http.channel.fd = o.http.channel.fd
  cleared : o₁.http.cleared = []
  before : o.http.connectionState ≠ .hDisconnected
  after : o₁.http.connectionState ≠ .hDisconnected
  lastAdd : o₁.lastAdd = o.lastAdd
  timer : o₁.http.timer = o.http.timer ∨ o₁.http.timer = none

theorem Handled.link {o o₁ : Conn} (handled : Handled o o₁) {i : Nat}
    (link : o₁.http.timer = some i) : o.http.timer = some i := by
  rcases handled.timer with same | none
  · exact same.symm.trans link
  · rw [none] at link
    cases link

/-- No timer node of its loop holds the connection. -/
def Untimed (w : Server) (c : ConnId) (o : Conn) : Prop :=
  ∀ n ∈ (w.loops o.loop).timerNodeQueue, n.spHttpData ≠ some c

variable {o₁ : Conn}

theorem Sound.own_entry (sound : Sound w) (here : w.objects c = some o) {d : ConnId}
    (stored : (w.loops o.loop).fd2http o.http.fd = some d) : d = c := by
  obtain ⟨p, there, -, same, -⟩ := (sound.loops o.loop).registered stored
  exact sound.same_descriptor there here same

/-- The handlers' changes are stored. -/
theorem Sound.setConn (sound : Sound w) (called : Called w c o) (handled : Handled o o₁)
    (linked : ∀ n ∈ (w.loops o.loop).timerNodeQueue, n.spHttpData = some c →
      o₁.http.timer = some n.id) : Sound (w.setConn c o₁) := by
  have before := sound.loops o.loop
  suffices touch : Touch c o o₁ w (w.setConn c o₁) (w.loops o.loop) from sound.touch called touch
  refine {
    objects := rfl
    loops := (Function.update_eq_self ..).symm
    descriptors := rfl, now := rfl, accepted := rfl, closed := rfl, crashed := rfl
    nodes := le_rfl
    loop := handled.loop, fd := handled.fd, channelFd := handled.channelFd
    cleared := handled.cleared
    link := fun i link => .inl (handled.link link)
    phase := rfl, pending := rfl, functors := rfl
    channels := fun _ _ => rfl
    https := fun _ _ => rfl
    ownHttp := fun d stored => ⟨sound.own_entry called.here stored, handled.after⟩
    ownChannel := fun d stored => before.channels stored
    others := fun n waiting _ _ _ => waiting
    own := ?own
    ids := before.ids
    numbered := fun n waiting => before.numbered waiting
    closing := fun shut => absurd shut handled.before
    recorded := .inl rfl }
  case own =>
    intro n waiting holds
    obtain ⟨p, there, -, timed⟩ := before.timed waiting holds
    rw [called.here] at there
    cases there
    exact ⟨linked n waiting holds, timed.valid, handled.after, handled.lastAdd ▸ timed.added⟩

/-- The connection after `AddTimer`, with its channel as `EpollAdd` or `EpollMod` leave it. -/
def relinked (w : Server) (o : Conn) (timeout : Nat) : Conn :=
  { o with
    http := { o.http with
      timer := some w.nodes
      channel := { o.http.channel with lastEvents := o.http.channel.events } }
    lastAdd := some (w.now, timeout) }

/-- The process after `AddTimer` for a connection and changes to its loop's tables. -/
def added (w : Server) (c : ConnId) (o : Conn) (timeout : Nat) (loop : IoLoop) : Server :=
  { w with
    objects := Function.update w.objects c (some (w.relinked o timeout))
    loops := Function.update w.loops o.loop { loop with
      timerNodeQueue :=
        (w.loops o.loop).timerNodeQueue ++ [.new w.nodes c timeout w.now] }
    nodes := w.nodes + 1 }

theorem epollAdd_eq (ctl : Bool) (w : Server) (c : ConnId) (o : Conn) (timeout : Nat) :
    epollAdd ctl w c o timeout = w.added c o timeout { w.loops o.loop with
      fd2http := Function.update (w.loops o.loop).fd2http o.http.channel.fd (some c)
      fd2channel := Function.update (w.loops o.loop).fd2channel o.http.channel.fd
        (if ctl then some c else none)
      interest := if ctl
        then Function.update (w.loops o.loop).interest o.http.channel.fd
          (some o.http.channel.events)
        else (w.loops o.loop).interest } := by
  unfold epollAdd addTimer added
  simp only [setLoop_loops, Function.update_self]
  simp only [Server.setConn, Server.setLoop, Function.update_idem]
  rfl

/-- The tables of a loop after `EpollMod`. -/
def modified (ctl : Bool) (loop : IoLoop) (channel : Channel) : IoLoop :=
  match (channel.epollMod ctl).1 with
  | .elided => loop
  | .registered mask => { loop with interest := Function.update loop.interest channel.fd (some mask) }
  | .failed => { loop with fd2channel := Function.update loop.fd2channel channel.fd none }

theorem epollMod_eq (ctl : Bool) (w : Server) (c : ConnId) (o : Conn) (timeout : Nat) :
    epollMod ctl w c o timeout =
      w.added c o timeout (modified ctl (w.loops o.loop) o.http.channel) := by
  unfold epollMod addTimer added modified
  simp only [setLoop_loops, Function.update_self]
  simp only [Server.setConn, Server.setLoop, Function.update_idem]
  cases (o.http.channel.epollMod ctl).1 with
  | elided => rfl
  | registered mask => rfl
  | failed => rfl

/-- A connection without a timer gets one, and tables change only at its descriptor. -/
theorem Sound.added (sound : Sound w) (called : Called w c o) (handled : Handled o o₁)
    (untimed : Untimed w c o) {timeout : Nat} {loop' : IoLoop}
    (phase : loop'.phase = (w.loops o.loop).phase)
    (pending : loop'.pendingFunctors = (w.loops o.loop).pendingFunctors)
    (functors : loop'.functors = (w.loops o.loop).functors)
    (channels : ∀ fd, fd ≠ o.http.fd → loop'.fd2channel fd = (w.loops o.loop).fd2channel fd)
    (https : ∀ fd, fd ≠ o.http.fd → loop'.fd2http fd = (w.loops o.loop).fd2http fd)
    (ownHttp : ∀ d, loop'.fd2http o.http.fd = some d → d = c)
    (ownChannel : ∀ d, loop'.fd2channel o.http.fd = some d → loop'.fd2http o.http.fd = some d) :
    Sound (w.added c o₁ timeout loop') := by
  have before := sound.loops o.loop
  suffices touch : Touch c o (w.relinked o₁ timeout) w (w.added c o₁ timeout loop') { loop' with
      timerNodeQueue := (w.loops o.loop).timerNodeQueue ++ [.new w.nodes c timeout w.now] } from
    sound.touch called touch
  refine {
    objects := rfl
    loops := ?loops
    descriptors := rfl, now := rfl, accepted := rfl, closed := rfl, crashed := rfl
    nodes := Nat.le_succ _
    loop := handled.loop, fd := handled.fd, channelFd := handled.channelFd
    cleared := handled.cleared
    link := fun i link => .inr (Option.some.inj link ▸ ⟨le_rfl, Nat.lt_succ_self _⟩)
    phase, pending, functors, channels, https, ownChannel
    ownHttp := fun d stored => ⟨ownHttp d stored, handled.after⟩
    others := ?others
    own := ?own
    ids := ?ids
    numbered := ?numbered
    closing := fun shut => absurd shut handled.before
    recorded := .inl rfl }
  case loops =>
    show Function.update w.loops o₁.loop _ = _
    rw [handled.loop]
  case others =>
    intro n waiting d holds other
    rcases List.mem_append.mp waiting with old | new
    · exact old
    · rw [List.mem_singleton.mp new] at holds
      cases holds
      exact absurd rfl other
  case own =>
    intro n waiting holds
    rcases List.mem_append.mp waiting with old | new
    · exact absurd holds (untimed n old)
    · rw [List.mem_singleton.mp new]
      exact ⟨rfl, rfl, handled.after, w.now, timeout, rfl, .refl _, rfl⟩
  case ids =>
    rw [List.map_append, List.nodup_append]
    refine ⟨before.ids, by simp, ?_⟩
    intro i old j new
    obtain ⟨n, waiting, rfl⟩ := List.mem_map.mp old
    rw [List.map_singleton, List.mem_singleton] at new
    subst new
    exact (before.numbered waiting).ne
  case numbered =>
    intro n waiting
    rcases List.mem_append.mp waiting with old | new
    · exact (before.numbered old).trans (Nat.lt_succ_self _)
    · rw [List.mem_singleton.mp new]
      exact Nat.lt_succ_self _

theorem Sound.epollMod (sound : Sound w) (called : Called w c o) (handled : Handled o o₁)
    (untimed : Untimed w c o) (ctl : Bool) (timeout : Nat) : Sound (epollMod ctl w c o₁ timeout) := by
  have before := sound.loops o.loop
  have fd_eq : o₁.http.channel.fd = o.http.fd :=
    handled.channelFd.trans (sound.object called.here).1
  rw [epollMod_eq, handled.loop]
  unfold modified
  split
  · exact sound.added called handled untimed rfl rfl rfl (fun _ _ => rfl) (fun _ _ => rfl)
      (fun d => sound.own_entry called.here) (fun d => before.channels)
  · exact sound.added called handled untimed rfl rfl rfl (fun _ _ => rfl) (fun _ _ => rfl)
      (fun d => sound.own_entry called.here) (fun d => before.channels)
  · refine sound.added called handled untimed rfl rfl rfl ?_ (fun _ _ => rfl)
      (fun d => sound.own_entry called.here) ?_
    · intro fd other
      rw [fd_eq]
      exact Function.update_of_ne other ..
    · intro d stored
      rw [fd_eq] at stored
      exact absurd stored (by simp)

theorem Sound.epollAdd (sound : Sound w) (called : Called w c o) (handled : Handled o o₁)
    (untimed : Untimed w c o) (ctl : Bool) (timeout : Nat) : Sound (epollAdd ctl w c o₁ timeout) := by
  have fd_eq : o₁.http.channel.fd = o.http.fd :=
    handled.channelFd.trans (sound.object called.here).1
  rw [epollAdd_eq, handled.loop, fd_eq]
  refine sound.added called handled untimed rfl rfl rfl ?_ ?_ ?_ ?_
  · intro fd other
    exact Function.update_of_ne other ..
  · intro fd other
    exact Function.update_of_ne other ..
  · intro d stored
    simp only [Function.update_self] at stored
    exact (Option.some.inj stored).symm
  · intro d stored
    simp only [Function.update_self] at stored ⊢
    split at stored
    · exact stored
    · cases stored

/-- `HandleClose` on a connection that no timer node holds any more. -/
theorem Sound.handleClose (sound : Sound w) (called : Called w c o) (handled : Handled o o₁)
    (untimed : Untimed w c o) (ctl : Bool) {byTimer : Option (Option (Timeval × Nat) × Timeval)}
    (due : (CloseRecord.mk c byTimer).Due) : Sound (handleClose ctl w c o₁ byTimer) := by
  have before := sound.loops o.loop
  have fd_eq : o₁.http.channel.fd = o.http.fd :=
    handled.channelFd.trans (sound.object called.here).1
  suffices touch : Touch c o { o₁ with http.connectionState := .hDisconnected } w
      (Server.handleClose ctl w c o₁ byTimer) { w.loops o.loop with
        fd2channel := Function.update (w.loops o.loop).fd2channel o.http.fd none
        fd2http := Function.update (w.loops o.loop).fd2http o.http.fd none
        interest := if ctl then Function.update (w.loops o.loop).interest o.http.fd none
          else (w.loops o.loop).interest } from sound.touch called touch
  refine {
    objects := rfl
    loops := ?loops
    descriptors := rfl, now := rfl, accepted := rfl, closed := rfl, crashed := rfl
    nodes := le_rfl
    loop := handled.loop, fd := handled.fd, channelFd := handled.channelFd
    cleared := handled.cleared
    link := fun i link => .inl (handled.link link)
    phase := rfl, pending := rfl, functors := rfl
    channels := fun fd other => Function.update_of_ne other ..
    https := fun fd other => Function.update_of_ne other ..
    ownHttp := ?ownHttp
    ownChannel := ?ownChannel
    others := fun n waiting _ _ _ => waiting
    own := fun n waiting holds => absurd holds (untimed n waiting)
    ids := before.ids
    numbered := fun n waiting => before.numbered waiting
    closing := fun _ => rfl
    recorded := .inr ⟨⟨c, byTimer⟩, rfl, rfl, due, handled.before, rfl⟩ }
  case loops =>
    show Function.update w.loops o₁.loop _ = _
    simp only [handled.loop, fd_eq, setConn_loops]
  case ownHttp =>
    intro d stored
    simp at stored
  case ownChannel =>
    intro d stored
    simp at stored

end Server

end WebServer
