import WebServer.Http.OrderedOutput

/-! # Where a call finds its connection

How far a request is read is kept in six members. Only the stages change them, apart from `Reset`;
so a property of these members that holds while a request line is awaited, and that the stages keep,
holds at every call of `HandleRead` and at every call it nests.
-/

namespace WebServer

open Lib

/-- The members that tell how far a request is read. -/
structure Standing where
  state : ProcessState
  hState : ParseState
  method : HttpMethod
  fileName : Bytes
  nowReadPos : Nat
  headers : Bytes → Option Bytes

/-- A request line is awaited, and nothing is left of the request before. -/
structure Standing.Awaits (v : Standing) : Prop where
  state : v.state = .stateParseUri
  hState : v.hState = .hStart
  fileName : v.fileName = []
  nowReadPos : v.nowReadPos = 0
  headers : v.headers = fun _ => none

namespace HttpData

def standing (s : HttpData) : Standing :=
  ⟨s.state, s.hState, s.method, s.fileName, s.nowReadPos, s.headers⟩

variable {s s' t u : HttpData} {k k' kt : Kernel}

theorem reset_awaits (s : HttpData) : s.reset.standing.Awaits := ⟨rfl, rfl, rfl, rfl, rfl⟩

theorem flush_standing (s : HttpData) (k : Kernel) : (flush s k).1.standing = s.standing := by
  obtain ⟨events, outBuffer, error, kept⟩ := (flush_flushed s k).kept
  rw [kept]
  rfl

theorem handed_keeps (passed : handed s k = some t) :
    t.standing = s.standing ∧ t.inBuffer = (readN k.reads 0 s.inBuffer).inBuffer := by
  obtain ⟨connectionState, rfl⟩ := handed_read passed
  exact ⟨rfl, rfl⟩

theorem receive_stays (stops : handed s k = none) (ran : receive s k = .ok (s', k')) :
    s'.standing = s.standing ∧ k'.looked = k.looked := by
  cases Withheld.of_receive stops ran with
  | disconnecting => exact ⟨rfl, rfl⟩
  | closed => exact ⟨rfl, rfl⟩
  | failed => exact ⟨rfl, rfl⟩

theorem settle_standing (s : HttpData) (k : Kernel) :
    (settle s k).2.1.error = true ∨ (settle s k).2.1.standing.Awaits ∨
      s.state ≠ .stateFinish ∧ (settle s k).2.1.standing = s.standing := by
  have flushed := flush_standing s k
  have state : (flush s k).1.state = s.state := congrArg Standing.state flushed
  unfold settle
  split_ifs with failed
  · exact .inl failed
  dsimp only
  split_ifs with finished going
  · exact .inr (.inl (reset_awaits _))
  · refine .inr (.inr ⟨?_, flushed⟩)
    rw [← state]
    simp only [Bool.and_eq_true, Bool.not_eq_true', decide_eq_true_eq, not_and] at finished going
    exact finished going.1
  · by_cases broken : (flush s k).1.error = true
    · exact .inl broken
    · refine .inr (.inr ⟨?_, flushed⟩)
      rw [← state]
      simpa [broken] using finished

/-- The stages keep `P`, unless they finish the request or give it up. -/
def Keeps (P : Standing → Prop) (u : HttpData) : Prop :=
  P u.standing → ∀ k t kt, uriStage u k = .ok (t, kt) →
    t.error = true ∨ t.state = .stateFinish ∨ P t.standing

variable {P : Standing → Prop}

theorem handleReadTurn_standing {again : Bool} (fresh : ∀ v : Standing, v.Awaits → P v)
    (stages : ∀ u, handed s k = some u → Keeps P u) (holds : P s.standing)
    (turn : handleReadTurn s k = .ok (again, s', k')) : s'.error = true ∨ P s'.standing := by
  obtain ⟨t, kt, received, settled⟩ := handleReadTurn_parts turn
  have parsed : t.error = true ∨ t.state = .stateFinish ∨ P t.standing := by
    cases passed : handed s k with
    | none =>
        rw [(receive_stays passed received).1]
        exact .inr (.inr holds)
    | some u =>
        rw [receive_some passed] at received
        exact stages u passed ((handed_keeps passed).1.symm ▸ holds) _ _ _ received
  have ends := settle_standing t kt
  rw [settled] at ends
  rcases ends with failed | awaits | ⟨unfinished, same⟩
  · exact .inl failed
  · exact .inr (fresh _ awaits)
  · rcases parsed with failed | finished | kept
    · have stops : settle t kt = (false, t, kt) := by
        unfold settle
        rw [if_pos failed]
      rw [stops] at settled
      cases settled
      exact .inl failed
    · exact absurd finished unfinished
    · rw [← same] at kept
      exact .inr kept

theorem Invoked.standing (fresh : ∀ v : Standing, v.Awaits → P v)
    (stages : ∀ t kt, Invoked s k t kt → ∀ u, handed t kt = some u → Keeps P u)
    (holds : P s.standing) (invoked : Invoked s k t kt) : P t.standing := by
  induction invoked with
  | call => exact holds
  | nested before turn ih =>
      rcases handleReadTurn_standing fresh (stages _ _ before) ih turn with failed | kept
      · rw [(handleReadTurn_running turn).1] at failed
        cases failed
      · exact kept

theorem handleRead_standing (fresh : ∀ v : Standing, v.Awaits → P v)
    (stages : ∀ t kt, Invoked s k t kt → ∀ u, handed t kt = some u → Keeps P u)
    (holds : P s.standing) (ran : handleRead s k = .ok (s', k')) :
    s'.error = true ∨ P s'.standing := by
  refine handleRead_rule (P := fun t _ => P t.standing)
    (Q := fun t _ => t.error = true ∨ P t.standing) holds ?_ ?_ ran
  · intro t kt t' kt' before _ turn
    exact (Invoked.nested before turn).standing fresh stages holds
  · intro t kt t' kt' before kept turn
    exact handleReadTurn_standing fresh (stages t kt before) kept turn

theorem writePart_standing (revents : Mask) (s : HttpData) (k : Kernel) :
    (writePart revents s k).1.standing = s.standing := by
  unfold writePart
  split_ifs
  · obtain ⟨events, outBuffer, error, kept⟩ := (handleWrite_flushed s k).kept
    rw [kept]
    rfl
  · rfl

theorem writePart_failed {revents : Mask} (failed : s.error = true) :
    (writePart revents s k).1.error = true := by
  unfold writePart handleWrite
  simp [failed]

theorem handleConn_standing (s : HttpData) (request : LoopRequest) :
    (s.handleConn.1.granted request).standing = s.standing ∧
      (s.handleConn.1.granted request).error = s.error := by
  cases request <;> simp only [handleConn] <;> split_ifs <;> exact ⟨rfl, rfl⟩

end HttpData

variable {P : Standing → Prop} {C : Session → Event → Prop} {σ : Session} {e : Event}

/-- The event runs the read callback, and `s` with `k` is one of its invocations. -/
structure CallsHandleRead (σ : Session) (e : Event) (s : HttpData) (k : Kernel) : Prop where
  running : σ.Open
  alive : ¬ HttpData.HangUp e.revents
  readable : HttpData.Readable e.revents
  invoked : HttpData.Invoked (σ.before e) (σ.kernel e) s k

theorem after_standing (fresh : ∀ v : Standing, v.Awaits → P v)
    (stages : ∀ t kt, CallsHandleRead σ e t kt → ∀ u, HttpData.handed t kt = some u → u.Keeps P)
    (running : σ.Open) (holds : P σ.http.standing) :
    (σ.after e).http.error = true ∨ P (σ.after e).http.standing := by
  rcases Session.after_cases (σ := σ) (e := e) with
    ⟨-, same⟩ | ⟨alive, ⟨fault, -, same⟩ | ⟨t, kt, read, same⟩⟩
  · rw [same]
    exact .inr holds
  · rw [same]
    exact .inr holds
  · have kept : t.error = true ∨ P t.standing := by
      rw [HttpData.readPart] at read
      split_ifs at read with readable
      · exact HttpData.handleRead_standing fresh
          (fun t kt invoked => stages t kt ⟨running, alive, readable, invoked⟩) holds read
      · cases read
        exact .inr holds
    obtain ⟨standing, error⟩ := HttpData.handleConn_standing
      (HttpData.writePart e.revents t kt).1 (HttpData.writePart e.revents t kt).1.handleConn.2
    rw [same]
    dsimp only
    rw [standing, error, HttpData.writePart_standing]
    exact kept.imp_left HttpData.writePart_failed

/-- The rule for runs: what the stages of every invocation keep holds while a connection is open. -/
theorem standing_run (fresh : ∀ v : Standing, v.Awaits → P v)
    (stages : ∀ σ e, C σ e → ∀ t kt, CallsHandleRead σ e t kt →
      ∀ u, HttpData.handed t kt = some u → u.Keeps P)
    (reached : connection.Reached C σ) (running : σ.Open) :
    σ.http.error = false ∧ P σ.http.standing := by
  have fine := reached_calm reached running.2
  have kept : σ.http.error = true ∨ P σ.http.standing := by
    refine reached.invariant_with (Q := Calm) (P := fun σ => σ.http.error = true ∨ P σ.http.standing)
      (fun _ => reached_calm) ?_ ?_
    · rintro σ ⟨fd, rfl⟩
      exact .inr (fresh _ ⟨rfl, rfl, rfl, rfl, rfl⟩)
    · rintro σ e σ' calm holds met moved
      obtain ⟨running, rfl⟩ := Session.step_some moved
      exact after_standing fresh (stages σ e met) running
        (holds.resolve_left (by simp [calm running.2]))
  exact ⟨fine, kept.resolve_left (by simp [fine])⟩

end WebServer
