import WebServer.Http.Standing

/-! # Rejections without a reply

`HandleRead` calls `HandleError` wherever it rejects a request itself, and `AnalysisRequest` does so
where a file is missing. For a `POST` neither does.
-/

namespace WebServer

open Lib

theorem writeLoop_fail_count {results : List WriteResult} {buff : Bytes}
    (failed : (writeLoop results buff).stop = .failed) :
    (writeLoop results buff).rest.count .fail < results.count .fail := by
  fun_induction writeLoop results buff with
  | case1 | case2 | case5 => cases failed
  | case3 count rest left nonempty ih => simpa using ih failed
  | case4 rest left nonempty ih => simpa using ih failed
  | case6 => simp

theorem writeN_fail_count {k : Kernel} {buff : Bytes} (negative : (writeN k buff).1 < 0) :
    (writeN k buff).2.2.writes.count .fail < k.writes.count .fail := by
  cases stop : (k.write buff).1.stop with
  | failed =>
      rw [HttpData.writeN_kernel]
      exact writeLoop_fail_count stop
  | complete | again =>
      simp only [writeN, stop] at negative
      split_ifs at negative
      · dsimp only at negative
        omega
      · dsimp only at negative
        omega

namespace HttpData

variable {s s' t u : HttpData} {k k' kt : Kernel} {again : Bool}

theorem flush_fail_count (fine : s.error = false) (failed : (flush s k).1.error = true) :
    (flush s k).2.writes.count .fail < k.writes.count .fail := by
  by_cases queued : s.outBuffer.length > 0
  · simp only [flush, if_pos queued] at failed ⊢
    by_cases running : (!s.error && s.connectionState ≠ .hDisconnected) = true
    · simp only [handleWrite, if_pos running] at failed ⊢
      by_cases negative : (writeN k s.outBuffer).1 < 0
      · exact writeN_fail_count negative
      · simp only [if_neg negative] at failed
        split_ifs at failed
        · simp [addEvents, setEvents, fine] at failed
        · simp [fine] at failed
    · simp only [handleWrite, if_neg running] at failed
      rw [fine] at failed
      cases failed
  · simp only [flush, if_neg queued] at failed
    rw [fine] at failed
    cases failed

theorem settle_fail_count (fine : s.error = false) (failed : (settle s k).2.1.error = true) :
    (settle s k).2.2.writes.count .fail < k.writes.count .fail := by
  have broken : (flush s k).1.error = true := by
    by_contra whole
    have going : ¬ s.error = true := by simp [fine]
    simp only [settle, if_neg going] at failed
    split_ifs at failed
    · exact whole failed
    · exact whole failed
    · exact whole failed
  have fewer := flush_fail_count fine broken
  unfold settle
  split_ifs with already
  · rw [fine] at already
    cases already
  dsimp only
  split_ifs <;> exact fewer

/-- `HandleError` was called between two states. -/
def HandleErrorCalled (s s' : HttpData) : Prop :=
  ∃ reply unsent complete, .direct reply unsent complete ∈ s'.history.drop s.history.length

/-- This invocation receives the rest of a `POST`. -/
def CompletesPost (s : HttpData) (k : Kernel) : Prop :=
  ∃ t u, handed s k = some t ∧ AtAnalysis t u ∧ u.method = .methodPost

theorem handed_history (passed : handed s k = some t) :
    t.error = s.error ∧ t.history = s.history := by
  obtain ⟨connectionState, rfl⟩ := handed_read passed
  exact ⟨rfl, rfl⟩

theorem handleError_called (errNum : Nat) (shortMsg : Bytes) {added : List Output}
    (before : t.history = s.history ++ added) (k : Kernel) :
    HandleErrorCalled s (handleError errNum shortMsg t k).1 := by
  obtain ⟨reply, unsent, complete, logged⟩ : ∃ reply unsent complete,
      (handleError errNum shortMsg t k).1.history = t.history ++ [.direct reply unsent complete] :=
    ⟨_, _, _, rfl⟩
  refine ⟨reply, unsent, complete, ?_⟩
  rw [logged, before, List.append_assoc, List.drop_left]
  exact List.mem_append_right _ List.mem_cons_self

theorem CompletesPost.dropped (completes : CompletesPost s k) :
    ∃ t, receive s k = .ok (t, afterRead s k) ∧ t.error = true ∧ t.history = s.history := by
  obtain ⟨t, u, passed, entered, post⟩ := completes
  refine ⟨{ u with error := true }, ?_, rfl, entered.parsed.history.trans (handed_history passed).2⟩
  rw [receive_some passed, entered.analyses]
  exact analysisStage_post entered.analysing post _

theorem analysisFile_answered {header fileType : Bytes} {flag : AnalysisState}
    (answered : analysisFile header fileType s k = (flag, s', k')) :
    flag = .analysisSuccess ∧ s'.error = s.error ∧ k'.writes = k.writes ∨
      flag = .analysisError ∧ HandleErrorCalled s s' := by
  simp only [analysisFile] at answered
  split at answered
  · cases answered
    exact .inr ⟨rfl, handleError_called _ _ (List.append_nil _).symm _⟩
  · split_ifs at answered
    · cases answered
      exact .inl ⟨rfl, rfl, rfl⟩
    · split at answered
      · cases answered
        exact .inr ⟨rfl, handleError_called _ _ rfl _⟩
      · cases answered
        exact .inl ⟨rfl, rfl, rfl⟩

theorem analysisStage_answered (analysing : u.state = .stateAnalysis) (asks : u.method ≠ .methodPost)
    (fine : u.error = false) (ran : analysisStage u k = .ok (s', k')) :
    s'.error = false ∧ k'.writes = k.writes ∨ s'.error = true ∧ HandleErrorCalled u s' := by
  obtain ⟨fileType, -, answered⟩ := analysisRequest_eq asks
  unfold analysisStage at ran
  rw [if_pos analysing, answered k] at ran
  dsimp only at ran
  split_ifs at ran with hello icon
  · cases ran
    exact .inl ⟨fine, rfl⟩
  · cases ran
    exact .inl ⟨fine, rfl⟩
  · generalize result : analysisFile _ fileType _ k = file at ran
    obtain ⟨flag, v, kv⟩ := file
    rcases analysisFile_answered result with ⟨rfl, error, writes⟩ | ⟨rfl, refused⟩
    · cases ran
      exact .inl ⟨error.trans fine, writes⟩
    · cases ran
      exact .inr ⟨rfl, refused⟩

/-- What is received is refused by `HandleError`, unless it is the rest of a `POST`. -/
theorem receive_answered (fine : s.error = false) (ran : receive s k = .ok (t, kt)) :
    t.error = false ∧ kt.writes = k.writes ∨ t.error = true ∧ HandleErrorCalled s t ∨
      CompletesPost s k := by
  cases passed : handed s k with
  | none =>
      cases Withheld.of_receive passed ran with
      | disconnecting => exact .inl ⟨fine, rfl⟩
      | closed => exact .inl ⟨fine, rfl⟩
      | failed => exact .inr (.inl ⟨rfl, handleError_called _ _ (List.append_nil _).symm _⟩)
  | some u =>
      obtain ⟨error, history⟩ := handed_history passed
      rw [receive_some passed] at ran
      cases uriStage_ending ran with
      | waits parsed => exact .inl ⟨parsed.error.trans (error.trans fine), rfl⟩
      | @rejects v _ malformed parsed =>
          have before : v.history = s.history ++ [] := by
            rw [List.append_nil, parsed.history, history]
          exact .inr (.inl ⟨rfl, handleError_called _ _ before _⟩)
      | @analyses v _ _ entered parsed analysing ran =>
          by_cases post : v.method = .methodPost
          · exact .inr (.inr ⟨u, v, passed, entered, post⟩)
          · have same : v.history = s.history := parsed.history.trans history
            have answered := analysisStage_answered analysing post
              (parsed.error.trans (error.trans fine)) ran
            unfold HandleErrorCalled at answered ⊢
            rw [same] at answered
            rcases answered with ⟨served, writes⟩ | refused
            · exact .inl ⟨served, writes⟩
            · exact .inr (.inl refused)

/-- An invocation whose writes do not fail sets `error_` only after `HandleError`, unless it receives
    the rest of a `POST`. -/
theorem handleReadTurn_answered_iff (fine : s.error = false)
    (turn : handleReadTurn s k = .ok (again, s', k'))
    (written : k'.writes.count .fail = k.writes.count .fail) :
    (s'.error = true → HandleErrorCalled s s') ↔ ¬ CompletesPost s k := by
  obtain ⟨t, kt, received, settled⟩ := handleReadTurn_parts turn
  have stops : t.error = true → s' = t := by
    intro failed
    rw [settle, if_pos failed] at settled
    cases settled
    rfl
  constructor
  · intro answers completes
    obtain ⟨t', dropped, failed, history⟩ := completes.dropped
    rw [received] at dropped
    cases dropped
    obtain rfl := stops failed
    obtain ⟨reply, unsent, complete, listed⟩ := answers failed
    rw [history, List.drop_length] at listed
    cases listed
  · intro other failed
    rcases receive_answered fine received with ⟨served, writes⟩ | ⟨refused, answered⟩ | completes
    · have fewer := settle_fail_count (s := t) (k := kt) served
      rw [settled, writes] at fewer
      exact absurd (fewer failed) (by dsimp only; omega)
    · exact stops refused ▸ answered
    · exact absurd completes other

theorem Invoked.running (invoked : Invoked s k t kt) (fine : s.error = false) : t.error = false := by
  cases invoked with
  | call => exact fine
  | nested _ turn => exact (handleReadTurn_running turn).1

end HttpData

section Runs

open HttpData

variable {C : Session → Event → Prop} {σ : Session} {e : Event} {s s' : HttpData} {k k' : Kernel}
  {again : Bool}

/-- In every run, a call of `HandleRead` whose writes do not fail sets `error_` only after
    `HandleError`, unless it receives the rest of a `POST`. -/
theorem rejection_answered_iff (reached : connection.Reached C σ) (called : CallsHandleRead σ e s k)
    (turn : handleReadTurn s k = .ok (again, s', k'))
    (written : k'.writes.count .fail = k.writes.count .fail) :
    (s'.error = true → HandleErrorCalled s s') ↔ ¬ CompletesPost s k := by
  have fine : σ.http.error = false := reached_calm reached called.running.2
  exact handleReadTurn_answered_iff (called.invoked.running fine) turn written

/-- A request that is no request. -/
def unknownMethod : Event where
  revents := EPOLLIN
  reads := [.ok (text "PUT /a.txt HTTP/1.1\r\n")]
  writes := []
  files := fun _ _ => .missing

/-- A complete `POST` without a body. -/
def emptyPost : Event where
  revents := EPOLLIN
  reads := [.ok (text "POST /a.txt HTTP/1.1\r\nContent-length: 0\r\n\r\n")]
  writes := []
  files := fun _ _ => .missing

theorem called_first {e : Event} (alive : ¬ HangUp e.revents) (readable : Readable e.revents) :
    CallsHandleRead (.registered 5) e ((Session.registered 5).before e)
      ((Session.registered 5).kernel e) :=
  ⟨by decide, alive, readable, .call⟩

theorem rejection_answered_unknown :
    ¬ CompletesPost ((Session.registered 5).before unknownMethod)
      ((Session.registered 5).kernel unknownMethod) := by
  have turn : handleReadTurn ((Session.registered 5).before unknownMethod)
      ((Session.registered 5).kernel unknownMethod) = .ok (false, _, _) := rfl
  refine (rejection_answered_iff (C := fun _ _ => True) (.init ⟨5, rfl⟩)
    (called_first (by decide) (by decide)) turn rfl).mp fun _ => ⟨_, _, _, List.mem_singleton.mpr rfl⟩

theorem emptyPost_dropped : ¬ ∀ σ e s k again s' k', connection.Reachable σ →
    CallsHandleRead σ e s k → handleReadTurn s k = .ok (again, s', k') →
    k'.reads.count .fail = k.reads.count .fail → k'.writes.count .fail = k.writes.count .fail →
    s'.error = true → HandleErrorCalled s s' := by
  intro answers
  have turn : handleReadTurn ((Session.registered 5).before emptyPost)
      ((Session.registered 5).kernel emptyPost) = .ok (false, _, _) := rfl
  obtain ⟨reply, unsent, complete, listed⟩ := answers _ _ _ _ _ _ _ (.init ⟨5, rfl⟩)
    (called_first (by decide) (by decide)) turn rfl rfl rfl
  cases listed

end Runs

end WebServer
