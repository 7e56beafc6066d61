import WebServer.Http.Answer
import WebServer.Http.Isolation

/-! # What is seen of a call of `HandleRead`

From outside, a call is what the socket accepts in it, what is queued when it returns and whether it
gives the connection up. Connections that are linked are seen alike, and so are headers that nobody
looks up.
-/

namespace WebServer.HttpData

open Lib

variable {s : HttpData} {k : Kernel} {h : HeaderMap}

/-- What the socket has accepted when `HandleRead` returns or throws, and if it returns, what is still
    queued and whether the connection is given up. -/
def observed (s : HttpData) (k : Kernel) : Bytes × Option (Bytes × Bool) :=
  (accepted s k, (handleRead s k).toOption.map fun (s, _) => (s.outBuffer, s.error))

/-- The same after an invocation that goes on like this. -/
def settledView : Bool × HttpData × Kernel → Bytes × Option (Bytes × Bool)
  | (true, s, k) => observed s k
  | (false, s, k) => (k.sent, some (s.outBuffer, s.error))

/-- The same after the stages, before which nothing is sent. -/
def stagesView : Outcome → Bytes × Option (Bytes × Bool)
  | .error _ => ([], none)
  | .ok (s, k) => settledView (settle s k)

theorem stagesView_ok (s : HttpData) (k : Kernel) :
    stagesView (.ok (s, k)) = settledView (settle s k) := rfl

theorem observed_eq (s : HttpData) (k : Kernel) : observed s k =
    match handleReadTurn s k with
    | .error _ => (k.sent, none)
    | .ok next => settledView next := by
  unfold observed
  rw [accepted_eq, handleRead_eq]
  cases handleReadTurn s k with
  | error e => rfl
  | ok next =>
      obtain ⟨again, t, kt⟩ := next
      cases again <;> rfl

/-- The same results with these headers instead. -/
def withHeaders (h : HeaderMap) (result : HttpData × Kernel) : HttpData × Kernel :=
  ({ result.1 with headers := h }, result.2)

theorem flush_headers (s : HttpData) (k : Kernel) (h : HeaderMap) :
    flush { s with headers := h } k = withHeaders h (flush s k) := by
  unfold flush handleWrite withHeaders
  dsimp only
  by_cases queued : s.outBuffer.length > 0
  · by_cases live : (!s.error && s.connectionState ≠ .hDisconnected) = true
    · rw [if_pos queued, if_pos queued, if_pos live, if_pos live]
      dsimp only [setEvents, addEvents]
      by_cases failed : (writeN k s.outBuffer).1 < 0
      · simp only [if_pos failed]
        split_ifs <;> rfl
      · simp only [if_neg failed]
        split_ifs <;> rfl
    · rw [if_pos queued, if_pos queued, if_neg live, if_neg live]
  · rw [if_neg queued, if_neg queued]

theorem settle_headers (s : HttpData) (k : Kernel) (h : HeaderMap) :
    ∃ g, settle { s with headers := h } k = ((settle s k).1, withHeaders g (settle s k).2) ∧
      ((settle s k).1 = true → withHeaders g (settle s k).2 = (settle s k).2) := by
  unfold settle
  rw [flush_headers]
  unfold withHeaders
  dsimp only
  split_ifs
  · exact ⟨h, rfl, nofun⟩
  · exact ⟨_, rfl, fun _ => rfl⟩
  · exact ⟨h, rfl, nofun⟩
  · exact ⟨h, rfl, nofun⟩

section Differences

variable {s t : HttpData} {k k' : Kernel}

theorem observed_linked (linked : Linked Eq s t) (beside : Beside [] [] k k') :
    observed s k = observed t k' := by
  obtain ⟨x, sent, sent'⟩ := accepted_linked linked beside
  have both := handleRead_linked linked beside
  unfold observed
  rw [sent, sent']
  generalize handleRead s k = first at both
  generalize handleRead t k' = second at both
  cases both with
  | error e => rfl
  | ok related =>
      obtain ⟨linked, -⟩ := related
      simp only [Except.toOption, Option.map_some, linked.outBuffer, linked.error]

theorem stagesView_linked (linked : Linked Eq s t) (beside : Beside [] [] k k') :
    stagesView (.ok (s, k)) = stagesView (.ok (t, k')) := by
  obtain ⟨again, linked, beside⟩ := settle_linked linked beside
  rw [stagesView_ok, stagesView_ok]
  generalize settle s k = a at again linked beside
  generalize settle t k' = b at again linked beside
  obtain ⟨flag, u, ku⟩ := a
  obtain ⟨_, v, kv⟩ := b
  dsimp only at again linked beside
  subst again
  cases flag with
  | true => exact observed_linked linked beside
  | false =>
      obtain ⟨x, sent, sent'⟩ := beside.sent
      simp only [settledView, sent, sent', linked.outBuffer, linked.error]

theorem stagesView_headers (o : Outcome) (h : HeaderMap) :
    stagesView (o.map (withHeaders h)) = stagesView o := by
  cases o with
  | error e => rfl
  | ok result =>
      obtain ⟨s, k⟩ := result
      obtain ⟨g, same, reset⟩ := settle_headers s k h
      show settledView (settle { s with headers := h } k) = settledView (settle s k)
      rw [same]
      generalize settle s k = next at reset
      obtain ⟨again, t, kt⟩ := next
      cases again with
      | true => exact congrArg (fun result => settledView (true, result)) (reset rfl)
      | false => rfl

end Differences

theorem stagesView_badRequest {t : HttpData} (queued : t.outBuffer = []) (shortMsg : Bytes)
    (k : Kernel) : stagesView (.ok (badRequest shortMsg t k)) =
      ((badRequest shortMsg (HttpData.new 0) k).2.sent, some ([], true)) := by
  have silent : (badRequest shortMsg t k).1.outBuffer = [] := queued
  rw [stagesView_ok, settle_error (badRequest_error _ _ _), settledView, silent, badRequest_error]
  rfl

/-- What is seen of the first call of a fresh connection, which finds this chunk. -/
def reaction (fd : Nat) (chunk : Bytes) (writes : List WriteResult) (files : Nat → Bytes → FileView) :
    Bytes × Option (Bytes × Bool) :=
  observed (HttpData.new fd) { reads := arriving chunk, writes, files, looked := [], sent := [] }

theorem reaction_eq (fd : Nat) {chunk : Bytes} (brought : chunk.length < 2 ^ 31)
    (writes : List WriteResult) (files : Nat → Bytes → FileView) :
    reaction fd chunk writes files =
      stagesView (uriStage { HttpData.new fd with inBuffer := chunk }
        { reads := [], writes, files, looked := [], sent := [] }) := by
  have staged := handleReadTurn_bringing (s := HttpData.new fd)
    (k := { reads := arriving chunk, writes, files, looked := [], sent := [] }) rfl rfl
    (counted_of_lt brought)
  have buffered : (HttpData.new fd).inBuffer ++ chunk = chunk := rfl
  rw [buffered] at staged
  unfold reaction
  rw [observed_eq, staged]
  generalize uriStage _ _ = o
  cases o with
  | error e => rfl
  | ok result => rfl

theorem reaction_refused {fd : Nat} {chunk : Bytes} {t : HttpData} (brought : chunk.length < 2 ^ 31)
    (queued : t.outBuffer = []) {writes : List WriteResult} {files : Nat → Bytes → FileView}
    (staged : uriStage { HttpData.new fd with inBuffer := chunk }
      { reads := [], writes, files, looked := [], sent := [] } = .ok (badRequest (text "Bad Request") t
        { reads := [], writes, files, looked := [], sent := [] })) :
    reaction fd chunk writes files = ((badRequest (text "Bad Request") (HttpData.new 0)
      { reads := [], writes, files, looked := [], sent := [] }).2.sent, some ([], true)) := by
  rw [reaction_eq fd brought, staged, stagesView_badRequest queued]

end WebServer.HttpData
