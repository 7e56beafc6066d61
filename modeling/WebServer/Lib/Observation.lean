import Mathlib.Data.List.Induction
import WebServer.Lib.Transition

/-! # What an observer sees of a run

An observer notes something at some of the steps of a run. What it notes of a run is put together
step by step, so a property that relates it to the state reached is proved by an induction in which
the run grows at its end.
-/

namespace WebServer.Lib.System

variable {σ ι α : Type} {sys : System σ ι} {s t u : σ} {i : ι} {labels : List ι}

/-- What an observer notes of the steps of a run, in order. -/
def observed (sys : System σ ι) (view : σ → ι → List α) (s : σ) : List ι → List α
  | [] => []
  | i :: labels => view s i ++ match sys.step s i with
    | none => []
    | some s' => observed sys view s' labels

theorem replay_concat (ran : sys.replay s labels = some t) (moved : sys.step t i = some u) :
    sys.replay s (labels ++ [i]) = some u := by
  rw [replay_append, ran, Option.bind_some, replay, moved]
  rfl

theorem replay_concat_some (ran : sys.replay s (labels ++ [i]) = some u) :
    ∃ t, sys.replay s labels = some t ∧ sys.step t i = some u := by
  rw [replay_append] at ran
  obtain ⟨t, first, last⟩ := Option.bind_eq_some_iff.mp ran
  obtain ⟨u', moved, same⟩ := Option.bind_eq_some_iff.mp last
  cases same
  exact ⟨t, first, moved⟩

/-- What is noted of a run and of one more step. -/
theorem observed_concat (view : σ → ι → List α) (ran : sys.replay s labels = some t) (i : ι) :
    sys.observed view s (labels ++ [i]) = sys.observed view s labels ++ view t i := by
  induction labels generalizing s with
  | nil =>
      obtain rfl := Option.some.inj ran
      rw [List.nil_append, observed, observed, List.nil_append]
      cases sys.step s i with
      | none => exact List.append_nil _
      | some s' => exact List.append_nil _
  | cons j labels ih =>
      obtain ⟨mid, moved, rest⟩ := Option.bind_eq_some_iff.mp ran
      rw [List.cons_append, observed, observed, moved, List.append_assoc]
      exact congrArg (view s j ++ ·) (ih rest)

theorem replay_induction {P : List ι → σ → Prop} (start : P [] s)
    (grows : ∀ labels t i u, sys.replay s labels = some t → P labels t → sys.step t i = some u →
      P (labels ++ [i]) u)
    (ran : sys.replay s labels = some t) : P labels t := by
  induction labels using List.reverseRecOn generalizing t with
  | nil =>
      obtain rfl := Option.some.inj ran
      exact start
  | append_singleton labels i ih =>
      obtain ⟨mid, first, moved⟩ := replay_concat_some ran
      exact grows labels mid i t first (ih first) moved

end WebServer.Lib.System
