import Mathlib.Logic.Basic

/-! # Guarded transition systems

A system is an initial predicate and an executable step: `step s i` is `none` where the step `i`
is not enabled. `Reached C` collects the states of the runs whose every step meets the condition
`C` on its label and on the state it leaves; `Reachable` asks for no condition.
-/

namespace WebServer.Lib

structure System (σ ι : Type) where
  init : σ → Prop
  step : σ → ι → Option σ

namespace System

variable {σ ι τ κ : Type} (sys : System σ ι)

/-- The states of the runs all of whose steps meet `C`. -/
inductive Reached (C : σ → ι → Prop) : σ → Prop where
  | init {s} : sys.init s → Reached C s
  | step {s i s'} : Reached C s → C s i → sys.step s i = some s' → Reached C s'

/-- The states of all runs. -/
abbrev Reachable : σ → Prop := sys.Reached fun _ _ => True

/-- Perform the steps of `labels` in order. -/
def replay (s : σ) : List ι → Option σ
  | [] => some s
  | i :: labels => (sys.step s i).bind fun s' => replay s' labels

/-- The same steps, started in `s`. -/
def restart (s : σ) : System σ ι := { sys with init := (· = s) }

/-- Some steps that are allowed lead to a state of `Q`. -/
inductive CanReach (allowed : ι → Prop) (Q : σ → Prop) : σ → Prop where
  | here {s} : Q s → CanReach allowed Q s
  | step {s i s'} : allowed i → sys.step s i = some s' → CanReach allowed Q s' →
      CanReach allowed Q s

variable {sys}

/-- The variant rule: while `Q` does not hold, an allowed step keeps `P` and lowers the rank. -/
theorem CanReach.of_rank {allowed : ι → Prop} {P Q : σ → Prop} (rank : σ → Nat)
    (progress : ∀ s, P s → ¬ Q s →
      ∃ i s', allowed i ∧ sys.step s i = some s' ∧ P s' ∧ rank s' < rank s)
    {s} (holds : P s) : sys.CanReach allowed Q s := by
  induction bound : rank s using Nat.strongRecOn generalizing s with
  | ind n ih =>
      by_cases there : Q s
      · exact .here there
      · obtain ⟨i, s', may, moved, holds', less⟩ := progress s holds there
        exact .step may moved (ih (rank s') (bound ▸ less) holds' rfl)

theorem CanReach.trans {allowed : ι → Prop} {P Q : σ → Prop} {s : σ}
    (first : sys.CanReach allowed P s) (onwards : ∀ t, P t → sys.CanReach allowed Q t) :
    sys.CanReach allowed Q s := by
  induction first with
  | here there => exact onwards _ there
  | step may moved _ ih => exact .step may moved ih

/-- The invariant rule: it holds initially and every step that meets the condition keeps it. -/
theorem Reached.invariant {C : σ → ι → Prop} {P : σ → Prop}
    (start : ∀ s, sys.init s → P s)
    (keeps : ∀ s i s', P s → C s i → sys.step s i = some s' → P s')
    {s} (reached : sys.Reached C s) : P s := by
  induction reached with
  | init initial => exact start _ initial
  | step _ met moved ih => exact keeps _ _ _ ih met moved

theorem Reached.invariant_with {C : σ → ι → Prop} {P Q : σ → Prop}
    (known : ∀ s, sys.Reached C s → Q s) (start : ∀ s, sys.init s → P s)
    (keeps : ∀ s i s', Q s → P s → C s i → sys.step s i = some s' → P s')
    {s} (reached : sys.Reached C s) : P s := by
  induction reached with
  | init initial => exact start _ initial
  | step before met moved ih => exact keeps _ _ _ (known _ before) ih met moved

theorem replay_append (s : σ) (labels later : List ι) :
    sys.replay s (labels ++ later) = (sys.replay s labels).bind fun s' => sys.replay s' later := by
  induction labels generalizing s with
  | nil => rfl
  | cons i labels ih =>
      rw [List.cons_append, replay, replay, Option.bind_assoc]
      exact congrArg (Option.bind _) (funext ih)

theorem Reached.replay {C : σ → ι → Prop} {labels : List ι} (met : ∀ i ∈ labels, ∀ s, C s i)
    {s s' : σ} (reached : sys.Reached C s) (done : sys.replay s labels = some s') :
    sys.Reached C s' := by
  induction labels generalizing s with
  | nil =>
      obtain rfl := Option.some.inj done
      exact reached
  | cons i labels ih =>
      obtain ⟨mid, moved, rest⟩ := Option.bind_eq_some_iff.mp done
      exact ih (fun j later => met j (List.mem_cons_of_mem i later))
        (.step reached (met i List.mem_cons_self s) moved) rest

/-- Where good steps keep an invariant that is safe and any other step leaves a state that is not,
    a run is safe throughout exactly if all its steps are good. -/
theorem safe_iff {Inv Safe : σ → Prop} {good : σ → ι → Prop} {allowed : ι → Prop}
    (safe : ∀ s, Inv s → Safe s)
    (keeps : ∀ s i s', Inv s → allowed i → good s i → sys.step s i = some s' → Inv s')
    (breaks : ∀ s i s', Inv s → allowed i → ¬ good s i → sys.step s i = some s' → ¬ Safe s')
    {labels : List ι} (only : ∀ i ∈ labels, allowed i) {s last : σ} (start : Inv s)
    (ran : sys.replay s labels = some last) :
    (∀ done t, done <+: labels → sys.replay s done = some t → Safe t) ↔
      ∀ done i t, done ++ [i] <+: labels → sys.replay s done = some t → good t i := by
  induction labels generalizing s with
  | nil =>
      refine iff_of_true (fun done t within reached => ?_) fun done i t within => ?_
      · obtain rfl := List.prefix_nil.mp within
        exact Option.some.inj reached ▸ safe s start
      · cases done <;> cases List.prefix_nil.mp within
  | cons i labels ih =>
      obtain ⟨next, moved, rest⟩ := Option.bind_eq_some_iff.mp ran
      have first : allowed i := only i List.mem_cons_self
      have later : ∀ j ∈ labels, allowed j := fun j there => only j (List.mem_cons_of_mem i there)
      have after (done : List ι) : sys.replay s (i :: done) = sys.replay next done := by
        rw [System.replay, moved, Option.bind_some]
      constructor
      · intro always
        have fine : good s i := Classical.byContradiction fun bad =>
          breaks s i next start first bad moved
            (always [i] next ((List.prefix_cons_inj i).mpr List.nil_prefix) (after []))
        have onwards := (ih later (keeps s i next start first fine moved) rest).mp
          fun done t within reached =>
            always (i :: done) t ((List.prefix_cons_inj i).mpr within) ((after done).trans reached)
        intro done j t within reached
        cases done with
        | nil =>
            obtain ⟨rfl, -⟩ := List.cons_prefix_cons.mp within
            exact Option.some.inj reached ▸ fine
        | cons i' done =>
            obtain ⟨rfl, inside⟩ := List.cons_prefix_cons.mp within
            exact onwards done j t inside ((after done).symm.trans reached)
      · intro steps
        have fine : good s i := steps [] i s ((List.prefix_cons_inj i).mpr List.nil_prefix) rfl
        have onwards := (ih later (keeps s i next start first fine moved) rest).mpr
          fun done j t within reached =>
            steps (i :: done) j t ((List.prefix_cons_inj i).mpr within) ((after done).trans reached)
        intro done t within reached
        cases done with
        | nil => exact Option.some.inj reached ▸ safe s start
        | cons i' done =>
            obtain ⟨rfl, inside⟩ := List.cons_prefix_cons.mp within
            exact onwards done t inside ((after done).symm.trans reached)

end System

end WebServer.Lib
