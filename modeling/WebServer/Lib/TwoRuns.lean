import Mathlib.Logic.Basic

/-! # Two runs side by side

Two computations that can fail run side by side: either both fail with the same error or both return
related results. The rules follow the computations' binds.
-/

namespace WebServer.Lib

/-- Both computations fail alike, or return results that are related. -/
inductive Both {ε α β : Type} (R : α → β → Prop) : Except ε α → Except ε β → Prop where
  | error (e : ε) : Both R (.error e) (.error e)
  | ok {a : α} {b : β} : R a b → Both R (.ok a) (.ok b)

namespace Both

variable {ε α β γ δ : Type} {R : α → β → Prop} {S : γ → δ → Prop}

theorem same (x : Except ε α) : Both (· = ·) x x := by
  cases x with
  | error e => exact .error e
  | ok a => exact .ok rfl

theorem mono {R' : α → β → Prop} {x : Except ε α} {y : Except ε β} (both : Both R x y)
    (weaker : ∀ a b, R a b → R' a b) : Both R' x y := by
  cases both with
  | error e => exact .error e
  | ok related => exact .ok (weaker _ _ related)

theorem left {P : α → Prop} {x : Except ε α} {y : Except ε β} (both : Both R x y)
    (known : ∀ a, x = .ok a → P a) : Both (fun a b => R a b ∧ P a) x y := by
  cases both with
  | error e => exact .error e
  | ok related => exact .ok ⟨related, known _ rfl⟩

theorem bind {x : Except ε α} {y : Except ε β} {f : α → Except ε γ} {g : β → Except ε δ}
    (first : Both R x y) (second : ∀ a b, R a b → Both S (f a) (g b)) :
    Both S (x >>= f) (y >>= g) := by
  cases first with
  | error e => exact .error e
  | ok related => exact second _ _ related

theorem map {x : Except ε α} {y : Except ε β} {f : α → γ} {g : β → δ}
    (first : Both R x y) (second : ∀ a b, R a b → S (f a) (g b)) : Both S (x.map f) (y.map g) := by
  cases first with
  | error e => exact .error e
  | ok related => exact .ok (second _ _ related)

end Both

end WebServer.Lib
