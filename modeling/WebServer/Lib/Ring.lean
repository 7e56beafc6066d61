import Mathlib.Data.List.Basic
import Mathlib.Data.Nat.ModEq

/-! # Rings

A queue in a circle of slots: its items stand in successive slots from `first` on, and the slot
behind the last one comes round to the first. What the other slots hold does not matter.
-/

namespace WebServer.Lib

variable {α : Type}

/-- The slots from `first` on hold the items. -/
structure Ring (slots : List α) (first : Nat) (items : List α) : Prop where
  room : items.length ≤ slots.length
  slot : ∀ i x, items[i]? = some x → slots[(first + i) % slots.length]? = some x

namespace Ring

variable {slots items : List α} {first : Nat} {x : α}

theorem empty (slots : List α) (first : Nat) : Ring slots first [] where
  room := Nat.zero_le _
  slot i x there := by cases there

theorem slot_ne {size i j : Nat} (less : i < j) (inside : j < size) (first : Nat) :
    (first + i) % size ≠ (first + j) % size := by
  intro same
  have steps : i ≡ j [MOD size] := Nat.ModEq.add_left_cancel' first same
  rw [Nat.ModEq, Nat.mod_eq_of_lt (less.trans inside), Nat.mod_eq_of_lt inside] at steps
  exact absurd steps less.ne

/-- An item is written behind the last one. -/
theorem push (ring : Ring slots first items) (free : items.length < slots.length) (x : α) :
    Ring (slots.set ((first + items.length) % slots.length) x) first (items ++ [x]) where
  room := by
    rw [List.length_append, List.length_singleton, List.length_set]
    exact free
  slot i y there := by
    have inside : i < (items ++ [x]).length := (List.getElem?_eq_some_iff.mp there).1
    rw [List.length_append, List.length_singleton] at inside
    rw [List.length_set]
    rcases Nat.lt_or_eq_of_le (Nat.le_of_lt_succ inside) with older | rfl
    · rw [List.getElem?_append_left older] at there
      rw [List.getElem?_set_ne (slot_ne older free first).symm]
      exact ring.slot i y there
    · rw [List.getElem?_concat_length] at there
      rw [List.getElem?_set_self (Nat.mod_lt _ (Nat.zero_lt_of_lt free)), there]

theorem head (ring : Ring slots first (x :: items)) : slots[first % slots.length]? = some x :=
  ring.slot 0 x rfl

/-- The first item is taken out, and its slot overwritten. -/
theorem pop (ring : Ring slots first (x :: items)) (y : α) :
    Ring (slots.set (first % slots.length) y) ((first + 1) % slots.length) items where
  room := by
    have := ring.room
    rw [List.length_cons] at this
    rw [List.length_set]
    omega
  slot i z there := by
    have room := ring.room
    rw [List.length_cons] at room
    have inside : i < items.length := (List.getElem?_eq_some_iff.mp there).1
    have apart : first % slots.length ≠ (first + (i + 1)) % slots.length := by
      have := slot_ne (Nat.succ_pos i) (show i + 1 < slots.length by omega) first
      rwa [Nat.add_zero] at this
    have next : ((first + 1) % slots.length + i) % slots.length =
        (first + (i + 1)) % slots.length := by
      rw [Nat.mod_add_mod, Nat.add_assoc, Nat.add_comm 1]
    rw [List.length_set, next, List.getElem?_set_ne apart]
    exact ring.slot (i + 1) z there

end Ring

end WebServer.Lib
