/-!
# Stages of a computation

* `of_bind_ok`          what two stages give, both of them gave;
* `bind_eq_error_iff`   two stages fail in the first, or in the second after it.
-/

namespace ChipEight

variable {ε α β : Type} {x : Except ε α} {f : α → Except ε β}

theorem of_bind_ok {b : β} (h : x >>= f = .ok b) : ∃ a, x = .ok a ∧ f a = .ok b := by
  cases x with
  | error e => cases h
  | ok a => exact ⟨a, rfl, h⟩

theorem bind_eq_error_iff {e : ε} :
    x >>= f = .error e ↔ x = .error e ∨ ∃ a, x = .ok a ∧ f a = .error e := by
  cases x with
  | error e' =>
    refine ⟨fun h => .inl ?_, fun h => h.elim ?_ nofun⟩
    · cases h
      rfl
    · rintro ⟨⟩
      rfl
  | ok a =>
    refine ⟨fun h => .inr ⟨a, rfl, h⟩, fun h => h.elim nofun ?_⟩
    rintro ⟨_, ⟨⟩, h⟩
    exact h

end ChipEight
