import ChipEight.Proofs.Machine.Faults

/-!
# The instruction that is due

A tick executes an instruction unless the machine waits for a key or the word at the program
counter does not lie in memory.

* `Machine.due`    the instruction that the next tick executes;
* `due_eq_some`    when that is which;
* `tick_due`       the tick then: the counter moves on, no key is pending any more, and the
                   instruction is executed.
-/

namespace ChipEight

theorem State.fetched_answer (s : State) (k : Key) : (s.answer k).fetched = none := by
  unfold answer
  split <;> rfl

namespace Machine

def due (m : Machine) : Option Instruction :=
  (m.state.step m.dice.next).fetched.map (·.instruction)

theorem due_fetched {m : Machine} (hm : m.state.mode = .running) (h : m.state.pc < 4095) :
    m.due = some (.decode m.state.opcode) := by
  rw [due, State.step_fetched _ hm h]
  rfl

theorem due_outside {m : Machine} (hm : m.state.mode = .running) (h : 4095 ≤ m.state.pc) :
    m.due = none := by
  rw [due, State.step_outside _ hm h]
  rfl

theorem due_awaiting {m : Machine} (hm : m.state.mode = .awaitingKey) : m.due = none := by
  unfold due State.step
  simp only [hm]
  split
  · rw [State.fetched_answer]
    rfl
  · rfl

theorem due_eq_some {m : Machine} {i : Instruction} :
    m.due = some i ↔
      m.state.mode = .running ∧ m.state.pc < 4095 ∧ .decode m.state.opcode = i := by
  cases hm : m.state.mode with
  | running =>
    by_cases hpc : m.state.pc < 4095
    · simp [due_fetched hm hpc, hpc]
    · simp [due_outside hm (Nat.not_lt.mp hpc), hpc]
  | awaitingKey => simp [due_awaiting hm]

theorem tick_due {m : Machine} {i : Instruction} (h : m.due = some i) :
    m.tick.result = (m.state.entered.exec i m.dice.next).result ∧
      m.tick.machine =
        { m with
          state := (m.state.entered.exec i m.dice.next).state
          dice := m.dice.after i
          trace := m.traced } := by
  obtain ⟨hm, hpc, rfl⟩ := due_eq_some.mp h
  exact ⟨result_tick_fetched hm hpc, machine_tick_fetched hm hpc⟩

end Machine

end ChipEight
