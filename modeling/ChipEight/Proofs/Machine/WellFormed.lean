import ChipEight.Proofs.Machine.Control

/-!
# Well-formed machines

The types of a state bound nearly all of its parts: bytes are bytes, the index is a word, registers
and keys are sixteen, pixels 64 by 32.  What they leave open is in `WellFormed`: the program counter
and the stack are sixteen bits wide, the stack pointer is on the stack or just above it, and the
machine waits for a key exactly if it knows the register that does.

* `WellFormed`               those bounds, of a control and of a state;
* `Control.Moves.wellFormed` no instruction leaves them, as long as it was fetched from memory;
* `step_wellFormed`          no tick leaves them;
* `step_ofProgram`           a tick of a well-formed machine fails with faults of the program only.

The width of the program counter hangs on the fetch: skips and far jumps do not cut it, but after a
fetch it is at most 4096, from where no instruction leads beyond sixteen bits.
-/

namespace ChipEight

structure Control.WellFormed (c : Control) : Prop where
  pc_lt : c.pc < 65536
  sp_le : c.sp ≤ 16
  stack_lt : ∀ k : Fin 16, c.stack.get k < 65536
  awaiting_iff : c.mode = .awaitingKey ↔ c.awaiting.isSome = true

def State.WellFormed (s : State) : Prop := s.control.WellFormed

theorem Control.Moves.wellFormed {c d : Control} {i : Instruction} (hm : c.Moves i d)
    (h : c.WellFormed) (hpc : c.pc ≤ 4096) : d.WellFormed := by
  obtain ⟨-, hsp, hstack, hawait⟩ := h
  cases hm with
  | stay => exact ⟨by omega, hsp, hstack, hawait⟩
  | skip => exact ⟨by dsimp only; omega, hsp, hstack, hawait⟩
  | jump a => exact ⟨by dsimp only; omega, hsp, hstack, hawait⟩
  | jumpFrom a b =>
    have hb := b.toNat_lt
    exact ⟨by dsimp only; omega, hsp, hstack, hawait⟩
  | call a hlt =>
    refine ⟨by dsimp only; omega, by dsimp only; omega, fun k => ?_, hawait⟩
    show (c.stack.set c.sp c.pc)[k.val] < 65536
    rw [Vector.getElem_set]
    split
    · omega
    · exact hstack k
  | ret k hk => exact ⟨hstack k, by dsimp only; omega, hstack, hawait⟩
  | wait x => exact ⟨by dsimp only; omega, hsp, hstack, fun _ => rfl, fun _ => rfl⟩

namespace State

theorem fresh_wellFormed : fresh.WellFormed := by
  refine ⟨by decide, by decide, fun k => ?_, ?_⟩
  · show (Vector.replicate 16 0)[k.val] < 65536
    rw [Vector.getElem_replicate]
    omega
  · simp [control, fresh]

theorem WellFormed.waitFor {s : State} (h : s.WellFormed) (x : Register) :
    (s.waitFor x).WellFormed :=
  ⟨h.pc_lt, h.sp_le, h.stack_lt, fun _ => rfl, fun _ => rfl⟩

theorem WellFormed.withRam {s : State} (h : s.WellFormed) (ram : Ram) :
    State.WellFormed { s with ram } := h

/-! ## ticks -/

theorem run1_wellFormed {s : State} (h : s.WellFormed) (roll : UInt8) :
    (s.run1 roll).state.WellFormed := by
  by_cases hpc : s.pc + 1 < 4096
  · have hle : s.next.pc ≤ 4096 := by
      show s.pc + 2 ≤ 4096
      omega
    have hnext : s.next.WellFormed :=
      ⟨Nat.lt_of_le_of_lt hle (by decide), h.sp_le, h.stack_lt, h.awaiting_iff⟩
    rw [run1_of_lt hpc]
    exact (moves_exec (s := s.next) h.sp_le _ roll).wellFormed hnext hle
  · rw [run1_outside hpc]
    exact h

theorem run1_ofProgram {s : State} (h : s.WellFormed) {roll : UInt8} {f : Fault}
    (hf : (s.run1 roll).result = .error f) : f.ofProgram = true := by
  by_cases hpc : s.pc + 1 < 4096
  · rw [run1_of_lt hpc] at hf
    exact exec_ofProgram (s := s.next) h.sp_le hf
  · rw [run1_outside hpc] at hf
    cases hf
    rfl

theorem WellFormed.waiting {s : State} (h : s.WellFormed) (hm : s.mode = .awaitingKey) :
    ∃ x, s.awaiting = some x :=
  Option.isSome_iff_exists.mp (h.awaiting_iff.mp hm)

theorem WellFormed.awaitingKey {s : State} (h : s.WellFormed) {x : Register}
    (hx : s.awaiting = some x) : s.mode = .awaitingKey :=
  h.awaiting_iff.mpr (Option.isSome_of_mem hx)

theorem WellFormed.running {s : State} (h : s.WellFormed) (hx : s.awaiting = none) :
    s.mode = .running := by
  cases hm : s.mode with
  | running => rfl
  | awaitingKey =>
    obtain ⟨x, hx'⟩ := h.waiting hm
    rw [hx] at hx'
    cases hx'

theorem step_wellFormed {s : State} (h : s.WellFormed) (roll : UInt8) :
    (s.step roll).state.WellFormed := by
  cases hm : s.mode with
  | running =>
    rw [step_running roll hm]
    exact run1_wellFormed (s := { s with released := none }) h roll
  | awaitingKey =>
    cases hr : s.released with
    | none =>
      rw [step_waiting roll hm hr]
      exact h
    | some k =>
      obtain ⟨x, hx⟩ := h.waiting hm
      rw [step_answered roll hm hx hr]
      exact ⟨h.pc_lt, h.sp_le, h.stack_lt, by simp [control, resume]⟩

theorem step_ofProgram {s : State} (h : s.WellFormed) {roll : UInt8} {f : Fault}
    (hf : (s.step roll).result = .error f) : f.ofProgram = true := by
  cases hm : s.mode with
  | running =>
    rw [step_running roll hm] at hf
    exact run1_ofProgram (s := { s with released := none }) h hf
  | awaitingKey =>
    cases hr : s.released with
    | none =>
      rw [step_waiting roll hm hr] at hf
      cases hf
    | some k =>
      obtain ⟨x, hx⟩ := h.waiting hm
      rw [step_answered roll hm hx hr] at hf
      cases hf

end State

end ChipEight
