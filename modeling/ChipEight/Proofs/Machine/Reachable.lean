import ChipEight.Machine.Console
import ChipEight.Proofs.Machine.Operations

/-!
# What a machine can come to

A machine starts fresh or from a saved state, and anything may be done to it in any order.  Saved
states and programs are not trusted: every value that they can give a part of the machine is
covered, and so is every state that a fault leaves.

* `Started.run_saved`    the machine stays well formed; it can be saved, and what was saved is
                         accepted again;
* `ofProgram_iff`        the faults of a program;
* `console_tick_error`   a tick that nobody watches fails as the machine does;
* `Started.run_faults`   no tick meets any other fault, and the timers never fail.
-/

namespace ChipEight

theorem Fault.ofProgram_iff {f : Fault} :
    f.ofProgram = true ↔
      (∃ a, f = .outOfBounds a) ∨ (∃ pc, f = .stackOverflow pc) ∨ ∃ pc, f = .stackUnderflow pc := by
  cases f with
  | outOfBounds a => exact ⟨fun _ => .inl ⟨a, rfl⟩, fun _ => rfl⟩
  | stackOverflow pc => exact ⟨fun _ => .inr (.inl ⟨pc, rfl⟩), fun _ => rfl⟩
  | stackUnderflow pc => exact ⟨fun _ => .inr (.inr ⟨pc, rfl⟩), fun _ => rfl⟩
  | _ => simp [ofProgram]

namespace Machine

/-! ## saving -/

/-- whatever is done to a machine, it is well formed after it, and can be saved and restored -/
theorem Started.run_saved {m : Machine} (h : m.Started) (ops : List Op) :
    (m.run ops).state.WellFormed ∧
      ∃ bytes, (m.run ops).snapshot = .ok bytes ∧ bytes.length = 4412 ∧
        ∀ dice tracing, ∃ r, Machine.restore bytes dice tracing = .ok r := by
  have hw := run_wellFormed h.wellFormed ops
  refine ⟨hw, (m.run ops).state.image, State.encode_wellFormed hw, State.length_image _,
    fun dice tracing => ?_⟩
  exact ⟨_, restore_of_decode (State.decode_image hw) dice tracing⟩

/-- a return without a call, with keys that do not exist before and after it -/
theorem Started.run_saved_underflow :
    (Machine.fresh (.cycle #[]) false).Started ∧
      ((Machine.fresh (.cycle #[]) false).run
        [.load [0x00, 0xEE], .press 16, .tick, .lift (-1), .tick60, .tick]).state.WellFormed ∧
      ∃ bytes, ((Machine.fresh (.cycle #[]) false).run
        [.load [0x00, 0xEE], .press 16, .tick, .lift (-1), .tick60, .tick]).snapshot = .ok bytes ∧
        bytes.length = 4412 ∧ ∀ dice tracing, ∃ r, Machine.restore bytes dice tracing = .ok r :=
  ⟨.fresh _ _, Started.run_saved (.fresh _ _) _⟩

/-! ## faults -/

theorem tick_ofProgram {m : Machine} (h : m.state.WellFormed) {f : Fault}
    (hf : m.tick.result = .error f) : f.ofProgram = true := by
  rw [result_tick] at hf
  exact State.step_ofProgram h hf

theorem console_tick_error {m : Machine} {out : Pipe Message} {e : Escape}
    (he : ((Console.ofMachine m).tick out).result = .error e) :
    ∃ f, m.tick.result = .error f ∧ e = .cause (.fault f) := by
  unfold Console.tick at he
  cases hr : m.tick.result with
  | error f =>
    simp only [Console.ofMachine, hr] at he
    cases he
    exact ⟨f, rfl, rfl⟩
  | ok drawn =>
    cases drawn <;> simp [Console.ofMachine, hr, Console.tell, Console.watching, announce_nil] at he

theorem console_tick60 (m : Machine) (out : Pipe Message) :
    ((Console.ofMachine m).tick60 out).result = .ok false := rfl

theorem perform_error {m : Machine} {o : Op} {f : Fault}
    (h : (m.perform o).2 = .ticked (.error f)) : m.tick.result = .error f := by
  cases o with
  | tick => exact Answer.ticked.inj h
  | _ => cases h

/-- whatever is done to a machine, its ticks fail with faults of the program only; nor does its
console meet any other as long as nobody watches, and its timers never fail -/
theorem Started.run_faults {m : Machine} (h : m.Started) (ops : List Op) :
    (∀ f, .ticked (.error f) ∈ m.answers ops →
      (∃ a, f = .outOfBounds a) ∨ (∃ pc, f = .stackOverflow pc) ∨ ∃ pc, f = .stackUnderflow pc) ∧
    ∀ out,
      (∀ e, ((Console.ofMachine (m.run ops)).tick out).result = .error e →
        (∃ a, e = .cause (.fault (.outOfBounds a))) ∨
          (∃ pc, e = .cause (.fault (.stackOverflow pc))) ∨
          ∃ pc, e = .cause (.fault (.stackUnderflow pc))) ∧
      ((Console.ofMachine (m.run ops)).tick60 out).result = .ok false := by
  refine ⟨fun f hf => ?_, fun out => ⟨fun e he => ?_, console_tick60 _ out⟩⟩
  · obtain ⟨before, o, after, -, ha⟩ := mem_answers hf
    exact Fault.ofProgram_iff.mp
      (tick_ofProgram (run_wellFormed h.wellFormed before) (perform_error ha.symm))
  · obtain ⟨f, hf, rfl⟩ := console_tick_error he
    have hkind := Fault.ofProgram_iff.mp (tick_ofProgram (run_wellFormed h.wellFormed ops) hf)
    rcases hkind with ⟨a, rfl⟩ | ⟨pc, rfl⟩ | ⟨pc, rfl⟩
    · exact .inl ⟨a, rfl⟩
    · exact .inr (.inl ⟨pc, rfl⟩)
    · exact .inr (.inr ⟨pc, rfl⟩)

/-- a program that calls itself, for longer than the stack lasts -/
theorem Started.run_faults_overflow :
    (Machine.fresh (.cycle #[]) false).Started ∧
      ∀ f, .ticked (.error f) ∈ (Machine.fresh (.cycle #[]) false).answers
          (.load [0x22, 0x00] :: List.replicate 17 .tick) →
        (∃ a, f = .outOfBounds a) ∨ (∃ pc, f = .stackOverflow pc) ∨
          ∃ pc, f = .stackUnderflow pc :=
  ⟨.fresh _ _, (Started.run_faults (.fresh _ _) _).1⟩

end Machine

end ChipEight
