import ChipEight.Machine.Step
import ChipEight.Proofs.Drawing.Bounds
import ChipEight.Proofs.Machine.Memory

/-!
# What an instruction can do

The control of a state is the part that its next instruction is chosen by: the program counter, the
stack, and whether a register waits for a key.  Nearly all instructions leave it alone.

* `Control`, `State.control`   that part of a state;
* `Control.Moves c i c'`       instruction `i` can take control `c` to `c'`;
* `moves_exec`                 and nothing else happens to it, whether the instruction fails or not;
* `exec_ofProgram`             an instruction only fails with a fault of the program, as long as the
                               stack pointer is on the stack;
* `State.next`, `State.opcode` the state after a fetch, and the word that was fetched;
* `run1_of_lt`, `run1_outside` the two cases of a tick: an instruction is executed, or its word
                               does not lie in memory.
-/

namespace ChipEight

structure Control where
  pc : Nat
  sp : Nat
  stack : Vector Nat 16
  mode : Mode
  awaiting : Option Register

def State.control (s : State) : Control := ⟨s.pc, s.sp, s.stack, s.mode, s.awaiting⟩

inductive Control.Moves (c : Control) : Instruction → Control → Prop where
  | stay (i : Instruction) : Moves c i c
  | skip (i : Instruction) : Moves c i { c with pc := c.pc + 2 }
  | jump (a : Address) : Moves c (.jump a) { c with pc := a }
  | jumpFrom (a : Address) (b : UInt8) : Moves c (.jumpFrom a) { c with pc := a + b.toNat }
  | call (a : Address) (h : c.sp < 16) :
      Moves c (.call a) { c with pc := a, sp := c.sp + 1, stack := c.stack.set c.sp c.pc }
  | ret (k : Fin 16) (h : c.sp = k + 1) :
      Moves c .ret { c with pc := c.stack.get k, sp := k }
  | wait (x : Register) :
      Moves c (.awaitKey x) { c with mode := .awaitingKey, awaiting := some x }

namespace State

/-! ## control, operation by operation -/

theorem state_doneUnless (s : State) (f : Option Fault) : (s.doneUnless f).state = s := by
  cases f <;> rfl

theorem result_doneUnless {s : State} {f : Option Fault} {g : Fault}
    (h : (s.doneUnless f).result = .error g) : f = some g := by
  cases f with
  | none => cases h
  | some f => exact congrArg some (Except.error.inj h)

theorem control_doStore (s : State) (bytes : List UInt8) :
    (s.doStore bytes).state.control = s.control := by
  rw [doStore, state_doneUnless, control]
  rfl

theorem control_doLoad (s : State) (n : Nat) : (s.doLoad n).state.control = s.control := by
  rw [doLoad, state_doneUnless, control]
  rfl

theorem control_doDraw (s : State) (x y : Register) (n : Nat) :
    (s.doDraw x y n).state.control = s.control := by
  unfold doDraw
  split
  · rfl
  · dsimp only
    split <;> rfl

theorem moves_skipIf (s : State) (i : Instruction) (c : Bool) :
    s.control.Moves i (s.skipIf c).control := by
  cases c with
  | false => exact .stay i
  | true => exact .skip i

theorem moves_doReturn {s : State} (h : s.sp ≤ 16) :
    s.control.Moves .ret s.doReturn.state.control := by
  unfold doReturn
  split
  · exact .stay .ret
  · have htop : s.sp - 1 < 16 := by omega
    rw [dif_pos htop]
    have hsp : s.control.sp = s.sp - 1 + 1 := by
      show s.sp = s.sp - 1 + 1
      omega
    exact .ret ⟨s.sp - 1, htop⟩ hsp

theorem moves_doCall (s : State) (a : Address) :
    s.control.Moves (.call a) (s.doCall a).state.control := by
  unfold doCall
  split
  · rename_i h
    exact .call a h
  · exact .stay (.call a)

theorem moves_exec {s : State} (h : s.sp ≤ 16) (i : Instruction) (roll : UInt8) :
    s.control.Moves i (s.exec i roll).state.control := by
  cases i with
  | ret => exact moves_doReturn h
  | jump a => exact .jump a
  | jumpFrom a => exact .jumpFrom a _
  | call a => exact moves_doCall s a
  | skipIfByte x b => exact moves_skipIf s _ _
  | skipUnlessByte x b => exact moves_skipIf s _ _
  | skipIfEqual x y => exact moves_skipIf s _ _
  | skipUnlessEqual x y => exact moves_skipIf s _ _
  | skipIfPressed x => exact moves_skipIf s _ _
  | skipUnlessPressed x => exact moves_skipIf s _ _
  | awaitKey x => exact .wait x
  | storeDecimal x =>
    rw [exec, control_doStore]
    exact .stay _
  | store x =>
    rw [exec, control_doStore]
    exact .stay _
  | load x =>
    rw [exec, control_doLoad]
    exact .stay _
  | draw x y n =>
    rw [exec, control_doDraw]
    exact .stay _
  | _ => exact .stay _

/-! ## faults, operation by operation -/

theorem doReturn_ofProgram {s : State} (h : s.sp ≤ 16) {f : Fault}
    (hf : s.doReturn.result = .error f) : f.ofProgram = true := by
  unfold doReturn at hf
  split at hf
  · cases hf
    rfl
  · rw [dif_pos (by omega)] at hf
    cases hf

theorem doCall_ofProgram {s : State} {a : Address} {f : Fault}
    (hf : (s.doCall a).result = .error f) : f.ofProgram = true := by
  unfold doCall at hf
  split at hf
  · cases hf
  · cases hf
    rfl

theorem doStore_ofProgram {s : State} {bytes : List UInt8} {f : Fault}
    (hf : (s.doStore bytes).result = .error f) : f.ofProgram = true := by
  obtain ⟨c, rfl⟩ := Ram.putRun_fault (result_doneUnless hf)
  rfl

theorem doLoad_ofProgram {s : State} {n : Nat} {f : Fault}
    (hf : (s.doLoad n).result = .error f) : f.ofProgram = true := by
  obtain ⟨c, rfl⟩ := Ram.readRun_fault (result_doneUnless hf)
  rfl

theorem doDraw_ofProgram {s : State} {x y : Register} {n : Nat} {f : Fault}
    (hf : (s.doDraw x y n).result = .error f) : f.ofProgram = true := by
  unfold doDraw at hf
  cases hr : s.ram.readRun s.i.toNat n with
  | mk sprite failed =>
    cases failed with
    | some g =>
      rw [hr] at hf
      cases hf
      obtain ⟨c, rfl⟩ := Ram.readRun_fault (congrArg Prod.snd hr)
      rfl
    | none =>
      have hlen : sprite.length = n := by
        have hl := Ram.length_readRun (congrArg Prod.snd hr)
        rwa [hr] at hl
      obtain ⟨d, hd⟩ := Drawing.rows_ok ⟨s.screen, false⟩ ((s.v.get x).toNat % 64)
        ((s.v.get y).toNat % 32) hlen
      simp only [hr, hd] at hf
      cases hf

theorem exec_ofProgram {s : State} (h : s.sp ≤ 16) {i : Instruction} {roll : UInt8} {f : Fault}
    (hf : (s.exec i roll).result = .error f) : f.ofProgram = true := by
  cases i with
  | ret => exact doReturn_ofProgram h hf
  | call a => exact doCall_ofProgram hf
  | storeDecimal x => exact doStore_ofProgram hf
  | store x => exact doStore_ofProgram hf
  | load x => exact doLoad_ofProgram hf
  | draw x y n => exact doDraw_ofProgram hf
  | _ => cases hf

/-! ## ticks of a machine that does not wait -/

def next (s : State) : State := { s with pc := s.pc + 2 }

def opcode (s : State) : Nat :=
  (s.ram[s.pc]?.getD 0).toNat * 256 + (s.ram[s.pc + 1]?.getD 0).toNat

theorem fetch_of_lt {s : State} (h : s.pc + 1 < 4096) : s.fetch = .ok (s.next, s.opcode) := by
  have hpc : s.pc < 4096 := by omega
  have hnext : (s.pc : Int) + 1 = (s.pc + 1 : Nat) := rfl
  have hwrap : (s.pc + 2) % 65536 = s.pc + 2 := Nat.mod_eq_of_lt (by omega)
  rw [fetch, hnext, Ram.read_of_lt s.ram hpc, Ram.read_of_lt s.ram h, hwrap, opcode,
    Vector.getElem?_eq_getElem hpc, Vector.getElem?_eq_getElem h]
  rfl

theorem fetch_outside {s : State} (h : ¬s.pc + 1 < 4096) :
    s.fetch = .error (.outOfBounds (max s.pc 4096 : Nat)) := by
  have hnext : (s.pc : Int) + 1 = (s.pc + 1 : Nat) := rfl
  by_cases hpc : s.pc < 4096
  · have hmax : max s.pc 4096 = s.pc + 1 := by omega
    rw [fetch, hnext, Ram.read_of_lt s.ram hpc, Ram.read_outside s.ram h, hmax]
    rfl
  · have hmax : max s.pc 4096 = s.pc := by omega
    rw [fetch, Ram.read_outside s.ram hpc, hmax]
    rfl

theorem run1_of_lt {s : State} (h : s.pc + 1 < 4096) (roll : UInt8) :
    s.run1 roll =
      ⟨(s.next.exec (.decode s.opcode) roll).state, (s.next.exec (.decode s.opcode) roll).result,
        some (s.next.fetched s.opcode)⟩ := by
  rw [run1, fetch_of_lt h]
  rfl

theorem run1_outside {s : State} (h : ¬s.pc + 1 < 4096) (roll : UInt8) :
    s.run1 roll = ⟨s, .error (.outOfBounds (max s.pc 4096 : Nat)), none⟩ := by
  rw [run1, fetch_outside h]

end State

end ChipEight
