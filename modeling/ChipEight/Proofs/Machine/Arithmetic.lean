import ChipEight.Proofs.Instruction.Words
import ChipEight.Proofs.Machine.Due

/-!
# Arithmetic

What the arithmetic instructions compute, said in whole numbers of any size, and that they do.

* `Operation`          the operations on two registers, by the last digit of their words `8xy_`;
* `Operation.exact`    the exact result; `Operation.flag?` the flag, if the operation sets one;
* `Calculation`        an operation on two registers, or a byte added to one: `7xkk`;
* `Calculation.Done`   the registers after a calculation: the flag register holds the flag and the
                       target the exact result modulo 256, both from the registers before; if the
                       target is the flag register, the flag is what stays in it;
* `decode_word`        the words of the calculations;
* `exec_calculation`   an instruction does its calculation, and nothing else;
* `Machine.tick_calculates` so does the whole tick.
-/

namespace ChipEight

inductive Operation where
  | copy
  | or
  | and
  | xor
  | add
  | sub
  | shiftRight
  | subFrom
  | shiftLeft
  deriving DecidableEq, Repr

namespace Operation

def digit : Operation → Nat
  | copy => 0x0
  | or => 0x1
  | and => 0x2
  | xor => 0x3
  | add => 0x4
  | sub => 0x5
  | shiftRight => 0x6
  | subFrom => 0x7
  | shiftLeft => 0xE

theorem digit_lt (op : Operation) : op.digit < 16 := by
  cases op <;> decide

/-- the result on the values `a` of `Vx` and `b` of `Vy`; shifts look at the first alone -/
def exact (a b : Nat) : Operation → Int
  | copy => b
  | or => (a ||| b : Nat)
  | and => (a &&& b : Nat)
  | xor => (a ^^^ b : Nat)
  | add => a + b
  | sub => a - b
  | shiftRight => (a / 2 : Nat)
  | subFrom => b - a
  | shiftLeft => 2 * a

/-- the carry of a sum, no borrow of a difference, the bit that a shift drops -/
def flag? (a b : Nat) : Operation → Option Bool
  | copy | or | and | xor => none
  | add => some (decide (255 < a + b))
  | sub => some (decide (b ≤ a))
  | shiftRight => some (a.testBit 0)
  | subFrom => some (decide (a ≤ b))
  | shiftLeft => some (a.testBit 7)

def instruction (x y : Register) : Operation → Instruction
  | copy => .copy x y
  | or => .or x y
  | and => .and x y
  | xor => .xor x y
  | add => .add x y
  | sub => .sub x y
  | shiftRight => .shiftRight x
  | subFrom => .subFrom x y
  | shiftLeft => .shiftLeft x

end Operation

inductive Calculation where
  | registers (op : Operation) (x y : Register)
  | addByte (x : Register) (byte : UInt8)
  deriving DecidableEq, Repr

namespace Calculation

def word : Calculation → Nat
  | registers op x y => 0x8000 + x * 0x100 + y * 0x10 + op.digit
  | addByte x b => 0x7000 + x * 0x100 + b.toNat

def target : Calculation → Register
  | registers _ x _ => x
  | addByte x _ => x

def exact (v : Registers) : Calculation → Int
  | registers op x y => op.exact (v.get x).toNat (v.get y).toNat
  | addByte x b => (v.get x).toNat + b.toNat

def flag? (v : Registers) : Calculation → Option Bool
  | registers op x y => op.flag? (v.get x).toNat (v.get y).toNat
  | addByte _ _ => none

def instruction : Calculation → Instruction
  | registers op x y => op.instruction x y
  | addByte x b => .addByte x b

structure Done (c : Calculation) (v w : Registers) : Prop where
  flag : ∀ f, c.flag? v = some f → w.get State.flag = if f then 1 else 0
  value : c.target ≠ State.flag ∨ c.flag? v = none →
    ((w.get c.target).toNat : Int) = c.exact v % 256
  others : ∀ z, z ≠ c.target → z ≠ State.flag ∨ c.flag? v = none → w.get z = v.get z

/-! ## words -/

theorem decode_word (c : Calculation) : .decode c.word = c.instruction := by
  cases c with
  | registers op x y =>
    let n : Fin 16 := ⟨op.digit, op.digit_lt⟩
    show Instruction.decode (Instruction.register2 (8 : Fin 16) x y n : Nat) = _
    rw [Instruction.decode_register2]
    cases op <;> rfl
  | addByte x b =>
    show Instruction.decode (Instruction.register1 (7 : Fin 16) x b.toNat : Nat) = _
    rw [Instruction.decode_register1]
    show Instruction.addByte x (byteOf (halves b).1 (halves b).2) = _
    rw [byteOf_halves]
    rfl

/-! ## results -/

theorem byte_eq_mod (b : UInt8) : (b.toNat : Int) = (b.toNat : Int) % 256 := by
  have hlt := b.toNat_lt
  omega

theorem toNat_add_mod (a b : UInt8) : ((a + b).toNat : Int) = (a.toNat + b.toNat : Int) % 256 := by
  rw [UInt8.toNat_add]
  omega

theorem toNat_sub_mod (a b : UInt8) : ((a - b).toNat : Int) = (a.toNat - b.toNat : Int) % 256 := by
  have hlt := b.toNat_lt
  rw [UInt8.toNat_sub]
  omega

theorem toNat_half (a : UInt8) : (a / 2).toNat = a.toNat / 2 := by
  rw [UInt8.toNat_div]
  rfl

theorem testBit_lowest (a : UInt8) : a.toNat.testBit 0 = decide (a.toNat % 2 = 1) :=
  Nat.testBit_zero a.toNat

theorem testBit_highest (a : UInt8) : a.toNat.testBit 7 = decide (a ≥ 128) := by
  have hlt := a.toNat_lt
  rw [Nat.testBit_eq_decide_div_mod_eq, decide_eq_decide, ge_iff_le, UInt8.le_iff_toNat_le]
  show a.toNat / 128 % 2 = 1 ↔ 128 ≤ a.toNat
  omega

/-! ## instructions -/

section
variable {c : Calculation} {s : State} {b : UInt8}

theorem Done.plain (hflag : c.flag? s.v = none) (hb : (b.toNat : Int) = c.exact s.v % 256) :
    c.Done s.v (s.withV c.target b).v where
  flag f hf := by
    rw [hflag] at hf
    cases hf
  value _ := by rw [State.get_withV, if_pos rfl, hb]
  others z hz _ := by rw [State.get_withV, if_neg hz]

theorem Done.flagged {f : Bool} (hflag : c.flag? s.v = some f)
    (hb : (b.toNat : Int) = c.exact s.v % 256) :
    c.Done s.v (s.withFlagged c.target b f).v where
  flag g hg := by
    rw [hflag] at hg
    cases hg
    rw [State.withFlagged, State.get_withV, if_pos rfl]
  value h := by
    have hne : c.target ≠ State.flag := h.resolve_right (by simp [hflag])
    rw [State.withFlagged, State.get_withV, if_neg hne, State.get_withV, if_pos rfl, hb]
  others z hz h := by
    have hne : z ≠ State.flag := h.resolve_right (by simp [hflag])
    rw [State.withFlagged, State.get_withV, if_neg hne, State.get_withV, if_neg hz]

end

theorem exec_operation (s : State) (op : Operation) (x y : Register) (roll : UInt8) :
    ∃ w, s.exec (op.instruction x y) roll = State.done { s with v := w } ∧
      (registers op x y).Done s.v w := by
  cases op with
  | copy => exact ⟨_, rfl, .plain (b := s.v.get y) rfl (byte_eq_mod _)⟩
  | or =>
    refine ⟨_, rfl, .plain (b := s.v.get x ||| s.v.get y) rfl ?_⟩
    rw [byte_eq_mod, UInt8.toNat_or]
    rfl
  | and =>
    refine ⟨_, rfl, .plain (b := s.v.get x &&& s.v.get y) rfl ?_⟩
    rw [byte_eq_mod, UInt8.toNat_and]
    rfl
  | xor =>
    refine ⟨_, rfl, .plain (b := s.v.get x ^^^ s.v.get y) rfl ?_⟩
    rw [byte_eq_mod, UInt8.toNat_xor]
    rfl
  | add => exact ⟨_, rfl, .flagged (b := s.v.get x + s.v.get y) rfl (toNat_add_mod _ _)⟩
  | sub => exact ⟨_, rfl, .flagged (b := s.v.get x - s.v.get y) rfl (toNat_sub_mod _ _)⟩
  | subFrom => exact ⟨_, rfl, .flagged (b := s.v.get y - s.v.get x) rfl (toNat_sub_mod _ _)⟩
  | shiftRight =>
    refine ⟨_, rfl, .flagged (b := s.v.get x / 2) ?_ ?_⟩
    · exact congrArg some (testBit_lowest (s.v.get x))
    · rw [byte_eq_mod, toNat_half]
      rfl
  | shiftLeft =>
    refine ⟨_, rfl, .flagged (b := s.v.get x + s.v.get x) ?_ ?_⟩
    · exact congrArg some (testBit_highest (s.v.get x))
    · rw [toNat_add_mod, ← Int.two_mul]
      rfl

theorem exec_calculation (s : State) (c : Calculation) (roll : UInt8) :
    ∃ w, s.exec c.instruction roll = State.done { s with v := w } ∧ c.Done s.v w := by
  cases c with
  | registers op x y => exact exec_operation s op x y roll
  | addByte x b => exact ⟨_, rfl, .plain (b := s.v.get x + b) rfl (toNat_add_mod _ _)⟩

theorem rolls_instruction (c : Calculation) : c.instruction.rolls = false := by
  cases c with
  | registers op x y => cases op <;> rfl
  | addByte x b => rfl

end Calculation

namespace Machine

/-- a tick whose word is that of a calculation: the registers are those of the calculation, whichever
registers it is about; the counter moves on by two, no key is pending, and all else stays as it was -/
theorem tick_calculates {m : Machine} {c : Calculation} (hdue : m.due = some (.decode c.word)) :
    ∃ w,
      m.tick.result = .ok false ∧
      m.tick.machine =
        { m with
          state := { m.state with pc := m.state.pc + 2, released := none, v := w }
          trace := m.traced } ∧
      c.Done m.state.v w := by
  rw [c.decode_word] at hdue
  obtain ⟨hresult, hmachine⟩ := tick_due hdue
  obtain ⟨w, hexec, hdone⟩ := c.exec_calculation m.state.entered m.dice.next
  rw [hexec] at hresult hmachine
  have hdice : m.dice.after c.instruction = m.dice := by
    rw [Dice.after, c.rolls_instruction]
    rfl
  rw [hdice] at hmachine
  exact ⟨w, hresult, hmachine, hdone⟩

/-- about to take the flag register, which holds seven, from a register that holds five -/
def borrowing : Machine :=
  .ofState
    { (State.fresh.withV State.first 5).withV State.flag 7 with
      ram := (Ram.zeros.set programStart 0x80 programStart_lt).set (programStart + 1) 0xF5
        programStart_succ_lt }
    (.cycle #[]) false

/-- seven is taken away, and not the flag that comes in its place -/
theorem tick_calculates_borrowing :
    borrowing.due = some (.decode (Calculation.registers .sub State.first State.flag).word) ∧
      borrowing.tick.result = .ok false ∧
      borrowing.tick.machine.state.pc = 514 ∧
      borrowing.tick.machine.state.v.get State.first = 254 ∧
      borrowing.tick.machine.state.v.get 1 = 0 ∧
      borrowing.tick.machine.state.v.get State.flag = 0 := by
  have hdue : borrowing.due = some (.decode (Calculation.registers .sub State.first State.flag).word) := by
    decide +kernel
  obtain ⟨w, hresult, hmachine, hdone⟩ := tick_calculates hdue
  have hvalue : (w.get State.first).toNat = 254 :=
    Int.ofNat.inj ((hdone.value (.inl (by decide))).trans (by decide +kernel))
  have hother : w.get 1 = 0 :=
    (hdone.others 1 (by decide) (.inl (by decide))).trans (by decide +kernel)
  have hflag : w.get State.flag = 0 := hdone.flag false (by decide +kernel)
  rw [hmachine]
  exact ⟨hdue, hresult, rfl, UInt8.toNat.inj hvalue, hother, hflag⟩

end Machine

end ChipEight
