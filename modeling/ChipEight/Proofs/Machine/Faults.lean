import ChipEight.Proofs.Machine.Operations

/-!
# Where an instruction breaks off

An instruction that fails keeps what it had done by then.  Which instructions fail, with which fault
and in which state is said here once, for every state.

* `State.withBytes`, `withRegisters`   what a store and a load do, as far as there is memory;
* `State.Breaks s here i f t`   instruction `i` at address `here` breaks off with fault `f` and
                                leaves state `t`;
* `exec_error_iff`              it does exactly then;
* `State.Fails s f t`           a tick of a machine that does not wait fails so, and leaves `t`;
* `Machine.tick_fails_iff`      it does exactly then, and the rest of the machine stays as it was.

Only the trace of a machine is not part of its state: an instruction that was fetched is traced
before it breaks off.
-/

namespace ChipEight

namespace State

/-! ## runs of memory -/

/-- bytes laid over memory from the index on, as far as there is memory -/
def withBytes (s : State) (bytes : List UInt8) : State :=
  { s with ram := s.ram.overlay s.i.toNat bytes.toArray }

/-- the first `n` registers taken from memory, as far as there is memory -/
def withRegisters (s : State) (n : Nat) : State :=
  { s with
    v := Vector.ofFn fun k =>
      if k.val < n then (s.ram[s.i.toNat + k.val]?).getD (s.v.get k) else s.v.get k }

theorem doStore_eq (s : State) (bytes : List UInt8) :
    s.doStore bytes = (s.withBytes bytes).doneUnless (Ram.overrun s.i.toNat bytes.length) := by
  rw [doStore, Ram.putRun_eq]
  rfl

theorem doLoad_eq (s : State) (n : Nat) :
    s.doLoad n = (s.withRegisters n).doneUnless (Ram.overrun s.i.toNat n) := by
  have hv : registersFrom s.v (s.ram.readRun s.i.toNat n).1 = (s.withRegisters n).v := by
    refine Vector.ext fun k hk => ?_
    rw [registersFrom, withRegisters, Vector.getElem_ofFn, Vector.getElem_ofFn,
      Ram.getElem?_readRun]
    split <;> rfl
  show doneUnless { s with v := registersFrom s.v (s.ram.readRun s.i.toNat n).1 }
    (s.ram.readRun s.i.toNat n).2 = _
  rw [hv, Ram.snd_readRun]
  rfl

/-- a sprite that does not lie in memory is not drawn at all -/
theorem doDraw_overrun {s : State} {n : Nat} {f : Fault} (x y : Register)
    (h : Ram.overrun s.i.toNat n = some f) : s.doDraw x y n = ⟨s, .error f⟩ := by
  have hread : s.ram.readRun s.i.toNat n = ((s.ram.readRun s.i.toNat n).1, some f) := by
    rw [← h, ← Ram.snd_readRun s.ram]
  rw [doDraw, hread]

theorem doDraw_ok {s : State} {n : Nat} (x y : Register) (h : Ram.overrun s.i.toNat n = none) :
    (s.doDraw x y n).result = .ok true := by
  have hnone : (s.ram.readRun s.i.toNat n).2 = none := by rw [Ram.snd_readRun, h]
  have hread : s.ram.readRun s.i.toNat n = ((s.ram.readRun s.i.toNat n).1, none) := by
    rw [← hnone]
  obtain ⟨d, hd⟩ := Drawing.rows_ok ⟨s.screen, false⟩ ((s.v.get x).toNat % 64)
    ((s.v.get y).toNat % 32) (Ram.length_readRun hnone)
  rw [doDraw, hread]
  simp only [hd]

/-! ## instructions -/

inductive Breaks (s : State) (here : Nat) : Instruction → Fault → State → Prop where
  | ret (h : s.sp = 0) : Breaks s here .ret (.stackUnderflow (some here)) s
  | call (a : Address) (h : s.sp = 16) : Breaks s here (.call a) (.stackOverflow (some here)) s
  | draw (x y : Register) (n : Fin 16) (hn : 1 ≤ n.val) (h : 4096 < s.i.toNat + n) :
      Breaks s here (.draw x y n) (.outOfBounds (max s.i.toNat 4096 : Nat)) s
  | store (x : Register) (h : 4096 < s.i.toNat + (x + 1)) :
      Breaks s here (.store x) (.outOfBounds (max s.i.toNat 4096 : Nat))
        (s.withBytes (s.v.toList.take (x + 1)))
  | storeDecimal (x : Register) (h : 4096 < s.i.toNat + 3) :
      Breaks s here (.storeDecimal x) (.outOfBounds (max s.i.toNat 4096 : Nat))
        (s.withBytes [s.v.get x / 100, s.v.get x / 10 % 10, s.v.get x % 10])
  | load (x : Register) (h : 4096 < s.i.toNat + (x + 1)) :
      Breaks s here (.load x) (.outOfBounds (max s.i.toNat 4096 : Nat)) (s.withRegisters (x + 1))

theorem outcome_eq {o : Outcome} {r : Except Fault Bool} (h : o.result = r) :
    o = ⟨o.state, r⟩ := by
  rw [← h]

theorem doneUnless_eq_error {s t : State} {o : Option Fault} {f : Fault} :
    s.doneUnless o = ⟨t, .error f⟩ ↔ o = some f ∧ s = t := by
  cases o with
  | none => simp [doneUnless, done]
  | some g => simp [doneUnless, and_comm]

theorem doReturn_error_iff {s t : State} {f : Fault} (h : s.sp ≤ 16) :
    s.doReturn = ⟨t, .error f⟩ ↔ s.Breaks s.here .ret f t := by
  constructor
  · intro he
    unfold doReturn at he
    split at he
    · rename_i hzero
      cases he
      exact .ret hzero
    · rw [dif_pos (by omega)] at he
      cases congrArg Outcome.result he
  · intro hb
    cases hb with
    | ret hzero => exact if_pos hzero

theorem doCall_error_iff {s t : State} {a : Address} {f : Fault} (h : s.sp ≤ 16) :
    s.doCall a = ⟨t, .error f⟩ ↔ s.Breaks s.here (.call a) f t := by
  constructor
  · intro he
    unfold doCall at he
    split at he
    · cases congrArg Outcome.result he
    · cases he
      exact .call a (by omega)
  · intro hb
    cases hb with
    | call _ hfull => exact dif_neg (by omega)

theorem doDraw_error_iff {s t : State} {x y : Register} {n : Fin 16} {f : Fault} :
    s.doDraw x y n = ⟨t, .error f⟩ ↔ s.Breaks s.here (.draw x y n) f t := by
  constructor
  · intro he
    cases ho : Ram.overrun s.i.toNat n with
    | none =>
      have hok := doDraw_ok x y ho
      rw [he] at hok
      cases hok
    | some g =>
      rw [doDraw_overrun x y ho] at he
      cases he
      obtain ⟨⟨hn, hout⟩, rfl⟩ := Ram.overrun_eq_some.mp ho
      exact .draw x y n hn hout
  · intro hb
    cases hb with
    | draw _ _ _ hn hout => exact doDraw_overrun x y (Ram.overrun_eq_some.mpr ⟨⟨hn, hout⟩, rfl⟩)

theorem doStore_error_iff {s t : State} {bytes : List UInt8} {f : Fault} :
    s.doStore bytes = ⟨t, .error f⟩ ↔
      (1 ≤ bytes.length ∧ 4096 < s.i.toNat + bytes.length) ∧
        f = .outOfBounds (max s.i.toNat 4096 : Nat) ∧ s.withBytes bytes = t := by
  rw [doStore_eq, doneUnless_eq_error, Ram.overrun_eq_some, and_assoc]

theorem doLoad_error_iff {s t : State} {x : Register} {f : Fault} :
    s.doLoad (x + 1) = ⟨t, .error f⟩ ↔ s.Breaks s.here (.load x) f t := by
  rw [doLoad_eq, doneUnless_eq_error, Ram.overrun_eq_some]
  constructor
  · rintro ⟨⟨⟨-, hout⟩, rfl⟩, rfl⟩
    exact .load x hout
  · intro hb
    cases hb with
    | load _ hout => exact ⟨⟨⟨by omega, hout⟩, rfl⟩, rfl⟩

theorem exec_error_iff {s t : State} {i : Instruction} {roll : UInt8} {f : Fault}
    (h : s.sp ≤ 16) : s.exec i roll = ⟨t, .error f⟩ ↔ s.Breaks s.here i f t := by
  cases i with
  | ret => exact doReturn_error_iff h
  | call a => exact doCall_error_iff h
  | draw x y n => exact doDraw_error_iff
  | load x => exact doLoad_error_iff
  | store x =>
    have hlen : (s.v.toList.take (x + 1)).length = x + 1 := by
      rw [List.length_take, Vector.length_toList]
      omega
    rw [exec, doStore_error_iff, hlen]
    constructor
    · rintro ⟨⟨-, hout⟩, rfl, rfl⟩
      exact .store x hout
    · intro hb
      cases hb with
      | store _ hout => exact ⟨⟨by omega, hout⟩, rfl, rfl⟩
  | storeDecimal x =>
    rw [exec, doStore_error_iff]
    constructor
    · rintro ⟨⟨-, hout⟩, rfl, rfl⟩
      exact .storeDecimal x hout
    · intro hb
      cases hb with
      | storeDecimal _ hout => exact ⟨⟨Nat.succ_pos 2, hout⟩, rfl, rfl⟩
  | _ =>
    constructor
    · intro he
      cases congrArg Outcome.result he
    · intro hb
      cases hb

theorem Breaks.after {s t : State} {here : Nat} {i : Instruction} {f : Fault}
    (h : s.Breaks here i f t) (d : Dice) : d.after i = d := by
  cases h <;> rfl

/-! ## ticks -/

/-- the state in which an instruction is executed: the counter is past it, and no key is pending -/
def entered (s : State) : State := { s.next with released := none }

theorem here_entered {s : State} (h : s.pc < 4095) : s.entered.here = s.pc := by
  show (s.pc + 2 + 65534) % 65536 = s.pc
  omega

/-- how a tick fails: the instruction does not lie in memory, or it breaks off -/
inductive Fails (s : State) : Fault → State → Prop where
  | fetch (h : 4095 ≤ s.pc) :
      Fails s (.outOfBounds (max s.pc 4096 : Nat)) { s with released := none }
  | instruction {f : Fault} {t : State} (hpc : s.pc < 4095)
      (h : s.entered.Breaks s.pc (.decode s.opcode) f t) : Fails s f t

theorem step_outside {s : State} (roll : UInt8) (hm : s.mode = .running) (h : 4095 ≤ s.pc) :
    s.step roll =
      ⟨{ s with released := none }, .error (.outOfBounds (max s.pc 4096 : Nat)), none⟩ := by
  have hpc : ¬State.pc { s with released := none } + 1 < 4096 := by
    show ¬s.pc + 1 < 4096
    omega
  rw [step_running roll hm, run1_outside hpc]

theorem step_fetched {s : State} (roll : UInt8) (hm : s.mode = .running) (h : s.pc < 4095) :
    s.step roll =
      ⟨(s.entered.exec (.decode s.opcode) roll).state,
        (s.entered.exec (.decode s.opcode) roll).result, some (s.entered.fetched s.opcode)⟩ := by
  have hpc : State.pc { s with released := none } + 1 < 4096 := by
    show s.pc + 1 < 4096
    omega
  rw [step_running roll hm, run1_of_lt hpc]
  rfl

end State

namespace Machine

def traced (m : Machine) : Trace :=
  if m.tracing = true ∧ m.state.pc < 4095 then
    m.trace.push (m.state.entered.fetched m.state.opcode).line
  else m.trace

theorem tick_outside {m : Machine} (hm : m.state.mode = .running) (h : 4095 ≤ m.state.pc) :
    m.tick =
      ⟨{ m with state := { m.state with released := none } },
        .error (.outOfBounds (max m.state.pc 4096 : Nat)), []⟩ := by
  rw [tick, State.step_outside _ hm h]

theorem machine_tick_fetched {m : Machine} (hm : m.state.mode = .running)
    (h : m.state.pc < 4095) :
    m.tick.machine =
      { m with
        state := (m.state.entered.exec (.decode m.state.opcode) m.dice.next).state
        dice := m.dice.after (.decode m.state.opcode)
        trace := m.traced } := by
  unfold tick
  rw [State.step_fetched _ hm h]
  unfold note traced
  cases ht : m.tracing with
  | false => simp [State.fetched]
  | true => simp [State.fetched, h]

theorem result_tick_fetched {m : Machine} (hm : m.state.mode = .running)
    (h : m.state.pc < 4095) :
    m.tick.result = (m.state.entered.exec (.decode m.state.opcode) m.dice.next).result := by
  rw [result_tick, State.step_fetched _ hm h]

/-- a tick of a well-formed machine that does not wait fails in exactly these cases, and leaves
exactly this machine -/
theorem tick_fails_iff {m : Machine} (h : m.state.WellFormed) (hm : m.state.mode = .running)
    (f : Fault) (m' : Machine) :
    m.tick.result = .error f ∧ m.tick.machine = m' ↔
      ∃ t, m.state.Fails f t ∧ m' = { m with state := t, trace := m.traced } := by
  by_cases hpc : m.state.pc < 4095
  · have hsp : m.state.entered.sp ≤ 16 := h.sp_le
    rw [result_tick_fetched hm hpc, machine_tick_fetched hm hpc]
    constructor
    · rintro ⟨hf, rfl⟩
      have hbreaks := (State.exec_error_iff hsp).mp (State.outcome_eq hf)
      rw [State.here_entered hpc] at hbreaks
      exact ⟨_, .instruction hpc hbreaks, by rw [hbreaks.after]⟩
    · rintro ⟨t, hfails, rfl⟩
      cases hfails with
      | fetch hout => omega
      | instruction _ hbreaks =>
        rw [← State.here_entered hpc] at hbreaks
        rw [(State.exec_error_iff hsp).mpr hbreaks, hbreaks.after]
        exact ⟨rfl, rfl⟩
  · have hout : 4095 ≤ m.state.pc := Nat.not_lt.mp hpc
    have htrace : m.traced = m.trace := if_neg fun hboth => hpc hboth.2
    rw [tick_outside hm hout, htrace]
    constructor
    · rintro ⟨hf, rfl⟩
      cases hf
      exact ⟨_, .fetch hout, rfl⟩
    · rintro ⟨t, hfails, rfl⟩
      cases hfails with
      | fetch _ => exact ⟨rfl, rfl⟩
      | instruction hlt _ => exact absurd hlt hpc

/-- about to store all registers six bytes before the end of memory, with a key pending -/
def atTheEnd : Machine :=
  .ofState
    { State.fresh with
      i := 4090
      ram := (Ram.zeros.set 0x200 0xFF).set 0x201 0x55
      released := some ⟨7, by decide⟩ }
    (.cycle #[]) true

/-- the six bytes are stored, the others are not -/
theorem tick_fails_iff_store :
    atTheEnd.state.WellFormed ∧ atTheEnd.state.mode = .running ∧
      atTheEnd.tick.result = .error (.outOfBounds 4096) ∧
      atTheEnd.tick.machine =
        { atTheEnd with
          state := atTheEnd.state.entered.withBytes atTheEnd.state.entered.v.toList
          trace := atTheEnd.traced } := by
  have hw : atTheEnd.state.WellFormed :=
    State.WellFormed.withRam (s := { State.fresh with i := 4090, released := some 7 })
      State.fresh_wellFormed _
  have hword : atTheEnd.state.opcode = 0xFF55 := by
    simp [State.opcode, atTheEnd, ofState, State.fresh, programStart]
  have hbreaks : atTheEnd.state.entered.Breaks atTheEnd.state.pc
      (.decode atTheEnd.state.opcode) (.outOfBounds 4096)
      (atTheEnd.state.entered.withBytes atTheEnd.state.entered.v.toList) := by
    rw [hword]
    exact .store 15 (by decide)
  exact ⟨hw, rfl, (tick_fails_iff hw rfl _ _).mpr ⟨_, .instruction (by decide) hbreaks, rfl⟩⟩

end Machine

end ChipEight
