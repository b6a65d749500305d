import ChipEight.Proofs.Machine.KeyWait
import ChipEight.Proofs.Machine.Stack
import ChipEight.Proofs.Machine.Tracing

/-!
# The two cadences

Instructions and ticks of the timers come at cadences of their own.  All but three instructions
neither read nor set a timer, and for them it makes no difference when the timers tick.

* `Instruction.usesTimers`  those three;
* `State.withTimers s d t`  the state with other timers;
* `exec_withTimers`         any other instruction does the same to it, and leaves these timers;
* `Machine.tick_withTimers` so does a tick, and any operation but a tick of the timers;
* `countDown b n`           a timer after `n` ticks;
* `Op.untimed ops`          the operations without the ticks of the timers;
* `run_untimed`             a run is the one without the ticks of the timers, with the timers
                            counted down;
* `cadences_independent`    so it does not depend on where they tick.
-/

namespace ChipEight

def Instruction.usesTimers : Instruction → Bool
  | .readDelay _ | .setDelay _ | .setSound _ => true
  | _ => false

namespace State

def withTimers (s : State) (delay sound : UInt8) : State := { s with delay, sound }

end State

def Outcome.withTimers (o : Outcome) (delay sound : UInt8) : Outcome :=
  { o with state := o.state.withTimers delay sound }

def Fetched.withTimers (f : Fetched) (delay sound : UInt8) : Fetched :=
  { f with delay := delay.toNat, sound := sound.toNat }

def Stepped.withTimers (t : Stepped) (delay sound : UInt8) : Stepped :=
  { t with
    state := t.state.withTimers delay sound
    fetched := t.fetched.map (·.withTimers delay sound) }

/-! ## instructions -/

namespace State

section
variable (s : State) (delay sound : UInt8)

theorem skipIf_withTimers (c : Bool) :
    (s.withTimers delay sound).skipIf c = (s.skipIf c).withTimers delay sound := by
  cases c with
  | false => rfl
  | true => rfl

theorem doneUnless_withTimers (f : Option Fault) :
    (s.withTimers delay sound).doneUnless f = (s.doneUnless f).withTimers delay sound := by
  cases f with
  | none => rfl
  | some f => rfl

theorem doReturn_withTimers :
    (s.withTimers delay sound).doReturn = s.doReturn.withTimers delay sound := by
  have hsp : (s.withTimers delay sound).sp = s.sp := rfl
  by_cases hzero : s.sp = 0
  · rw [doReturn, doReturn, hsp, if_pos hzero, if_pos hzero]
    rfl
  · rw [doReturn, doReturn, hsp, if_neg hzero, if_neg hzero]
    by_cases htop : s.sp - 1 < 16
    · rw [dif_pos htop, dif_pos htop]
      rfl
    · rw [dif_neg htop, dif_neg htop]
      rfl

theorem doCall_withTimers (a : Address) :
    (s.withTimers delay sound).doCall a = (s.doCall a).withTimers delay sound := by
  by_cases h : s.sp < 16
  · have h' : (s.withTimers delay sound).sp < 16 := h
    rw [doCall, doCall, dif_pos h, dif_pos h']
    rfl
  · have h' : ¬(s.withTimers delay sound).sp < 16 := h
    rw [doCall, doCall, dif_neg h, dif_neg h']
    rfl

theorem doStore_withTimers (bytes : List UInt8) :
    (s.withTimers delay sound).doStore bytes = (s.doStore bytes).withTimers delay sound := by
  rw [doStore_eq, doStore_eq]
  exact doneUnless_withTimers (s.withBytes bytes) delay sound _

theorem doLoad_withTimers (n : Nat) :
    (s.withTimers delay sound).doLoad n = (s.doLoad n).withTimers delay sound := by
  rw [doLoad_eq, doLoad_eq]
  exact doneUnless_withTimers (s.withRegisters n) delay sound _

theorem doDraw_withTimers (x y : Register) (n : Nat) :
    (s.withTimers delay sound).doDraw x y n = (s.doDraw x y n).withTimers delay sound := by
  unfold doDraw
  dsimp only [withTimers]
  split
  · rfl
  · split
    · rfl
    · rfl

theorem exec_withTimers {i : Instruction} (h : i.usesTimers = false) (roll : UInt8) :
    (s.withTimers delay sound).exec i roll = (s.exec i roll).withTimers delay sound := by
  cases i with
  | readDelay x => cases h
  | setDelay x => cases h
  | setSound x => cases h
  | ret => exact doReturn_withTimers s delay sound
  | call a => exact doCall_withTimers s delay sound a
  | skipIfByte x b => exact congrArg done (skipIf_withTimers s delay sound _)
  | skipUnlessByte x b => exact congrArg done (skipIf_withTimers s delay sound _)
  | skipIfEqual x y => exact congrArg done (skipIf_withTimers s delay sound _)
  | skipUnlessEqual x y => exact congrArg done (skipIf_withTimers s delay sound _)
  | skipIfPressed x => exact congrArg done (skipIf_withTimers s delay sound _)
  | skipUnlessPressed x => exact congrArg done (skipIf_withTimers s delay sound _)
  | storeDecimal x => exact doStore_withTimers s delay sound (decimalDigits (s.v.get x))
  | store x => exact doStore_withTimers s delay sound (s.v.toList.take (x + 1))
  | load x => exact doLoad_withTimers s delay sound (x + 1)
  | draw x y n => exact doDraw_withTimers s delay sound x y n
  | _ => rfl

/-! ## ticks -/

theorem step_withTimers (roll : UInt8)
    (h : ∀ f, (s.step roll).fetched = some f → f.instruction.usesTimers = false) :
    (s.withTimers delay sound).step roll = (s.step roll).withTimers delay sound := by
  cases hm : s.mode with
  | running =>
    by_cases hpc : s.pc < 4095
    · have hfetched := step_fetched roll hm hpc
      have hfree : (Instruction.decode s.opcode).usesTimers = false := by
        apply h (s.entered.fetched s.opcode)
        rw [hfetched]
      have hother := step_fetched (s := s.withTimers delay sound) roll hm hpc
      have hexec : (s.withTimers delay sound).entered.exec (.decode s.opcode) roll =
          (s.entered.exec (.decode s.opcode) roll).withTimers delay sound :=
        exec_withTimers s.entered delay sound hfree roll
      rw [hother, hfetched]
      show Stepped.mk ((s.withTimers delay sound).entered.exec (.decode s.opcode) roll).state
        ((s.withTimers delay sound).entered.exec (.decode s.opcode) roll).result _ = _
      rw [hexec]
      rfl
    · have hout := Nat.not_lt.mp hpc
      rw [step_outside (s := s.withTimers delay sound) roll hm hout, step_outside roll hm hout]
      rfl
  | awaitingKey =>
    unfold step
    simp only [withTimers, hm]
    cases s.released with
    | none => rfl
    | some k =>
      unfold answer
      cases s.awaiting with
      | none => rfl
      | some x => rfl

end

/-! ## timers that count down -/

def countDown (b : UInt8) (n : Nat) : UInt8 := .ofNat (b.toNat - n)

theorem toNat_countDown (b : UInt8) (n : Nat) : (countDown b n).toNat = b.toNat - n := by
  have hlt := b.toNat_lt
  rw [countDown, UInt8.toNat_ofNat']
  omega

theorem countDown_zero (b : UInt8) : countDown b 0 = b := by
  apply UInt8.toNat.inj
  rw [toNat_countDown]
  rfl

theorem countDown_countDown (b : UInt8) (j k : Nat) :
    countDown (countDown b j) k = countDown b (j + k) := by
  apply UInt8.toNat.inj
  rw [toNat_countDown, toNat_countDown, toNat_countDown]
  omega

theorem countDown_one (b : UInt8) : (if b > 0 then b - 1 else b) = countDown b 1 := by
  apply UInt8.toNat.inj
  rw [toNat_countDown]
  by_cases h : b > 0
  · have hpos : 0 < b.toNat := h
    rw [if_pos h, UInt8.toNat_sub]
    have hlt := b.toNat_lt
    show (2 ^ 8 - 1 + b.toNat) % 2 ^ 8 = b.toNat - 1
    omega
  · have hzero : ¬0 < b.toNat := h
    rw [if_neg h]
    omega

theorem tick60_eq (s : State) :
    s.tick60 = s.withTimers (countDown s.delay 1) (countDown s.sound 1) := by
  rw [tick60, countDown_one, countDown_one]
  rfl

end State

/-! ## operations -/

namespace Op

def counts : Op → Bool
  | .tick60 => true
  | _ => false

def untimed (ops : List Op) : List Op := ops.filter fun o => !o.counts

theorem untimed_tick60 (ops : List Op) : untimed (.tick60 :: ops) = untimed ops := rfl

theorem untimed_cons {o : Op} (h : o ≠ .tick60) (ops : List Op) :
    untimed (o :: ops) = o :: untimed ops := by
  cases o with
  | tick60 => exact absurd rfl h
  | _ => rfl

theorem countP_tick60 (ops : List Op) :
    (tick60 :: ops).countP counts = 1 + ops.countP counts := by
  rw [List.countP_cons, Nat.add_comm]
  rfl

theorem countP_cons {o : Op} (h : o ≠ .tick60) (ops : List Op) :
    (o :: ops).countP counts = ops.countP counts := by
  cases o with
  | tick60 => exact absurd rfl h
  | _ => rfl

theorem ne_tick60 {ops : List Op} {o : Op} (h : o ∈ untimed ops) : o ≠ .tick60 := by
  rintro rfl
  cases (List.mem_filter.mp h).2

end Op

namespace Machine

def withTimers (m : Machine) (delay sound : UInt8) : Machine :=
  m.mapState fun s => s.withTimers delay sound

theorem tick60_withTimers (m : Machine) :
    m.tick60 = m.withTimers (State.countDown m.state.delay 1) (State.countDown m.state.sound 1) := by
  rw [tick60, mapState, State.tick60_eq]
  rfl

/-- no instruction that was carried out uses a timer -/
def Untimed (m : Machine) (ops : List Op) : Prop := ∀ i ∈ m.history ops, i.usesTimers = false

theorem untimed_cons {m : Machine} {o : Op} {ops : List Op} :
    m.Untimed (o :: ops) ↔
      (∀ i, m.carried o = some i → i.usesTimers = false) ∧ (m.perform o).1.Untimed ops := by
  unfold Untimed
  rw [history_cons]
  simp only [List.mem_append, Option.mem_toList, or_imp, forall_and]

theorem carried_usesTimers {m : Machine} {i : Instruction} (hdue : m.due = some i)
    (h : i.usesTimers = true) : m.carried .tick = some i := by
  obtain ⟨hm, hpc, hi⟩ := due_eq_some.mp hdue
  rw [carried, State.carried_fetched _ hm hpc, hi]
  cases i with
  | readDelay x => rfl
  | setDelay x => rfl
  | setSound x => rfl
  | _ => cases h

theorem due_untimed {m : Machine} (h : ∀ i, m.carried .tick = some i → i.usesTimers = false)
    {i : Instruction} (hdue : m.due = some i) : i.usesTimers = false := by
  cases huses : i.usesTimers with
  | false => rfl
  | true =>
    have hfree := h i (carried_usesTimers hdue huses)
    rw [huses] at hfree
    exact hfree

theorem step_withTimers {m : Machine} (h : ∀ i, m.due = some i → i.usesTimers = false)
    (delay sound : UInt8) :
    (m.withTimers delay sound).state.step m.dice.next =
      (m.state.step m.dice.next).withTimers delay sound := by
  apply State.step_withTimers
  intro f hf
  apply h
  rw [due, hf]
  rfl

theorem tick_withTimers {m : Machine} (ht : m.tracing = false)
    (h : ∀ i, m.due = some i → i.usesTimers = false) (delay sound : UInt8) :
    (m.withTimers delay sound).tick =
      { m.tick with machine := m.tick.machine.withTimers delay sound } := by
  have hstep := step_withTimers h delay sound
  unfold tick
  rw [show (m.withTimers delay sound).dice = m.dice from rfl, hstep]
  dsimp only [Stepped.withTimers]
  cases (m.state.step m.dice.next).fetched with
  | none => rfl
  | some f =>
    dsimp only [Option.map_some, note]
    simp only [show (m.withTimers delay sound).tracing = false from ht, ht]
    rfl

theorem carried_withTimers {m : Machine} {o : Op}
    (h : ∀ i, m.carried o = some i → i.usesTimers = false) (delay sound : UInt8) :
    (m.withTimers delay sound).carried o = m.carried o := by
  cases o with
  | tick =>
    show ((m.withTimers delay sound).state.step m.dice.next).carried = _
    rw [step_withTimers (fun i hdue => due_untimed h hdue) delay sound, carried, Stepped.carried,
      Stepped.carried]
    dsimp only [Stepped.withTimers]
    rw [Option.map_map]
    rfl
  | _ => rfl

theorem perform_withTimers {m : Machine} (hw : m.state.WellFormed) (ht : m.tracing = false)
    {o : Op} (ho : o ≠ .tick60) (h : ∀ i, m.carried o = some i → i.usesTimers = false)
    (delay sound : UInt8) :
    ((m.withTimers delay sound).perform o).1 = (m.perform o).1.withTimers delay sound := by
  cases o with
  | tick60 => exact absurd rfl ho
  | tick =>
    rw [perform, perform, tick_withTimers ht (fun i hdue => due_untimed h hdue)]
  | release k =>
    show (m.withTimers delay sound).release k = (m.release k).withTimers delay sound
    cases hp : m.paused with
    | false => rw [release_unpaused hp, release_unpaused (m := m.withTimers delay sound) hp]; rfl
    | true => rw [release_paused hp, release_paused (m := m.withTimers delay sound) hp]
  | reload =>
    have hw' : (m.withTimers delay sound).state.WellFormed := hw
    rw [perform, perform, reload_wellFormed hw, reload_wellFormed hw']
    rfl
  | load image => rfl
  | _ => rfl

/-! ## runs -/

theorem perform_tracing {m : Machine} (ht : m.tracing = false) (o : Op) :
    (m.perform o).1.tracing = false := by
  by_cases ho : o = .reload
  · subst ho
    rw [perform]
    cases hr : m.reload with
    | none => exact ht
    | some r => exact (reload_new hr).1.trans ht
  · rw [tracing_perform ho, ht]

/-- other timers make no difference to operations none of which uses them -/
theorem run_withTimers {m : Machine} (hw : m.state.WellFormed) (ht : m.tracing = false)
    {ops : List Op} (hops : ∀ o ∈ ops, o ≠ .tick60) (h : m.Untimed ops) (delay sound : UInt8) :
    (m.withTimers delay sound).run ops = (m.run ops).withTimers delay sound ∧
      (m.withTimers delay sound).history ops = m.history ops := by
  induction ops generalizing m with
  | nil => exact ⟨rfl, rfl⟩
  | cons o ops ih =>
    obtain ⟨ho, hrest⟩ := untimed_cons.mp h
    have hfirst := perform_withTimers hw ht (hops o (List.mem_cons_self ..)) ho delay sound
    obtain ⟨hrun, hhistory⟩ := ih (perform_wellFormed hw o) (perform_tracing ht o)
      (fun o' ho' => hops o' (List.mem_cons_of_mem _ ho')) hrest
    rw [run_cons, run_cons, history_cons, history_cons, hfirst, hrun, hhistory,
      carried_withTimers ho delay sound]
    exact ⟨rfl, rfl⟩

theorem timers_perform {m : Machine} (hw : m.state.WellFormed) (ht : m.tracing = false) {o : Op}
    (ho : o ≠ .tick60) (h : ∀ i, m.carried o = some i → i.usesTimers = false) :
    (m.perform o).1.state.delay = m.state.delay ∧ (m.perform o).1.state.sound = m.state.sound := by
  have hsame := perform_withTimers hw ht ho h m.state.delay m.state.sound
  have hself : m.withTimers m.state.delay m.state.sound = m := rfl
  rw [hself] at hsame
  rw [hsame]
  exact ⟨rfl, rfl⟩

/-- a run in which nothing uses a timer is the one without their ticks, with the timers counted down
at its end -/
theorem run_untimed {m : Machine} (hw : m.state.WellFormed) (ht : m.tracing = false)
    {ops : List Op} (h : m.Untimed (Op.untimed ops)) :
    m.run ops =
      (m.run (Op.untimed ops)).withTimers (State.countDown m.state.delay (ops.countP Op.counts))
        (State.countDown m.state.sound (ops.countP Op.counts)) ∧
    m.history ops = m.history (Op.untimed ops) := by
  induction ops generalizing m with
  | nil =>
    show m = m.withTimers (State.countDown m.state.delay 0) (State.countDown m.state.sound 0) ∧ _
    rw [State.countDown_zero, State.countDown_zero]
    exact ⟨rfl, rfl⟩
  | cons o ops ih =>
    by_cases ho : o = .tick60
    · subst ho
      have hfirst : (m.perform .tick60).1 =
          m.withTimers (State.countDown m.state.delay 1) (State.countDown m.state.sound 1) :=
        tick60_withTimers m
      rw [Op.untimed_tick60] at h ⊢
      obtain ⟨hrun, hhistory⟩ := run_withTimers hw ht (fun _ ho => Op.ne_tick60 ho) h
        (State.countDown m.state.delay 1) (State.countDown m.state.sound 1)
      rw [← hfirst] at hrun hhistory
      have hfree : (m.perform .tick60).1.Untimed (Op.untimed ops) := by
        unfold Untimed
        rwa [hhistory]
      obtain ⟨hlater, hsame⟩ := ih (perform_wellFormed hw .tick60) (perform_tracing ht .tick60) hfree
      refine ⟨?_, ?_⟩
      · rw [run_cons, hlater, hrun, hfirst, Op.countP_tick60, ← State.countDown_countDown,
          ← State.countDown_countDown]
        rfl
      · rw [history_cons, hsame, hhistory]
        rfl
    · rw [Op.untimed_cons ho] at h ⊢
      obtain ⟨hcarried, hrest⟩ := untimed_cons.mp h
      obtain ⟨hdelay, hsound⟩ := timers_perform hw ht ho hcarried
      obtain ⟨hlater, hsame⟩ := ih (perform_wellFormed hw o) (perform_tracing ht o) hrest
      rw [run_cons, run_cons, history_cons, history_cons, hlater, hsame, hdelay, hsound,
        Op.countP_cons ho]
      exact ⟨rfl, rfl⟩

theorem Untimed.untimed {m : Machine} (hw : m.state.WellFormed) (ht : m.tracing = false)
    {ops : List Op} (h : m.Untimed ops) : m.Untimed (Op.untimed ops) := by
  induction ops generalizing m with
  | nil => exact h
  | cons o ops ih =>
    obtain ⟨hcarried, hrest⟩ := untimed_cons.mp h
    have hlater := ih (perform_wellFormed hw o) (perform_tracing ht o) hrest
    by_cases ho : o = .tick60
    · subst ho
      -- the machine is the one after the tick with its timers set back
      have hback : (m.perform .tick60).1.withTimers m.state.delay m.state.sound = m := rfl
      obtain ⟨-, hhistory⟩ := run_withTimers (perform_wellFormed hw .tick60)
        (perform_tracing ht .tick60) (fun _ ho => Op.ne_tick60 ho) hlater m.state.delay m.state.sound
      rw [hback] at hhistory
      rw [Op.untimed_tick60]
      unfold Untimed
      rwa [hhistory]
    · rw [Op.untimed_cons ho]
      exact untimed_cons.mpr ⟨hcarried, hlater⟩

/-- an instruction that uses no timer and a tick of the timers may change places; and so a run in
which none does comes to the same machine wherever the timers tick, with as many ticks taken off
each of them, down to zero -/
theorem cadences_independent {m : Machine} (hw : m.state.WellFormed) (ht : m.tracing = false) :
    ((∀ i, m.due = some i → i.usesTimers = false) →
      m.tick60.tick = { m.tick with machine := m.tick.machine.tick60 }) ∧
    ∀ ops, (∀ i ∈ m.history ops, i.usesTimers = false) →
      (m.run ops).state.delay.toNat = m.state.delay.toNat - ops.countP Op.counts ∧
      (m.run ops).state.sound.toNat = m.state.sound.toNat - ops.countP Op.counts ∧
      ∀ others, Op.untimed others = Op.untimed ops →
        others.countP Op.counts = ops.countP Op.counts → m.run others = m.run ops := by
  refine ⟨?_, ?_⟩
  · intro hfree
    have hdelay : m.tick.machine.withTimers m.state.delay m.state.sound = m.tick.machine :=
      (congrArg Ticked.machine (tick_withTimers ht hfree m.state.delay m.state.sound)).symm
    rw [tick60_withTimers m, tick_withTimers ht hfree, tick60_withTimers m.tick.machine, ← hdelay]
    rfl
  · intro ops h
    have hfree : m.Untimed (Op.untimed ops) := Untimed.untimed hw ht h
    obtain ⟨hrun, -⟩ := run_untimed hw ht hfree
    refine ⟨?_, ?_, ?_⟩
    · rw [hrun]
      exact State.toNat_countDown m.state.delay _
    · rw [hrun]
      exact State.toNat_countDown m.state.sound _
    · intro others hothers hcount
      rw [← hothers] at hfree
      obtain ⟨hrun', -⟩ := run_untimed hw ht hfree
      rw [hrun', hothers, hcount, hrun]

/-- calls in calls, while both timers run -/
def nestedTimed : Machine :=
  { nested with state := { nested.state with delay := 2, sound := 9 } }

/-- four instructions, with ticks of the timers among them -/
def scattered : List Op := [.tick, .tick60, .tick, .tick, .tick60, .tick60, .tick]

/-- the ticks of the timers among the instructions, and all before them -/
theorem cadences_independent_nested :
    nestedTimed.state.WellFormed ∧ nestedTimed.tracing = false ∧
      nestedTimed.tick60.tick.machine = nestedTimed.tick.machine.tick60 ∧
      nestedTimed.run [.tick60, .tick60, .tick60, .tick, .tick, .tick, .tick] =
        nestedTimed.run scattered ∧
      (nestedTimed.run scattered).state.delay.toNat = 0 ∧
      (nestedTimed.run scattered).state.sound.toNat = 6 := by
  have hw : nestedTimed.state.WellFormed :=
    State.WellFormed.withRam (s := { State.fresh with delay := 2, sound := 9 })
      State.fresh_wellFormed _
  have hdue : nestedTimed.due = some (.call 0x206) := by decide +kernel
  have hfree : ∀ i, nestedTimed.due = some i → i.usesTimers = false := by
    intro i hi
    rw [hdue] at hi
    cases hi
    rfl
  have hhistory : ∀ i ∈ nestedTimed.history scattered, i.usesTimers = false := by
    decide +kernel
  obtain ⟨htick, hrun⟩ := cadences_independent hw rfl
  obtain ⟨hdelay, hsound, hothers⟩ := hrun _ hhistory
  have hcommute : nestedTimed.tick60.tick.machine = nestedTimed.tick.machine.tick60 := by
    rw [htick hfree]
  refine ⟨hw, rfl, hcommute, hothers _ rfl rfl, hdelay.trans ?_, hsound.trans ?_⟩
  · decide +kernel
  · decide +kernel

end Machine

end ChipEight
