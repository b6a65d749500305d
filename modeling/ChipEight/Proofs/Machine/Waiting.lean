import ChipEight.Proofs.Machine.Interleaving

/-!
# The wait for a key

Nothing moves in a machine that waits but its timers.  The wait is kept in three places, the mode,
the register that waits and the key that is pending, and a saved state holds two of them.

* `State.Waits s x`        register `x` waits for a key;
* `State.KnowsWaiter`      the machine waits just if it knows the register that does;
* `eq_of_saved`            a saved state that is accepted again holds the very state that was saved;
* `Machine.Unanswered`     no tick of a run finds a released key;
* `State.idled`            the state after operations that an instruction waits through;
* `run_idled`              it is the state after such a run;
* `Console.Enters`         a call that makes a register wait;
* `after_enters`           no register waits without one;
* `wait_frozen`            all of this for every machine and all operations.
-/

namespace ChipEight

theorem ok_of_toOption {ε α : Type} {r : Except ε α} {a : α} (h : r.toOption = some a) :
    r = .ok a := by
  cases r with
  | error e => cases h
  | ok b => exact congrArg Except.ok (Option.some.inj h)

namespace State

def Waits (s : State) (x : Register) : Prop := s.mode = .awaitingKey ∧ s.awaiting = some x

def KnowsWaiter (s : State) : Prop := s.mode = .awaitingKey ↔ s.awaiting.isSome = true

variable {s t : State} {x : Register}

theorem Waits.knowsWaiter (h : s.Waits x) : s.KnowsWaiter := by
  rw [KnowsWaiter, h.2]
  exact iff_of_true h.1 rfl

theorem WellFormed.knowsWaiter (h : s.WellFormed) : s.KnowsWaiter := h.awaiting_iff

/-! ## saved states -/

theorem bounds_of_misfit? (h : s.misfit? = none) :
    (∀ k : Fin 16, s.stack.get k < 65536) ∧ s.pc < 65536 ∧ s.sp < 256 := by
  unfold misfit? at h
  split at h
  · rename_i hwords
    obtain ⟨hstack, hpc⟩ := Bool.and_eq_true_iff.mp hwords
    split at h
    · rename_i hsp
      refine ⟨fun k => ?_, of_decide_eq_true hpc, hsp⟩
      have hmem : s.stack.get k ∈ s.stack.toList := by
        rw [Vector.mem_toList_iff]
        exact Vector.getElem_mem k.isLt
      exact of_decide_eq_true (List.all_eq_true.mp hstack _ hmem)
    · cases h
  · cases h

/-- no state outside the bounds is written and read back, so that nothing is lost on the way -/
theorem eq_of_saved {bytes : List UInt8} (hs : s.KnowsWaiter) (he : s.encode = .ok bytes)
    (hd : decode bytes = .ok t) : t = s := by
  have himage : s.misfit? = none ∧ s.image = bytes := by
    unfold encode at he
    split at he
    · cases he
    · rename_i hfits
      exact ⟨hfits, Except.ok.inj he⟩
  obtain ⟨hfits, rfl⟩ := himage
  obtain ⟨hstack, hpc, hlt⟩ := bounds_of_misfit? hfits
  have hsp : s.sp ≤ 16 := by
    obtain ⟨haccepted, -⟩ := decodeArray_ok_iff.mp hd
    have hle := haccepted.sp
    rw [s.image_laid.byteAt_counters.1, UInt8.toNat_ofNat'] at hle
    omega
  have hback := decode_image (s := s) ⟨hpc, hsp, hstack, hs⟩
  rw [hback] at hd
  exact (Except.ok.inj hd).symm

/-! ## what makes a register wait -/

/-- what an instruction out of turn keeps as well, though it may be anywhere in memory -/
structure Steady (s : State) : Prop where
  sp_le : s.sp ≤ 16
  knows : s.KnowsWaiter

theorem WellFormed.steady (h : s.WellFormed) : s.Steady := ⟨h.sp_le, h.awaiting_iff⟩

theorem Steady.of_control (h : s.Steady) (heq : t.control = s.control) : t.Steady := by
  have hsp : t.sp = s.sp := congrArg Control.sp heq
  have hmode : t.mode = s.mode := congrArg Control.mode heq
  have hawaiting : t.awaiting = s.awaiting := congrArg Control.awaiting heq
  refine ⟨hsp ▸ h.sp_le, ?_⟩
  rw [KnowsWaiter, hmode, hawaiting]
  exact h.knows

theorem Waits.of_control (h : t.Waits x) (heq : t.control = s.control) : s.Waits x :=
  ⟨(congrArg Control.mode heq).symm.trans h.1, (congrArg Control.awaiting heq).symm.trans h.2⟩

theorem exec_steady (h : s.Steady) (i : Instruction) (roll : UInt8) :
    (s.exec i roll).state.Steady := by
  have hknows : s.control.mode = .awaitingKey ↔ s.control.awaiting.isSome = true := h.knows
  have hsp : s.control.sp ≤ 16 := h.sp_le
  have hmoves := moves_exec h.sp_le i roll
  suffices ((s.exec i roll).state.control.sp ≤ 16 ∧
      ((s.exec i roll).state.control.mode = .awaitingKey ↔
        (s.exec i roll).state.control.awaiting.isSome = true)) from ⟨this.1, this.2⟩
  generalize (s.exec i roll).state.control = d at hmoves
  cases hmoves with
  | call a hlt => exact ⟨hlt, hknows⟩
  | ret k hk => exact ⟨Nat.le_of_lt k.isLt, hknows⟩
  | wait x => exact ⟨hsp, fun _ => rfl, fun _ => rfl⟩
  | _ => exact ⟨hsp, hknows⟩

/-- only one instruction makes a register wait -/
theorem exec_waits (h : s.Steady) {i : Instruction} {roll : UInt8} (hn : ¬s.Waits x)
    (hy : (s.exec i roll).state.Waits x) : i = .awaitKey x := by
  have hmoves := moves_exec h.sp_le i roll
  obtain ⟨hmode, hawaiting⟩ : (s.exec i roll).state.control.mode = .awaitingKey ∧
    (s.exec i roll).state.control.awaiting = some x := hy
  generalize (s.exec i roll).state.control = d at hmoves hmode hawaiting
  cases hmoves with
  | wait y =>
    cases hawaiting
    rfl
  | _ => exact absurd ⟨hmode, hawaiting⟩ hn

theorem Steady.waiting (h : s.Steady) (hm : s.mode = .awaitingKey) : ∃ x, s.awaiting = some x :=
  Option.isSome_iff_exists.mp (h.knows.mp hm)

theorem step_steady (h : s.Steady) (roll : UInt8) :
    (s.step roll).state.Steady ∧
      ∀ x, (s.step roll).state.Waits x →
        s.Waits x ∨ (s.step roll).fetched.map (·.instruction) = some (.awaitKey x) := by
  cases hm : s.mode with
  | running =>
    have hrunning : ∀ x, ¬s.Waits x := fun x hx => by cases hm.symm.trans hx.1
    by_cases hpc : s.pc < 4095
    · have hentered : s.entered.Steady := ⟨h.sp_le, h.knows⟩
      rw [step_fetched roll hm hpc]
      refine ⟨exec_steady hentered _ roll, fun x hx => .inr ?_⟩
      exact congrArg some (exec_waits hentered (hrunning x) hx)
    · rw [step_outside roll hm (Nat.not_lt.mp hpc)]
      exact ⟨⟨h.sp_le, h.knows⟩, fun x hx => .inl hx⟩
  | awaitingKey =>
    cases hr : s.released with
    | none =>
      rw [step_waiting roll hm hr]
      exact ⟨h, fun x hx => .inl hx⟩
    | some k =>
      obtain ⟨y, hy⟩ := h.waiting hm
      rw [step_answered roll hm hy hr]
      exact ⟨⟨h.sp_le, nofun, nofun⟩, nofun⟩

end State

/-! ## operations that an instruction waits through -/

namespace Op

def onKeypad (p : Keypad) : Op → Keypad
  | .press n => p.press n
  | .lift n => p.release n
  | _ => p

end Op

namespace State

/-- the timers count down, keys are pressed and lifted, and nothing else happens -/
def idled (s : State) (ops : List Op) (released : Option Key) : State :=
  { s with
    delay := countDown s.delay (ops.countP Op.counts)
    sound := countDown s.sound (ops.countP Op.counts)
    keypad := ops.foldl Op.onKeypad s.keypad
    released }

theorem idled_nil (s : State) : s.idled [] s.released = s := by
  show { s with delay := countDown s.delay 0, sound := countDown s.sound 0 } = s
  rw [countDown_zero, countDown_zero]

theorem idled_idled (s : State) (a b : List Op) (r r' : Option Key) :
    (s.idled a r).idled b r' = s.idled (a ++ b) r' := by
  unfold idled
  rw [countDown_countDown, countDown_countDown, List.countP_append, List.foldl_append]

theorem eq_idled {s t : State} {o : Op} {r : Option Key} (h : o.counts = false)
    (ht : t = { s with keypad := Op.onKeypad s.keypad o, released := r }) : t = s.idled [o] r := by
  have hcount : [o].countP Op.counts = 0 := by rw [List.countP_cons, h]; rfl
  rw [idled, hcount, countDown_zero, countDown_zero, ht]
  rfl

theorem waits_idled {s : State} {x : Register} (h : s.Waits x) (ops : List Op) (r : Option Key) :
    (s.idled ops r).Waits x := h

end State

namespace Machine

variable {m : Machine} {x : Register}

def Unanswered (m : Machine) : List Op → Prop
  | [] => True
  | o :: ops => (o = .tick → m.state.released = none) ∧ (m.perform o).1.Unanswered ops

theorem tick_idle (hx : m.state.Waits x) (hr : m.state.released = none) :
    m.tick = ⟨m, .ok false, []⟩ := by
  unfold tick
  rw [State.step_waiting _ hx.1 hr]

/-- a machine that can be saved and restored goes on as it was, but for a pause and its trace -/
theorem reload_eq (hx : m.state.KnowsWaiter) {r : Machine} (hr : m.reload = some r) :
    r = .ofState m.state m.dice m.tracing := by
  obtain ⟨bytes, hsaved, hrestored⟩ := Option.bind_eq_some_iff.mp hr
  obtain ⟨s, hd, rfl⟩ := restore_ok (ok_of_toOption hrestored)
  rw [State.eq_of_saved hx (ok_of_toOption hsaved) hd]

theorem reload_waits (hx : m.state.Waits x) :
    (m.reload.getD m).state = m.state ∧ (m.reload.getD m).dice = m.dice := by
  cases hr : m.reload with
  | none => exact ⟨rfl, rfl⟩
  | some r =>
    obtain rfl := reload_eq hx.knowsWaiter hr
    exact ⟨rfl, rfl⟩

theorem answer_of_ne (m : Machine) {o : Op} (h : o ≠ .tick) (r : Except Fault Bool) :
    (m.perform o).2 ≠ .ticked r := by
  cases o with
  | tick => exact absurd rfl h
  | _ => rintro ⟨⟩

theorem perform_untimely (hx : m.state.Waits x) {o : Op} (hload : o.loads = false)
    (hne : o ≠ .tick) :
    (∃ released, (m.perform o).1.state = m.state.idled [o] released) ∧
      (m.perform o).1.dice = m.dice := by
  cases o with
  | load image => cases hload
  | tick => exact absurd rfl hne
  | tick60 => exact ⟨⟨m.state.released, State.tick60_eq m.state⟩, rfl⟩
  | release k =>
    cases hp : m.paused with
    | true =>
      rw [perform, release_paused hp]
      exact ⟨⟨_, State.eq_idled rfl rfl⟩, rfl⟩
    | false =>
      rw [perform, release_unpaused hp]
      exact ⟨⟨_, State.eq_idled rfl rfl⟩, rfl⟩
  | reload =>
    obtain ⟨hstate, hdice⟩ := reload_waits hx
    exact ⟨⟨_, State.eq_idled rfl hstate⟩, hdice⟩
  | _ => exact ⟨⟨_, State.eq_idled rfl rfl⟩, rfl⟩

theorem perform_idled (hx : m.state.Waits x) {o : Op} (hload : o.loads = false)
    (htick : o = .tick → m.state.released = none) :
    (∃ released, (m.perform o).1.state = m.state.idled [o] released) ∧
      (m.perform o).1.dice = m.dice ∧ m.carried o = none ∧
      ∀ r, (m.perform o).2 = .ticked r → r = .ok false := by
  by_cases heq : o = .tick
  · subst heq
    rw [perform, tick_idle hx (htick rfl), carried, State.step_waiting _ hx.1 (htick rfl)]
    exact ⟨⟨_, State.eq_idled rfl rfl⟩, rfl, rfl, fun r hr => (Answer.ticked.inj hr).symm⟩
  · obtain ⟨hstate, hdice⟩ := perform_untimely hx hload heq
    exact ⟨hstate, hdice, carried_of_ne m heq, fun r hr => absurd hr (answer_of_ne m heq r)⟩

theorem run_idled (hx : m.state.Waits x) {ops : List Op} (hload : ∀ o ∈ ops, o.loads = false)
    (hops : m.Unanswered ops) :
    (∃ released, (m.run ops).state = m.state.idled ops released) ∧
      (m.run ops).dice = m.dice ∧ m.history ops = [] ∧
      ∀ r, .ticked r ∈ m.answers ops → r = .ok false := by
  induction ops generalizing m with
  | nil => exact ⟨⟨_, m.state.idled_nil.symm⟩, rfl, rfl, nofun⟩
  | cons o ops ih =>
    obtain ⟨ho, hrest⟩ := List.forall_mem_cons.mp hload
    obtain ⟨htick, hlater⟩ := hops
    obtain ⟨⟨released, hfirst⟩, hdice, hcarried, hanswer⟩ := perform_idled hx ho htick
    have hwaits : (m.perform o).1.state.Waits x := hfirst ▸ State.waits_idled hx _ _
    obtain ⟨⟨released', hstate⟩, hdice', hhistory, hanswers⟩ := ih hwaits hrest hlater
    refine ⟨⟨released', ?_⟩, hdice'.trans hdice, ?_, fun r hr => ?_⟩
    · rw [run_cons, hstate, hfirst, State.idled_idled]
      rfl
    · rw [history_cons, hcarried, hhistory]
      rfl
    · rcases List.mem_cons.mp hr with heq | hmem
      · exact hanswer r heq.symm
      · exact hanswers r hmem

/-- the tick that finds a released key -/
theorem tick_answered (hx : m.state.Waits x) {k : Key} (hk : m.state.released = some k) :
    m.due = none ∧ m.tick.result = .ok false ∧
      m.tick.machine = m.mapState fun s =>
        { s.withV x (.ofNat k.val) with released := none, mode := .running, awaiting := none } := by
  have hstep := State.step_answered m.dice.next hx.1 hx.2 hk
  refine ⟨due_awaiting hx.1, ?_, ?_⟩
  · rw [result_tick, hstep]
  · unfold tick
    rw [hstep]
    rfl

end Machine

/-! ## consoles -/

namespace Console

variable {c : Console} {x : Register}

/-- the call makes register `x` wait: the instruction to wait for a key is executed, in its turn or
out of it, or a state is restored that was saved in such a wait -/
inductive Enters (c : Console) (x : Register) : Call → Prop where
  | tick (h : c.machine.due = some (.awaitKey x)) : Enters c x (.machine .tick)
  | exec : Enters c x (.exec (.awaitKey x))
  | restore {bytes : List UInt8} {s : State} (hd : State.decode bytes = .ok s) (hs : s.Waits x) :
      Enters c x (.restore bytes)

theorem perform_steady (h : c.machine.state.Steady) (out : Pipe Message) (k : Call) :
    (c.perform out k).console.machine.state.Steady ∧
      ∀ x, (c.perform out k).console.machine.state.Waits x →
        c.machine.state.Waits x ∨ c.Enters x k := by
  have hstill : c.machine.state.Steady ∧
      ∀ x, c.machine.state.Waits x → c.machine.state.Waits x ∨ c.Enters x k :=
    ⟨h, fun _ hx => .inl hx⟩
  cases k with
  | subscribe name r => exact hstill
  | exec i =>
    refine ⟨State.exec_steady h i _, fun x hx => ?_⟩
    by_cases hwaits : c.machine.state.Waits x
    · exact .inl hwaits
    · obtain rfl := State.exec_waits h hwaits hx
      exact .inr .exec
  | restore bytes =>
    rw [perform]
    cases hr : c.restored? (.restore bytes) with
    | none => exact hstill
    | some r =>
      obtain ⟨s, hd, rfl⟩ := Machine.restore_ok (ok_of_toOption hr)
      exact ⟨(State.decode_wellFormed hd).steady, fun x hx => .inr (.restore hd hx)⟩
  | machine o =>
    by_cases hreload : o = .reload
    · subst hreload
      rw [perform]
      cases hr : c.restored? (.machine .reload) with
      | none => exact hstill
      | some r =>
        obtain rfl := Machine.reload_eq h.knows hr
        exact hstill
    · rw [machine_perform hreload]
      by_cases htick : o = .tick
      · subst htick
        obtain ⟨hsteady, hwaits⟩ := State.step_steady h c.machine.dice.next
        rw [Machine.perform, Machine.state_tick]
        exact ⟨hsteady, fun x hx => (hwaits x hx).imp_right .tick⟩
      · have hsame := Machine.control_perform htick hreload (m := c.machine)
        exact ⟨h.of_control hsame, fun x hx => .inl (hx.of_control hsame)⟩

/-- a register that waits in the end, and did not in the beginning, was made to by one of the calls -/
theorem after_enters (h : c.machine.state.Steady) (out : Pipe Message) {calls : List Call}
    (hn : ¬c.machine.state.Waits x) (hy : (c.after out calls).machine.state.Waits x) :
    ∃ before k after, calls = before ++ k :: after ∧ (c.after out before).Enters x k := by
  induction calls generalizing c out with
  | nil => exact absurd hy hn
  | cons k calls ih =>
    obtain ⟨hsteady, hwaits⟩ := perform_steady h out k
    by_cases hnext : (c.perform out k).console.machine.state.Waits x
    · exact ⟨[], k, calls, rfl, (hwaits x hnext).resolve_left hn⟩
    · obtain ⟨before, k', after, rfl, henters⟩ := ih hsteady _ hnext hy
      exact ⟨k :: before, k', after, rfl, henters⟩

end Console

namespace Machine

/-- While a register waits, nothing but the timers, the keys and the pending key moves as long as no
tick finds a released key; the tick that finds one puts it in the register, executes nothing and ends
the wait.  A wait begins with the instruction for it, or with a state that was saved in it. -/
theorem wait_frozen (x : Register) :
    (∀ m : Machine, m.state.Waits x → ∀ ops, (∀ o ∈ ops, o.loads = false) → m.Unanswered ops →
      (∀ r, .ticked r ∈ m.answers ops → r = .ok false) ∧
      m.history ops = [] ∧ (m.run ops).dice = m.dice ∧
      (∃ released, (m.run ops).state = m.state.idled ops released) ∧
      (m.run ops).state.Waits x ∧
      ∀ k, (m.run ops).state.released = some k →
        (m.run ops).due = none ∧ (m.run ops).tick.result = .ok false ∧
        (m.run ops).tick.machine = (m.run ops).mapState fun s =>
          { s.withV x (.ofNat k.val) with released := none, mode := .running, awaiting := none }) ∧
    (∀ c : Console, c.machine.state.WellFormed → ∀ out calls, ¬c.machine.state.Waits x →
      (c.after out calls).machine.state.Waits x →
      ∃ before k after, calls = before ++ k :: after ∧ (c.after out before).Enters x k) ∧
    ∀ m : Machine, m.state.KnowsWaiter → ∀ bytes s, m.snapshot = .ok bytes →
      State.decode bytes = .ok s → (s.Waits x ↔ m.state.Waits x) := by
  refine ⟨fun m hx ops hload hops => ?_, fun c hc out calls => Console.after_enters hc.steady out,
    fun m hm bytes s hsaved hd => ?_⟩
  · obtain ⟨⟨released, hstate⟩, hdice, hhistory, hanswers⟩ := run_idled hx hload hops
    have hwaits : (m.run ops).state.Waits x := hstate ▸ State.waits_idled hx ops released
    exact ⟨hanswers, hhistory, hdice, ⟨released, hstate⟩, hwaits, fun k => tick_answered hwaits⟩
  · rw [State.eq_of_saved hm hsaved hd]

/-- the last register waits while both timers run -/
def drowsy : Machine :=
  .ofState { State.fresh.waitFor State.flag with delay := 1, sound := 5 } (.cycle #[]) true

/-- key 5 is released during a pause, and key 7 after it -/
def drowsing : List Op :=
  [.tick, .press 9, .tick60, .pause, .release (Key.ofNat 5), .tick, .unpause, .tick60,
    .release (Key.ofNat 7)]

/-- the word `0xFF0A` in the place of the first instruction -/
def toDrowse : Console :=
  .ofMachine (.ofState
    { State.fresh with
      ram := (Ram.zeros.set programStart 0xFF programStart_lt).set (programStart + 1) 0x0A
        programStart_succ_lt }
    (.cycle #[]) false)

theorem wait_frozen_drowsing :
    drowsy.state.Waits State.flag ∧ drowsy.Unanswered drowsing ∧
      (drowsy.run drowsing).state.delay = 0 ∧ (drowsy.run drowsing).state.sound = 3 ∧
      (drowsy.run drowsing).tick.machine.state.v.get State.flag = 7 ∧
      (drowsy.run drowsing).tick.machine.state.mode = .running ∧
      (∃ before k after, [.machine .tick60, .machine .tick] = before ++ k :: after ∧
        (toDrowse.after .empty before).Enters State.flag k) ∧
      ∃ bytes s, drowsy.snapshot = .ok bytes ∧ State.decode bytes = .ok s ∧
        s.Waits State.flag := by
  have hx : drowsy.state.Waits State.flag := ⟨rfl, rfl⟩
  have hops : drowsy.Unanswered drowsing := by
    refine ⟨fun _ => rfl, ?_, ?_, ?_, ?_, fun _ => rfl, ?_, ?_, ?_, trivial⟩ <;> rintro ⟨⟩
  have hw : drowsy.state.WellFormed := State.fresh_wellFormed.waitFor State.flag
  have hcalm : toDrowse.machine.state.WellFormed := State.fresh_wellFormed.withRam _
  obtain ⟨hfrozen, henters, hsaved⟩ := wait_frozen State.flag
  obtain ⟨-, -, -, ⟨released, hstate⟩, -, hanswered⟩ := hfrozen drowsy hx drowsing (by decide) hops
  obtain ⟨-, -, htick⟩ := hanswered (Key.ofNat 7) (by decide +kernel)
  have hbytes : drowsy.snapshot = .ok drowsy.state.image := State.encode_wellFormed hw
  have hback := State.decode_image hw
  rw [htick, hstate]
  refine ⟨hx, hops, rfl, rfl, rfl, rfl, ?_, _, _, hbytes, hback, ?_⟩
  · refine henters toDrowse hcalm _ _ ?_ ⟨by decide +kernel, by decide +kernel⟩
    rintro ⟨hmode, -⟩
    cases hmode
  · exact (hsaved drowsy hw.knowsWaiter _ _ hbytes hback).mpr hx

end Machine

end ChipEight
