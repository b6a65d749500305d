import ChipEight.Proofs.Machine.Stack

/-!
# What instructions write and read in memory

Two instructions write memory, from the index on, and one reads it into registers.  A window that
they have in common may lie anywhere: over the font, over the program, or across the end of memory.

* `State.written s i`      the bytes that instruction `i` writes; `Instruction.span` how many;
* `ram_exec`               memory after any instruction;
* `Machine.WritesAt m a`   the next tick writes the byte at `a`;
* `get_tick`, `get_keeps`  the bytes that a tick writes, and those that stay;
* `last_written`           a byte of memory after a run: as it was, or as it was written last;
* `load_stored`            registers that were stored and not written over are loaded again;
* `memory_transfers`       all of this for every well-formed machine.
-/

namespace ChipEight

/-! ## bytes in memory -/

namespace Ram

variable {r : Ram} {start k : Nat} {bytes : List UInt8} {a : Fin 4096}

theorem get_overlay_outside (h : ¬(start ≤ a.val ∧ a.val < start + bytes.length)) :
    (r.overlay start bytes.toArray).get a = r.get a := by
  rw [get_overlay]
  split
  · rename_i hle
    rw [List.getElem?_toArray, List.getElem?_eq_none (by omega), Option.getD_none]
  · rfl

theorem get_overlay_inside (hk : k < bytes.length) (ha : start + k = a.val) :
    bytes[k]? = some ((r.overlay start bytes.toArray).get a) := by
  have hplace : a.val - start = k := by omega
  rw [get_overlay, if_pos (by omega), hplace, List.getElem?_toArray, List.getElem?_eq_getElem hk]
  rfl

end Ram

/-! ## instructions -/

/-- how many bytes an instruction writes, if there is memory for them -/
def Instruction.span : Instruction → Nat
  | .store x => x + 1
  | .storeDecimal _ => 3
  | _ => 0

namespace State

def written (s : State) : Instruction → List UInt8
  | .store x => s.v.toList.take (x + 1)
  | .storeDecimal x => decimalDigits (s.v.get x)
  | _ => []

theorem length_written (s : State) (i : Instruction) : (s.written i).length = i.span := by
  cases i with
  | store x =>
    show (s.v.toList.take (x + 1)).length = x + 1
    rw [List.length_take, Vector.length_toList]
    omega
  | _ => rfl

theorem ram_skipIf (s : State) (c : Bool) : (s.skipIf c).ram = s.ram := by
  cases c <;> rfl

theorem ram_doReturn (s : State) : s.doReturn.state.ram = s.ram := by
  unfold doReturn
  split
  · rfl
  · dsimp only
    split <;> rfl

theorem ram_doCall (s : State) (a : Address) : (s.doCall a).state.ram = s.ram := by
  unfold doCall
  split <;> rfl

theorem ram_doDraw (s : State) (x y : Register) (n : Nat) : (s.doDraw x y n).state.ram = s.ram := by
  unfold doDraw
  split
  · rfl
  · dsimp only
    split <;> rfl

theorem ram_doLoad (s : State) (n : Nat) : (s.doLoad n).state.ram = s.ram := by
  rw [doLoad_eq, state_doneUnless, withRegisters]

theorem ram_exec (s : State) (i : Instruction) (roll : UInt8) :
    (s.exec i roll).state.ram = s.ram.overlay s.i.toNat (s.written i).toArray := by
  have hnil : s.ram = s.ram.overlay s.i.toNat #[] := (s.ram.overlay_nil s.i.toNat).symm
  cases i with
  | store x =>
    rw [exec, doStore_eq, state_doneUnless]
    rfl
  | storeDecimal x =>
    rw [exec, doStore_eq, state_doneUnless]
    rfl
  | load x => exact (s.ram_doLoad (x + 1)).trans hnil
  | draw x y n => exact (s.ram_doDraw x y n).trans hnil
  | ret => exact s.ram_doReturn.trans hnil
  | call a => exact (s.ram_doCall a).trans hnil
  | skipIfByte x b => exact (s.ram_skipIf _).trans hnil
  | skipUnlessByte x b => exact (s.ram_skipIf _).trans hnil
  | skipIfEqual x y => exact (s.ram_skipIf _).trans hnil
  | skipUnlessEqual x y => exact (s.ram_skipIf _).trans hnil
  | skipIfPressed x => exact (s.ram_skipIf _).trans hnil
  | skipUnlessPressed x => exact (s.ram_skipIf _).trans hnil
  | _ => exact hnil

theorem doneUnless_eq_ok {s : State} {f : Option Fault} {drawn : Bool}
    (h : (s.doneUnless f).result = .ok drawn) : f = none ∧ drawn = false := by
  cases f with
  | none => exact ⟨rfl, (Except.ok.inj h).symm⟩
  | some f => cases h

theorem get_withRegisters (s : State) (n : Nat) (k : Register) :
    (s.withRegisters n).v.get k =
      if k.val < n then (s.ram[s.i.toNat + k.val]?).getD (s.v.get k) else s.v.get k := by
  show (s.withRegisters n).v[k.val] = _
  rw [withRegisters, Vector.getElem_ofFn]

/-- the three decimal digits of a byte -/
theorem decimalDigits_eq (b : UInt8) :
    ∃ hundreds tens ones : UInt8, decimalDigits b = [hundreds, tens, ones] ∧
      hundreds.toNat ≤ 9 ∧ tens.toNat ≤ 9 ∧ ones.toNat ≤ 9 ∧
      100 * hundreds.toNat + 10 * tens.toNat + ones.toNat = b.toNat := by
  refine ⟨_, _, _, rfl, ?_⟩
  have hlt := b.toNat_lt
  simp only [UInt8.toNat_div, UInt8.toNat_mod, UInt8.reduceToNat]
  omega

end State

/-! ## ticks -/

namespace Machine

variable {m : Machine} {i : Instruction} {x k : Register} {a : Fin 4096}

def WritesAt (m : Machine) (a : Nat) : Prop :=
  ∃ i ∈ m.due, m.state.i.toNat ≤ a ∧ a < m.state.i.toNat + i.span

instance (m : Machine) (a : Nat) : Decidable (m.WritesAt a) :=
  inferInstanceAs (Decidable (∃ i ∈ m.due, _))

theorem ram_tick (hdue : m.due = some i) :
    m.tick.machine.state.ram =
      m.state.ram.overlay m.state.i.toNat (m.state.written i).toArray := by
  have hentered : m.state.entered.written i = m.state.written i := by
    cases i <;> rfl
  rw [(tick_due hdue).2, ← hentered]
  exact State.ram_exec m.state.entered i m.dice.next

theorem ram_tick_none (hdue : m.due = none) : m.tick.machine.state.ram = m.state.ram := by
  rw [state_tick]
  cases hm : m.state.mode with
  | running =>
    have hpc : ¬m.state.pc < 4095 := fun hlt => by
      rw [due_fetched hm hlt] at hdue
      cases hdue
    rw [State.step_outside _ hm (Nat.not_lt.mp hpc)]
  | awaitingKey =>
    unfold State.step
    simp only [hm]
    cases m.state.released with
    | none => rfl
    | some k =>
      dsimp only
      unfold State.answer
      split <;> rfl

/-- what is written stands in memory after the tick, as far as there is memory -/
theorem get_tick (hdue : m.due = some i) {k : Nat} (hk : k < i.span)
    (ha : m.state.i.toNat + k = a.val) :
    (m.state.written i)[k]? = some (m.tick.machine.state.ram.get a) := by
  rw [ram_tick hdue]
  exact Ram.get_overlay_inside (by rwa [State.length_written]) ha

theorem get_tick_unwritten (h : ¬m.WritesAt a.val) :
    m.tick.machine.state.ram.get a = m.state.ram.get a := by
  cases hdue : m.due with
  | none => rw [ram_tick_none hdue]
  | some i =>
    rw [ram_tick hdue]
    refine Ram.get_overlay_outside fun hin => h ⟨i, hdue, ?_⟩
    rwa [State.length_written] at hin

/-- an operation that writes no byte at `a` leaves that byte alone -/
theorem get_keeps (h : m.state.WellFormed) {o : Op} (hload : o.loads = false)
    (htick : o = .tick → ¬m.WritesAt a.val) :
    (m.perform o).1.state.ram.get a = m.state.ram.get a := by
  cases o with
  | load image => cases hload
  | tick => exact get_tick_unwritten (htick rfl)
  | reload =>
    rw [perform, reload_wellFormed h]
    rfl
  | release k =>
    rw [perform, release]
    split <;> rfl
  | _ => rfl

theorem span_le {drawn : Bool} (hdue : m.due = some i) (hok : m.tick.result = .ok drawn) :
    i.span = 0 ∨ m.state.i.toNat + i.span ≤ 4096 := by
  rw [(tick_due hdue).1] at hok
  have hstore {bytes : List UInt8} (h : (m.state.entered.doStore bytes).result = .ok drawn) :
      bytes.length = 0 ∨ m.state.i.toNat + bytes.length ≤ 4096 := by
    rw [State.doStore_eq] at h
    exact Ram.overrun_eq_none.mp (State.doneUnless_eq_ok h).1
  have hwritten := State.length_written m.state.entered i
  cases i with
  | store x =>
    rw [← hwritten]
    exact hstore hok
  | storeDecimal x =>
    rw [← hwritten]
    exact hstore hok
  | _ => exact .inl rfl

theorem getElem?_tick {drawn : Bool} (hdue : m.due = some i) (hok : m.tick.result = .ok drawn)
    {k : Nat} (hk : k < i.span) :
    m.tick.machine.state.ram[m.state.i.toNat + k]? = (m.state.written i)[k]? := by
  have hlt : m.state.i.toNat + k < 4096 := by
    have hfits := span_le hdue hok
    omega
  rw [get_tick hdue hk (a := ⟨_, hlt⟩) rfl]
  exact Vector.getElem?_eq_getElem hlt

theorem written_store (m : Machine) (h : k.val ≤ x) :
    (m.state.written (.store x))[k.val]? = some (m.state.v.get k) := by
  show (m.state.v.toList.take (x + 1))[k.val]? = _
  rw [List.getElem?_take_of_lt (by omega), Vector.getElem?_toList,
    Vector.getElem?_eq_getElem k.isLt]
  rfl

theorem tick_decimal {drawn : Bool} (hdue : m.due = some (.storeDecimal x))
    (hok : m.tick.result = .ok drawn) :
    ∃ hundreds tens ones : UInt8,
      m.tick.machine.state.ram[m.state.i.toNat]? = some hundreds ∧
      m.tick.machine.state.ram[m.state.i.toNat + 1]? = some tens ∧
      m.tick.machine.state.ram[m.state.i.toNat + 2]? = some ones ∧
      hundreds.toNat ≤ 9 ∧ tens.toNat ≤ 9 ∧ ones.toNat ≤ 9 ∧
      100 * hundreds.toNat + 10 * tens.toNat + ones.toNat = (m.state.v.get x).toNat := by
  obtain ⟨hundreds, tens, ones, hdigits, hvalue⟩ := State.decimalDigits_eq (m.state.v.get x)
  have hplace (k : Nat) (hk : k < 3) :
      m.tick.machine.state.ram[m.state.i.toNat + k]? = [hundreds, tens, ones][k]? := by
    rw [getElem?_tick hdue hok hk, ← hdigits]
    rfl
  exact ⟨hundreds, tens, ones, hplace 0 (by decide), hplace 1 (by decide), hplace 2 (by decide), hvalue⟩

theorem tick_load {drawn : Bool} (hdue : m.due = some (.load x))
    (hok : m.tick.result = .ok drawn) (k : Register) :
    (k.val ≤ x → m.state.ram[m.state.i.toNat + k]? = some (m.tick.machine.state.v.get k)) ∧
      (¬k.val ≤ x → m.tick.machine.state.v.get k = m.state.v.get k) := by
  obtain ⟨hresult, hmachine⟩ := tick_due hdue
  rw [hresult, State.exec, State.doLoad_eq] at hok
  have hfits : m.state.i.toNat + (x + 1) ≤ 4096 :=
    (Ram.overrun_eq_none.mp (State.doneUnless_eq_ok hok).1).resolve_left (Nat.succ_ne_zero x)
  have hv : m.tick.machine.state.v = (m.state.withRegisters (x + 1)).v := by
    rw [hmachine, State.exec, State.doLoad_eq, State.state_doneUnless]
    rfl
  rw [hv, State.get_withRegisters]
  constructor
  · intro hk
    have hlt : m.state.i.toNat + k < 4096 := by omega
    rw [if_pos (by omega), Vector.getElem?_eq_getElem hlt]
    rfl
  · intro hk
    rw [if_neg (by omega)]

theorem tick_load_ok (hdue : m.due = some (.load x)) (hfits : m.state.i.toNat + x < 4096) :
    m.tick.result = .ok false := by
  have hnone : Ram.overrun m.state.entered.i.toNat (x + 1) = none :=
    Ram.overrun_eq_none.mpr (.inr hfits)
  rw [(tick_due hdue).1, State.exec, State.doLoad_eq, hnone]
  rfl

theorem index_tick (hdue : m.due = some i)
    (h : i = .store x ∨ i = .storeDecimal x ∨ i = .load x) :
    m.tick.machine.state.i = m.state.i := by
  rw [(tick_due hdue).2]
  show (m.state.entered.exec i m.dice.next).state.i = m.state.entered.i
  rcases h with rfl | rfl | rfl
  · rw [State.exec, State.doStore_eq, State.state_doneUnless, State.withBytes]
  · rw [State.exec, State.doStore_eq, State.state_doneUnless, State.withBytes]
  · rw [State.exec, State.doLoad_eq, State.state_doneUnless, State.withRegisters]

/-! ## runs -/

/-- a byte that no tick of a run writes -/
theorem get_run_unwritten (h : m.state.WellFormed) {ops : List Op}
    (hload : ∀ o ∈ ops, o.loads = false)
    (hfree : ∀ before, before ++ [.tick] <+: ops → ¬(m.run before).WritesAt a.val) :
    (m.run ops).state.ram.get a = m.state.ram.get a := by
  induction ops generalizing m with
  | nil => rfl
  | cons o ops ih =>
    obtain ⟨ho, hrest⟩ := List.forall_mem_cons.mp hload
    have hnow : o = .tick → ¬m.WritesAt a.val := by
      rintro rfl
      exact hfree [] (List.cons_prefix_cons.mpr ⟨rfl, List.nil_prefix⟩)
    rw [run_cons, ih (perform_wellFormed h o) hrest fun before hbefore =>
      hfree (o :: before) (List.cons_prefix_cons.mpr ⟨rfl, hbefore⟩), get_keeps h ho hnow]

theorem last_written (h : m.state.WellFormed) {ops : List Op}
    (hload : ∀ o ∈ ops, o.loads = false) (a : Fin 4096) :
    (m.run ops).state.ram.get a = m.state.ram.get a ∨
      ∃ before after i k, ops = before ++ .tick :: after ∧ (m.run before).due = some i ∧
        k < i.span ∧ (m.run before).state.i.toNat + k = a.val ∧
        ((m.run before).state.written i)[k]? = some ((m.run ops).state.ram.get a) := by
  -- from the end, where the last tick is found first
  induction ops using List.reverseRecOn with
  | nil => exact .inl rfl
  | append_singleton ops o ih =>
    have ho : o.loads = false := hload o (List.mem_append_right _ (List.mem_singleton_self o))
    have hw := run_wellFormed h ops
    rw [run_append]
    show (((m.run ops).perform o).1.state.ram.get a = _) ∨ _
    by_cases hwrites : o = .tick ∧ (m.run ops).WritesAt a.val
    · obtain ⟨rfl, i, hdue, hle, hlt⟩ := hwrites
      have hplace : (m.run ops).state.i.toNat + (a.val - (m.run ops).state.i.toNat) = a.val := by
        omega
      exact .inr ⟨ops, [], i, _, rfl, hdue, by omega, hplace, get_tick hdue (by omega) hplace⟩
    · have hkeeps := get_keeps hw ho fun htick hin => hwrites ⟨htick, hin⟩
      rw [hkeeps]
      refine (ih fun o' ho' => hload o' (List.mem_append_left _ ho')).imp_right ?_
      rintro ⟨before, after, i, k, rfl, hrest⟩
      refine ⟨before, after ++ [o], i, k, by simp, hrest.1, hrest.2.1, hrest.2.2.1, ?_⟩
      show _ = some ((((m.run (before ++ .tick :: after)).perform o).1).state.ram.get a)
      rw [hkeeps]
      exact hrest.2.2.2

theorem load_stored (h : m.state.WellFormed) {drawn : Bool} {ops : List Op}
    (hstore : m.due = some (.store x)) (hok : m.tick.result = .ok drawn)
    (hload : ∀ o ∈ ops, o.loads = false)
    (hfree : ∀ before, before ++ [.tick] <+: ops → ∀ k : Register, k.val ≤ x →
      ¬(m.run (.tick :: before)).WritesAt (m.state.i.toNat + k))
    (hback : (m.run (.tick :: ops)).due = some (.load x))
    (hindex : (m.run (.tick :: ops)).state.i = m.state.i) :
    (m.run (.tick :: ops)).tick.result = .ok false ∧
      ∀ k : Register, k.val ≤ x → (m.run (.tick :: ops)).tick.machine.state.v.get k = m.state.v.get k := by
  have hfits : m.state.i.toNat + x < 4096 := (span_le hstore hok).resolve_left (Nat.succ_ne_zero x)
  have hdone : (m.run (.tick :: ops)).tick.result = .ok false := by
    refine tick_load_ok hback ?_
    rwa [hindex]
  refine ⟨hdone, fun k hk => ?_⟩
  have hlt : m.state.i.toNat + k < 4096 := by omega
  have hwritten := get_tick hstore (k := k) (by show k.val < x + 1; omega) (a := ⟨_, hlt⟩) rfl
  have hkept := get_run_unwritten (perform_wellFormed h .tick) hload (a := ⟨_, hlt⟩)
    fun before hbefore => hfree before hbefore k hk
  have hread := (tick_load hback hdone k).1 hk
  rw [written_store m hk] at hwritten
  rw [hindex, Vector.getElem?_eq_getElem hlt] at hread
  exact (Option.some.inj hread).symm.trans (hkept.trans (Option.some.inj hwritten).symm)

/-! ## the two that write -/

/-- registers are stored, among them the byte `b` at `a` -/
def Stores (m : Machine) (a : Fin 4096) (b : UInt8) : Prop :=
  ∃ x k : Register, m.due = some (.store x) ∧ k.val ≤ x ∧ m.state.i.toNat + k = a ∧
    m.state.v.get k = b

/-- the digits of a register are stored, among them the byte `b` at `a` -/
def StoresDigit (m : Machine) (a : Fin 4096) (b : UInt8) : Prop :=
  ∃ (x : Register) (k : Fin 3), m.due = some (.storeDecimal x) ∧ m.state.i.toNat + k = a ∧
    (State.decimalDigits (m.state.v.get x))[k.val]? = some b

theorem stores_iff {a : Fin 4096} {b : UInt8} :
    m.Stores a b ∨ m.StoresDigit a b ↔
      ∃ i k, m.due = some i ∧ k < i.span ∧ m.state.i.toNat + k = a ∧
        (m.state.written i)[k]? = some b := by
  constructor
  · rintro (⟨x, k, hdue, hk, ha, rfl⟩ | ⟨x, k, hdue, ha, hb⟩)
    · exact ⟨_, k.val, hdue, Nat.lt_succ_of_le hk, ha, written_store m hk⟩
    · exact ⟨_, k.val, hdue, k.isLt, ha, hb⟩
  · rintro ⟨i, k, hdue, hk, ha, hb⟩
    cases i with
    | store x =>
      have hlt : k < x + 1 := hk
      have hvalue := written_store m (x := x) (k := ⟨k, by omega⟩) (Nat.le_of_lt_succ hlt)
      exact .inl ⟨x, ⟨k, by omega⟩, hdue, Nat.le_of_lt_succ hlt, ha,
        Option.some.inj (hvalue.symm.trans hb)⟩
    | storeDecimal x => exact .inr ⟨x, ⟨k, hk⟩, hdue, ha, hb⟩
    | _ => cases hk

/-- As long as no program is loaded, a byte of memory changes only where registers or digits are
stored, and it is what was stored last.  What is stored stands in memory up to its end.  Digits are
the decimal ones of their register; registers that are loaded get the bytes in memory, and the others
stay; the index stays.  Registers that were stored come back with a load from the same place, if
nothing was written there in between. -/
theorem memory_transfers {m : Machine} (h : m.state.WellFormed) :
    (∀ ops, (∀ o ∈ ops, o.loads = false) → ∀ a : Fin 4096,
      (m.run ops).state.ram.get a = m.state.ram.get a ∨
        ∃ before after, ops = before ++ .tick :: after ∧
          ((m.run before).Stores a ((m.run ops).state.ram.get a) ∨
            (m.run before).StoresDigit a ((m.run ops).state.ram.get a))) ∧
    (∀ a b, m.Stores a b ∨ m.StoresDigit a b → m.tick.machine.state.ram.get a = b) ∧
    (∀ x drawn, m.due = some (.storeDecimal x) → m.tick.result = .ok drawn →
      ∃ hundreds tens ones : UInt8,
        m.tick.machine.state.ram[m.state.i.toNat]? = some hundreds ∧
        m.tick.machine.state.ram[m.state.i.toNat + 1]? = some tens ∧
        m.tick.machine.state.ram[m.state.i.toNat + 2]? = some ones ∧
        hundreds.toNat ≤ 9 ∧ tens.toNat ≤ 9 ∧ ones.toNat ≤ 9 ∧
        100 * hundreds.toNat + 10 * tens.toNat + ones.toNat = (m.state.v.get x).toNat) ∧
    (∀ x drawn, m.due = some (.load x) → m.tick.result = .ok drawn → ∀ k : Register,
      (k.val ≤ x → m.state.ram[m.state.i.toNat + k]? = some (m.tick.machine.state.v.get k)) ∧
        (¬k.val ≤ x → m.tick.machine.state.v.get k = m.state.v.get k)) ∧
    (∀ i x, m.due = some i → i = .store x ∨ i = .storeDecimal x ∨ i = .load x →
      m.tick.machine.state.i = m.state.i) ∧
    ∀ x drawn ops, m.due = some (.store x) → m.tick.result = .ok drawn →
      (∀ o ∈ ops, o.loads = false) →
      (∀ before, before ++ [.tick] <+: ops → ∀ k : Register, k.val ≤ x →
        ¬(m.run (.tick :: before)).WritesAt (m.state.i.toNat + k)) →
      (m.run (.tick :: ops)).due = some (.load x) →
      (m.run (.tick :: ops)).state.i = m.state.i →
      (m.run (.tick :: ops)).tick.result = .ok false ∧
        ∀ k : Register, k.val ≤ x →
          (m.run (.tick :: ops)).tick.machine.state.v.get k = m.state.v.get k := by
  refine ⟨fun ops hload a => ?_, fun a b hb => ?_, fun x _ => tick_decimal,
    fun x _ hdue hok => tick_load hdue hok, fun i x => index_tick,
    fun x _ ops => load_stored h⟩
  · refine (last_written h hload a).imp_right ?_
    rintro ⟨before, after, i, k, hops, hwrite⟩
    exact ⟨before, after, hops, stores_iff.mpr ⟨i, k, hwrite⟩⟩
  · obtain ⟨i, k, hdue, hk, ha, hwritten⟩ := stores_iff.mp hb
    exact Option.some.inj ((get_tick hdue hk ha).symm.trans hwritten)

/-- about to store all registers, to clear the first, and to jump to where they are loaded again -/
def storing : Machine :=
  .ofState
    { State.fresh.withV State.first 254 with
      i := 0x300
      ram := ((((((((Ram.zeros.set programStart 0xFF programStart_lt).set (programStart + 1) 0x55
        programStart_succ_lt).set 0x202 0x60).set 0x204 0x12).set 0x205 0x10).set 0x210 0xFF).set
        0x211 0x65).set 0x212 0xF0).set 0x213 0x33 }
    (.cycle #[]) false

/-- the clearing and the jump, with a tick of the timers between them -/
def clearing : List Op := [.tick, .tick60, .tick]

/-- the machine when they are loaded, and the digits of the first are to be stored -/
def digiting : Machine := (storing.run (.tick :: clearing)).run [.tick]

theorem memory_transfers_storing :
    storing.state.WellFormed ∧ storing.due = some (.store State.flag) ∧
      (storing.run (.tick :: clearing)).due = some (.load State.flag) ∧
      (storing.run (.tick :: clearing)).state.v.get State.first = 0 ∧
      (storing.run (.tick :: clearing)).tick.result = .ok false ∧
      (storing.run (.tick :: clearing)).tick.machine.state.v.get State.first = 254 ∧
      digiting.due = some (.storeDecimal State.first) ∧
      ∃ hundreds tens ones : UInt8,
        digiting.tick.machine.state.ram[digiting.state.i.toNat]? = some hundreds ∧
        digiting.tick.machine.state.ram[digiting.state.i.toNat + 1]? = some tens ∧
        digiting.tick.machine.state.ram[digiting.state.i.toNat + 2]? = some ones ∧
        hundreds.toNat ≤ 9 ∧ tens.toNat ≤ 9 ∧ ones.toNat ≤ 9 ∧
        100 * hundreds.toNat + 10 * tens.toNat + ones.toNat = 254 := by
  have hw : storing.state.WellFormed :=
    State.WellFormed.withRam (s := { State.fresh.withV State.first 254 with i := 0x300 })
      State.fresh_wellFormed _
  have hdigiting : digiting.state.WellFormed := run_wellFormed (run_wellFormed hw _) _
  obtain ⟨hdue, hstored, hback, hindex, hcleared, hdigits, hdone, hvalue⟩ :
      storing.due = some (.store State.flag) ∧ storing.tick.result = .ok false ∧
        (storing.run (.tick :: clearing)).due = some (.load State.flag) ∧
        (storing.run (.tick :: clearing)).state.i = storing.state.i ∧
        (storing.run (.tick :: clearing)).state.v.get State.first = 0 ∧
        digiting.due = some (.storeDecimal State.first) ∧ digiting.tick.result = .ok false ∧
        (digiting.state.v.get State.first).toNat = 254 := by
    decide +kernel
  have hall : ∀ before ∈ clearing.inits, ∀ k : Register, k.val ≤ State.flag →
      ¬(storing.run (.tick :: before)).WritesAt (storing.state.i.toNat + k) := by
    decide +kernel
  have hfree : ∀ before, before ++ [.tick] <+: clearing → ∀ k : Register, k.val ≤ State.flag →
      ¬(storing.run (.tick :: before)).WritesAt (storing.state.i.toNat + k) := fun before hbefore =>
    hall before ((List.mem_inits _ _).mpr ((List.prefix_append before [.tick]).trans hbefore))
  obtain ⟨-, -, -, -, -, hloaded⟩ := memory_transfers hw
  obtain ⟨hresult, hvalues⟩ := hloaded State.flag false clearing hdue hstored (by decide) hfree
    hback hindex
  obtain ⟨-, -, hdecimal, -⟩ := memory_transfers hdigiting
  rw [← hvalue]
  exact ⟨hw, hdue, hback, hcleared, hresult, hvalues State.first (Nat.zero_le _), hdigits,
    hdecimal State.first false hdigits hdone⟩

end Machine

end ChipEight
