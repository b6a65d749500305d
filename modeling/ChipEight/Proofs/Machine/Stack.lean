import Mathlib.Data.List.Infix
import ChipEight.Proofs.Machine.Due

/-!
# The stack over whole runs

Calls and returns may be nested in any way, fail, and have anything done to the machine between
them.  Three laws hold all the same, and each follows from what one operation does to the stack.

* `Stepped.carried`, `Machine.carried`   the instruction that was carried out, if one was;
* `Machine.history`        the instructions that a run carried out;
* `State.StackMove s t i`  what became of the stack when `i` was carried out: a call pushes, a
                           return pops, and nothing else touches it;
* `perform_stackMove`      every operation is such a move;
* `sp_run`                 the stack pointer counts calls less returns;
* `get_run`                an entry stays as it is while it is below the stack pointer;
* `Machine.run_stack`      these two, and that a return goes back behind its call.
-/

namespace ChipEight

def Instruction.isCall : Instruction → Bool
  | .call _ => true
  | _ => false

def Stepped.carried (t : Stepped) : Option Instruction :=
  match t.result with
  | .ok _ => t.fetched.map (·.instruction)
  | .error _ => none

namespace State

inductive StackMove (s t : State) : Option Instruction → Prop where
  | push (a : Address) (k : Fin 16) (hs : s.sp = k) (ht : t.sp = k + 1)
      (hstack : t.stack = s.stack.set k (s.pc + 2)) : StackMove s t (some (.call a))
  | pop (k : Fin 16) (hs : s.sp = k + 1) (ht : t.sp = k) (hstack : t.stack = s.stack)
      (hpc : t.pc = s.stack.get k) : StackMove s t (some .ret)
  | keep {i : Option Instruction} (hcall : ∀ a, i ≠ some (.call a)) (hret : i ≠ some .ret)
      (hsp : t.sp = s.sp) (hstack : t.stack = s.stack) : StackMove s t i

theorem StackMove.keep_none {s t : State} (hsp : t.sp = s.sp) (hstack : t.stack = s.stack) :
    s.StackMove t none :=
  .keep (fun _ h => by cases h) (fun h => by cases h) hsp hstack

theorem StackMove.sp_eq {s t : State} {i : Option Instruction} (h : s.StackMove t i) :
    t.sp + i.toList.count .ret = s.sp + i.toList.countP Instruction.isCall := by
  cases h with
  | push a k hs ht hstack =>
    show t.sp + 0 = s.sp + 1
    omega
  | pop k hs ht hstack hpc =>
    show t.sp + 1 = s.sp + 0
    omega
  | keep hcall hret hsp hstack =>
    have hrets : i.toList.count .ret = 0 := by
      rw [List.count_eq_zero, Option.mem_toList]
      exact hret
    have hcalls : i.toList.countP Instruction.isCall = 0 := by
      rw [List.countP_eq_zero]
      intro j hj hjcall
      cases j with
      | call a => exact hcall a (Option.mem_toList.mp hj)
      | _ => cases hjcall
    rw [hrets, hcalls, hsp]

theorem StackMove.get_eq {s t : State} {i : Option Instruction} (h : s.StackMove t i)
    {k : Fin 16} (hk : k.val < s.sp) : t.stack.get k = s.stack.get k := by
  cases h with
  | push a j hs ht hstack =>
    rw [hstack]
    show (s.stack.set j.val (s.pc + 2))[k.val] = s.stack[k.val]
    exact Vector.getElem_set_ne _ _ (by omega)
  | pop j hs ht hstack hpc => rw [hstack]
  | keep hcall hret hsp hstack => rw [hstack]

/-! ## instructions -/

theorem doCall_ok {s : State} (a : Address) (h : s.sp < 16) :
    s.doCall a = { s with stack := s.stack.set s.sp s.pc, sp := s.sp + 1, pc := a }.done :=
  dif_pos h

theorem doReturn_ok {s : State} {k : Fin 16} (h : s.sp = k + 1) :
    s.doReturn = { s with sp := k, pc := s.stack.get k }.done := by
  have hne : s.sp ≠ 0 := by omega
  have htop : s.sp - 1 = k := by omega
  rw [doReturn, if_neg hne]
  simp only [htop, k.isLt, dite_true]

end State

theorem Control.Moves.stack_eq {c d : Control} {i : Instruction} (h : c.Moves i d)
    (hcall : ∀ a, i ≠ .call a) (hret : i ≠ .ret) : d.sp = c.sp ∧ d.stack = c.stack := by
  cases h with
  | call a hlt => exact absurd rfl (hcall a)
  | ret k hk => exact absurd rfl hret
  | _ => exact ⟨rfl, rfl⟩

namespace State

theorem carried_fetched {s : State} (roll : UInt8) (hm : s.mode = .running) (h : s.pc < 4095) :
    (s.step roll).carried =
      match (s.entered.exec (.decode s.opcode) roll).result with
      | .ok _ => some (.decode s.opcode)
      | .error _ => none := by
  rw [step_fetched roll hm h]
  rfl

theorem exec_keep {s : State} (hsp : s.sp ≤ 16) (i : Instruction) (roll : UInt8)
    (hcall : ∀ a, i ≠ .call a) (hret : i ≠ .ret) :
    s.StackMove (s.entered.exec i roll).state
      (match (s.entered.exec i roll).result with
        | .ok _ => some i
        | .error _ => none) := by
  obtain ⟨hkeep, hstack⟩ := (moves_exec (s := s.entered) hsp i roll).stack_eq hcall hret
  cases (s.entered.exec i roll).result with
  | ok drawn =>
    exact .keep (fun a ha => hcall a (Option.some.inj ha)) (fun hr => hret (Option.some.inj hr))
      hkeep hstack
  | error f => exact .keep_none hkeep hstack

theorem exec_stackMove {s : State} (hsp : s.sp ≤ 16) (i : Instruction) (roll : UInt8) :
    s.StackMove (s.entered.exec i roll).state
      (match (s.entered.exec i roll).result with
        | .ok _ => some i
        | .error _ => none) := by
  cases i with
  | call a =>
    by_cases hlt : s.sp < 16
    · have hdone := doCall_ok (s := s.entered) a hlt
      rw [exec, hdone]
      exact .push a ⟨s.sp, hlt⟩ rfl rfl rfl
    · have hfull : s.entered.Breaks s.entered.here (.call a) _ s.entered :=
        .call a (Nat.le_antisymm hsp (Nat.not_lt.mp hlt))
      rw [(exec_error_iff (s := s.entered) hsp).mpr hfull]
      exact .keep_none rfl rfl
  | ret =>
    by_cases hzero : s.sp = 0
    · have hempty : s.entered.Breaks s.entered.here .ret _ s.entered := .ret hzero
      rw [(exec_error_iff (s := s.entered) hsp).mpr hempty]
      exact .keep_none rfl rfl
    · have htop : s.entered.sp = s.sp - 1 + 1 := by
        show s.sp = s.sp - 1 + 1
        omega
      have hdone := doReturn_ok (s := s.entered) (k := ⟨s.sp - 1, by omega⟩) htop
      rw [exec, hdone]
      exact .pop ⟨s.sp - 1, by omega⟩ htop rfl rfl rfl
  | _ => exact exec_keep hsp _ roll (fun _ h => by cases h) (fun h => by cases h)

theorem step_stackMove {s : State} (h : s.WellFormed) (roll : UInt8) :
    s.StackMove (s.step roll).state (s.step roll).carried := by
  cases hm : s.mode with
  | running =>
    by_cases hpc : s.pc < 4095
    · rw [carried_fetched roll hm hpc, step_fetched roll hm hpc]
      exact exec_stackMove h.sp_le _ roll
    · rw [step_outside roll hm (Nat.not_lt.mp hpc)]
      exact .keep_none rfl rfl
  | awaitingKey =>
    cases hr : s.released with
    | none =>
      rw [step_waiting roll hm hr]
      exact .keep_none rfl rfl
    | some key =>
      obtain ⟨x, hx⟩ := h.waiting hm
      rw [step_answered roll hm hx hr]
      exact .keep_none rfl rfl

end State

namespace Machine

/-! ## runs -/

def carried (m : Machine) : Op → Option Instruction
  | .tick => (m.state.step m.dice.next).carried
  | _ => none

def history (m : Machine) : List Op → List Instruction
  | [] => []
  | o :: ops => (m.carried o).toList ++ (m.perform o).1.history ops

theorem history_cons (m : Machine) (o : Op) (ops : List Op) :
    m.history (o :: ops) = (m.carried o).toList ++ (m.perform o).1.history ops := rfl

theorem carried_of_ne (m : Machine) {o : Op} (h : o ≠ .tick) : m.carried o = none := by
  cases o with
  | tick => exact absurd rfl h
  | _ => rfl

theorem perform_stackMove {m : Machine} (h : m.state.WellFormed) (o : Op) :
    m.state.StackMove (m.perform o).1.state (m.carried o) := by
  by_cases htick : o = .tick
  · subst htick
    rw [perform, state_tick]
    exact State.step_stackMove h m.dice.next
  · rw [carried_of_ne m htick]
    by_cases hreload : o = .reload
    · subst hreload
      rw [perform, reload_wellFormed h]
      exact .keep_none rfl rfl
    · have hcontrol := control_perform htick hreload (m := m)
      exact .keep_none (congrArg Control.sp hcontrol) (congrArg Control.stack hcontrol)

theorem sp_run {m : Machine} (h : m.state.WellFormed) (ops : List Op) :
    (m.run ops).state.sp + (m.history ops).count .ret =
      m.state.sp + (m.history ops).countP Instruction.isCall := by
  induction ops generalizing m with
  | nil => rfl
  | cons o ops ih =>
    -- both counts are additive, so one operation and the rest can be added up
    have hfirst := (perform_stackMove h o).sp_eq
    have hrest := ih (perform_wellFormed h o)
    rw [run_cons, history_cons, List.count_append, List.countP_append]
    omega

theorem get_run {m : Machine} (h : m.state.WellFormed) {ops : List Op} {k : Fin 16}
    (hk : ∀ before, before <+: ops → k.val < (m.run before).state.sp) :
    (m.run ops).state.stack.get k = m.state.stack.get k := by
  induction ops generalizing m with
  | nil => rfl
  | cons o ops ih =>
    have hnow : k.val < m.state.sp := hk [] List.nil_prefix
    have hlater : ∀ before, before <+: ops → k.val < ((m.perform o).1.run before).state.sp := by
      intro before hbefore
      have hwhole := hk (o :: before) (List.cons_prefix_cons.mpr ⟨rfl, hbefore⟩)
      rwa [run_cons] at hwhole
    rw [run_cons, ih (perform_wellFormed h o) hlater, (perform_stackMove h o).get_eq hnow]

/-! ## calls and their returns -/

theorem perform_call {m : Machine} {a : Address}
    (hdue : m.due = some (.call a)) {k : Fin 16} (hk : m.state.sp = k) :
    (m.perform .tick).1.state.stack.get k = m.state.pc + 2 := by
  obtain ⟨hm, hpc, hi⟩ := due_eq_some.mp hdue
  have hlt : m.state.entered.sp < 16 := by
    show m.state.sp < 16
    omega
  rw [perform, state_tick, State.step_fetched _ hm hpc, hi, State.exec, State.doCall_ok a hlt]
  show (m.state.stack.set m.state.sp (m.state.pc + 2))[k.val] = m.state.pc + 2
  simp only [hk, Vector.getElem_set_self]

theorem perform_return {m : Machine} (hdue : m.due = some .ret)
    {k : Fin 16} (hk : m.state.sp = k + 1) :
    (m.perform .tick).1.state.pc = m.state.stack.get k ∧ (m.perform .tick).1.state.sp = k := by
  obtain ⟨hm, hpc, hi⟩ := due_eq_some.mp hdue
  have htop : m.state.entered.sp = k + 1 := hk
  rw [perform, state_tick, State.step_fetched _ hm hpc, hi, State.exec, State.doReturn_ok htop]
  exact ⟨rfl, rfl⟩

/-- over any run, the stack pointer is what it was plus the calls less the returns that were carried
out; an entry is unchanged as long as it is below the stack pointer; and a return goes back behind a
call, if all between them happened above the call's entry -/
theorem run_stack {m : Machine} (h : m.state.WellFormed) (ops : List Op) :
    ((m.run ops).state.sp + (m.history ops).count .ret =
      m.state.sp + (m.history ops).countP Instruction.isCall) ∧
    (∀ k : Fin 16, (∀ before, before <+: ops → k.val < (m.run before).state.sp) →
      (m.run ops).state.stack.get k = m.state.stack.get k) ∧
    ∀ a, m.due = some (.call a) → m.state.sp < 16 →
      (∀ before, before <+: ops → m.state.sp + 1 ≤ (m.run (.tick :: before)).state.sp) →
      (m.run (.tick :: ops)).due = some .ret →
      (m.run (.tick :: ops)).state.sp = m.state.sp + 1 →
      ((m.run (.tick :: ops)).perform .tick).1.state.pc = m.state.pc + 2 ∧
        ((m.run (.tick :: ops)).perform .tick).1.state.sp = m.state.sp := by
  refine ⟨sp_run h ops, fun k hk => get_run h hk, fun a hcall hlt habove hret hsp => ?_⟩
  let k : Fin 16 := ⟨m.state.sp, hlt⟩
  have hpushed : (m.perform .tick).1.state.stack.get k = m.state.pc + 2 :=
    perform_call hcall rfl
  have hkept : (m.run (.tick :: ops)).state.stack.get k = m.state.pc + 2 := by
    rw [run_cons, get_run (perform_wellFormed h .tick) habove]
    exact hpushed
  have hpopped := perform_return hret (k := k) hsp
  rwa [hkept] at hpopped

/-- a call at `0x200`, in which there is another one at `0x206`, and the two returns -/
def nested : Machine :=
  .ofState
    { State.fresh with
      ram := (((((Ram.zeros.set programStart 0x22 programStart_lt).set (programStart + 1) 0x06
        (by decide)).set 0x206 0x22).set 0x207 0x0A).set 0x209 0xEE).set 0x20B 0xEE }
    (.cycle #[]) false

/-- the outer return goes behind the outer call, whatever was called in between -/
theorem run_stack_nested :
    nested.state.WellFormed ∧ nested.due = some (.call 0x206) ∧
      (nested.run [.tick, .tick, .tick60, .snapshot, .tick]).due = some .ret ∧
      ((nested.run [.tick, .tick, .tick60, .snapshot, .tick]).perform .tick).1.state.pc = 0x202 ∧
      ((nested.run [.tick, .tick, .tick60, .snapshot, .tick]).perform .tick).1.state.sp = 0 := by
  have hw : nested.state.WellFormed := State.fresh_wellFormed.withRam _
  have hcall : nested.due = some (.call 0x206) := by decide +kernel
  have hret : (nested.run [.tick, .tick, .tick60, .snapshot, .tick]).due = some .ret := by
    decide +kernel
  have hsp : (nested.run [.tick, .tick, .tick60, .snapshot, .tick]).state.sp = 1 := by
    decide +kernel
  have habove : ∀ before, before <+: [Op.tick, .tick60, .snapshot, .tick] →
      nested.state.sp + 1 ≤ (nested.run (.tick :: before)).state.sp := by
    intro before hbefore
    rw [← List.mem_inits] at hbefore
    revert before
    decide +kernel
  have hlt : nested.state.sp < 16 := Nat.succ_pos 15
  obtain ⟨-, -, hback⟩ := run_stack hw [.tick, .tick60, .snapshot, .tick]
  exact ⟨hw, hcall, hret, hback 0x206 hcall hlt habove hret hsp⟩

end Machine

end ChipEight
