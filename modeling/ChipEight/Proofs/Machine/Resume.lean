import ChipEight.Proofs.Machine.Operations

/-!
# Machines that go on from a saved state

A saved state holds all that a machine's future depends on: its bytes leave out the trace, which is
only ever written, and a pause.

* `Machine.withTrace m t`    the machine with another trace;
* `tick_withTrace`           a tick does the same in it, and adds the same lines;
* `Machine.lines`            the lines that a run adds to the trace;
* `perform_withTrace`        so does every operation;
* `run_withTrace`            so do many of them: nothing that is handed back tells the two apart;
* `trace_run`                what becomes of any trace, as long as the machine is not restored anew;
* `Machine.resume_alike`     a machine and the one restored from it cannot be told apart.
-/

namespace ChipEight.Machine

def withTrace (m : Machine) (t : Trace) : Machine := { m with trace := t }

/-- the lines that an operation adds to a trace -/
def added (m : Machine) : Op → List String
  | .tick =>
    if m.tracing then ((m.state.step m.dice.next).fetched.map Fetched.line).toList else []
  | _ => []

def lines (m : Machine) : List Op → List String
  | [] => []
  | o :: ops => m.added o ++ (m.perform o).1.lines ops

theorem lines_cons (m : Machine) (o : Op) (ops : List Op) :
    m.lines (o :: ops) = m.added o ++ (m.perform o).1.lines ops := rfl

theorem answers_cons (m : Machine) (o : Op) (ops : List Op) :
    m.answers (o :: ops) = (m.perform o).2 :: (m.perform o).1.answers ops := rfl

/-! ## one operation -/

theorem tick_withTrace (m : Machine) (t : Trace) :
    (m.withTrace t).tick =
      { m.tick with machine := m.tick.machine.withTrace ((m.added .tick).foldl Trace.push t) } := by
  unfold tick added withTrace
  dsimp only
  cases hf : (m.state.step m.dice.next).fetched with
  | none => simp
  | some f => cases ht : m.tracing <;> simp [note, ht]

theorem reload_withTrace (m : Machine) (t : Trace) : (m.withTrace t).reload = m.reload := rfl

theorem perform_withTrace {o : Op} (h : o ≠ .reload) (m : Machine) (t : Trace) :
    (m.withTrace t).perform o =
      ((m.perform o).1.withTrace ((m.added o).foldl Trace.push t), (m.perform o).2) := by
  cases o with
  | tick => rw [perform, perform, tick_withTrace]
  | reload => exact absurd rfl h
  | release k =>
    show ((m.withTrace t).release k, _) = _
    unfold release
    cases hp : m.paused with
    | false => simp [withTrace, perform, release, mapState, added, hp]
    | true => simp [withTrace, perform, release, added, hp]
  | _ => rfl

theorem perform_alike (m : Machine) (t : Trace) (o : Op) :
    ∃ t', (m.withTrace t).perform o = ((m.perform o).1.withTrace t', (m.perform o).2) := by
  by_cases hreload : o = .reload
  · subst hreload
    rw [perform, perform, reload_withTrace]
    cases m.reload with
    | none => exact ⟨t, rfl⟩
    | some r => exact ⟨r.trace, rfl⟩
  · exact ⟨_, perform_withTrace hreload m t⟩

/-! ## runs -/

theorem run_alike (m : Machine) (t : Trace) (ops : List Op) :
    (m.withTrace t).answers ops = m.answers ops ∧
      ∃ t', (m.withTrace t).run ops = (m.run ops).withTrace t' := by
  induction ops generalizing m t with
  | nil => exact ⟨rfl, t, rfl⟩
  | cons o ops ih =>
    obtain ⟨t', hfirst⟩ := perform_alike m t o
    obtain ⟨hanswers, hrun⟩ := ih (m.perform o).1 t'
    rw [answers_cons, answers_cons, run_cons, run_cons, hfirst, hanswers]
    exact ⟨rfl, hrun⟩

theorem run_withTrace {ops : List Op} (h : .reload ∉ ops) (m : Machine) (t : Trace) :
    (m.withTrace t).run ops = (m.run ops).withTrace ((m.lines ops).foldl Trace.push t) := by
  induction ops generalizing m t with
  | nil => rfl
  | cons o ops ih =>
    have ho : o ≠ .reload := fun heq => h (heq ▸ List.mem_cons_self ..)
    have hops : .reload ∉ ops := fun hmem => h (List.mem_cons_of_mem _ hmem)
    rw [run_cons, perform_withTrace ho, ih hops, lines_cons, List.foldl_append]
    rfl

theorem trace_run {ops : List Op} (h : .reload ∉ ops) (m : Machine) (t : Trace) :
    ((m.withTrace t).run ops).trace = (m.lines ops).foldl Trace.push t := by
  rw [run_withTrace h]
  rfl

/-! ## saved and restored -/

/-- a machine that was restored is the one that was saved, but for the trace -/
theorem restore_snapshot {m : Machine} (h : m.state.WellFormed) (hp : m.paused = false) :
    m.snapshot = .ok m.state.image ∧
      Machine.restore m.state.image m.dice m.tracing = .ok (m.withTrace []) := by
  refine ⟨State.encode_wellFormed h, ?_⟩
  rw [restore_of_decode (State.decode_image h), ofState, withTrace, hp]

/-- an unpaused machine, and the one restored from what was saved of it, with the same random bytes:
whatever is done to both hands back the same answers, leaves the same state, pause and dice, logs
the same and saves the same; and both get the same lines of a trace -/
theorem resume_alike {m : Machine} (h : m.state.WellFormed) (hp : m.paused = false) :
    ∃ bytes r, m.snapshot = .ok bytes ∧ Machine.restore bytes m.dice m.tracing = .ok r ∧
      ∀ ops,
        r.answers ops = m.answers ops ∧
        (r.run ops).state = (m.run ops).state ∧
        (r.run ops).paused = (m.run ops).paused ∧
        (r.run ops).dice = (m.run ops).dice ∧
        (r.run ops).tick.log = (m.run ops).tick.log ∧
        (r.run ops).snapshot = (m.run ops).snapshot ∧
        (.reload ∉ ops → ∃ lines : List String,
          (m.run ops).trace = lines.foldl Trace.push m.trace ∧
          (r.run ops).trace = lines.foldl Trace.push []) := by
  obtain ⟨hsave, hrestore⟩ := restore_snapshot h hp
  refine ⟨m.state.image, m.withTrace [], hsave, hrestore, fun ops => ?_⟩
  obtain ⟨hanswers, t, hrun⟩ := run_alike m [] ops
  have hlog : ((m.run ops).withTrace t).tick.log = (m.run ops).tick.log := by
    rw [tick_withTrace]
  rw [hrun]
  refine ⟨hanswers, rfl, rfl, rfl, hlog, rfl, fun hops => ⟨m.lines ops, ?_, ?_⟩⟩
  · exact trace_run hops m m.trace
  · rw [← hrun]
    exact trace_run hops m []

/-- a traced machine in which register 3 waits, with key 9 pending -/
theorem resume_alike_waiting :
    State.WellFormed { State.fresh.waitFor 3 with released := some 9 } ∧
      ∃ bytes r,
        (Machine.mk { State.fresh.waitFor 3 with released := some 9 } (.cycle #[0x5A]) false true
          ["before"]).snapshot = .ok bytes ∧
        Machine.restore bytes (.cycle #[0x5A]) true = .ok r ∧
        r.answers [.tick, .tick60, .tick, .snapshot] =
          (Machine.mk { State.fresh.waitFor 3 with released := some 9 } (.cycle #[0x5A]) false true
            ["before"]).answers [.tick, .tick60, .tick, .snapshot] := by
  have hw : State.WellFormed { State.fresh.waitFor 3 with released := some 9 } :=
    State.fresh_wellFormed.waitFor 3
  obtain ⟨bytes, r, hsave, hrestore, hsame⟩ :=
    resume_alike (m := ⟨_, .cycle #[0x5A], false, true, ["before"]⟩) hw rfl
  exact ⟨hw, bytes, r, hsave, hrestore, (hsame _).1⟩

end ChipEight.Machine
