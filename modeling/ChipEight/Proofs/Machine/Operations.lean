import ChipEight.Proofs.SaveState.RoundTrip

/-!
# Operations of a machine, one after another

* `Op`, `Answer`         what a host does to a machine, and what it gets back;
* `Op.loads`             the operation puts a program in memory;
* `Machine.perform`      one operation;
* `run`, `answers`       many of them, in any order: the machine at the end, and all answers;
* `Started`              machines that are fresh or restored from a saved state;
* `run_invariant`        what every operation preserves, a run preserves;
* `mem_answers`          an answer belongs to one operation, after those before it;
* `run_wellFormed`       no operation leaves the bounds of a well-formed machine.

A fault of a tick is an answer like any other: the operations after it go on from the state that it
left.
-/

namespace ChipEight

inductive Op where
  | load (image : List UInt8)
  | tick
  | tick60
  | press (n : Int)
  | lift (n : Int)
  | release (k : Key)
  | takeReleased
  | pause
  | unpause
  | snapshot
  /-- the machine is saved, and goes on as the one restored from that -/
  | reload

def Op.loads : Op → Bool
  | .load _ => true
  | _ => false

inductive Answer where
  | done
  | loaded (size : Nat)
  | ticked (result : Except Fault Bool)
  | key (k : Option Key)
  | saved (bytes : Except PackError (List UInt8))
  | reloaded (ok : Bool)

namespace Machine

def reload (m : Machine) : Option Machine :=
  m.snapshot.toOption.bind fun bytes => (Machine.restore bytes m.dice m.tracing).toOption

def perform (m : Machine) : Op → Machine × Answer
  | .load image => (m.load image, .loaded (Ram.loaded image))
  | .tick => (m.tick.machine, .ticked m.tick.result)
  | .tick60 => (m.tick60, .done)
  | .press n => (m.press n, .done)
  | .lift n => (m.lift n, .done)
  | .release k => (m.release k, .done)
  | .takeReleased => (m.takeReleased.2, .key m.takeReleased.1)
  | .pause => (m.pause, .done)
  | .unpause => (m.unpause, .done)
  | .snapshot => (m, .saved m.snapshot)
  | .reload => (m.reload.getD m, .reloaded m.reload.isSome)

def run (m : Machine) (ops : List Op) : Machine := ops.foldl (fun m o => (m.perform o).1) m

def answers (m : Machine) : List Op → List Answer
  | [] => []
  | o :: ops => (m.perform o).2 :: answers (m.perform o).1 ops

inductive Started : Machine → Prop where
  | fresh (dice : Dice) (tracing : Bool) : Started (.fresh dice tracing)
  | restored {bytes : List UInt8} {dice : Dice} {tracing : Bool} {m : Machine}
      (h : Machine.restore bytes dice tracing = .ok m) : Started m

/-! ## runs -/

theorem run_cons (m : Machine) (o : Op) (ops : List Op) :
    m.run (o :: ops) = (m.perform o).1.run ops := rfl

theorem run_append (m : Machine) (a b : List Op) : m.run (a ++ b) = (m.run a).run b :=
  List.foldl_append

theorem run_invariant {P : Machine → Prop} (hstep : ∀ m o, P m → P (m.perform o).1)
    {m : Machine} (hm : P m) (ops : List Op) : P (m.run ops) := by
  induction ops generalizing m with
  | nil => exact hm
  | cons o ops ih =>
    rw [run_cons]
    exact ih (hstep m o hm)

theorem mem_answers {m : Machine} {ops : List Op} {a : Answer} (h : a ∈ m.answers ops) :
    ∃ before o after, ops = before ++ o :: after ∧ a = ((m.run before).perform o).2 := by
  induction ops generalizing m with
  | nil => cases h
  | cons o ops ih =>
    rcases List.mem_cons.mp h with rfl | htail
    · exact ⟨[], o, ops, rfl, rfl⟩
    · obtain ⟨before, o', after, rfl, rfl⟩ := ih htail
      exact ⟨o :: before, o', after, rfl, rfl⟩

/-! ## ticks -/

theorem state_tick (m : Machine) : m.tick.machine.state = (m.state.step m.dice.next).state := by
  unfold tick
  dsimp only
  split <;> rfl

theorem result_tick (m : Machine) : m.tick.result = (m.state.step m.dice.next).result := by
  unfold tick
  dsimp only
  split <;> rfl

/-! ## bounds -/

theorem reload_wellFormed {m : Machine} (h : m.state.WellFormed) :
    m.reload = some (.ofState m.state m.dice m.tracing) := by
  have hsaved : m.snapshot = .ok m.state.image := State.encode_wellFormed h
  have hback := restore_of_decode (State.decode_image h) m.dice m.tracing
  rw [reload, hsaved]
  show (Machine.restore m.state.image m.dice m.tracing).toOption = _
  rw [hback]
  rfl

theorem state_load (m : Machine) (image : List UInt8) :
    (m.load image).state = { m.state with ram := m.state.ram.load image } := rfl

-- for any memory, so that a loaded program is not computed to see that nothing else changed
theorem control_withRam (s : State) (ram : Ram) : State.control { s with ram } = s.control := rfl

theorem control_load (m : Machine) (image : List UInt8) :
    (m.load image).state.control = m.state.control := by
  rw [state_load, control_withRam]

theorem control_perform {m : Machine} {o : Op} (htick : o ≠ .tick) (hreload : o ≠ .reload) :
    (m.perform o).1.state.control = m.state.control := by
  cases o with
  | tick => exact absurd rfl htick
  | reload => exact absurd rfl hreload
  | release k =>
    rw [perform, release]
    split <;> simp only [mapState, State.control]
  | load image => exact control_load m image
  | _ =>
    simp only [perform, tick60, press, lift, takeReleased, pause, unpause, mapState,
      State.tick60, State.control]

theorem perform_wellFormed {m : Machine} (h : m.state.WellFormed) (o : Op) :
    (m.perform o).1.state.WellFormed := by
  by_cases htick : o = .tick
  · subst htick
    rw [perform, state_tick]
    exact State.step_wellFormed h m.dice.next
  · by_cases hreload : o = .reload
    · subst hreload
      rw [perform, reload_wellFormed h]
      exact h
    · rw [State.WellFormed, control_perform htick hreload]
      exact h

theorem run_wellFormed {m : Machine} (h : m.state.WellFormed) (ops : List Op) :
    (m.run ops).state.WellFormed :=
  run_invariant (P := fun m => m.state.WellFormed) (fun _ o hm => perform_wellFormed hm o) h ops

theorem Started.wellFormed {m : Machine} (h : m.Started) : m.state.WellFormed := by
  cases h with
  | fresh dice tracing => exact State.fresh_wellFormed
  | restored hr =>
    obtain ⟨s, hd, rfl⟩ := restore_ok hr
    exact State.decode_wellFormed hd

end Machine

end ChipEight
