import ChipEight.Proofs.Session.Commands
import ChipEight.Proofs.Session.Readings

/-!
# The pace of the instructions

Two iterations that both execute an instruction begin at least the tick interval apart, whatever
lies between them.

* `World.openings w ms`  the readings of the clock with which the iterations begin that the moves
  lead to, the last one first;
* `Beats`                iterations by the time when they began and whether they execute an
  instruction;
* `Beats.Spaced i`       those that do are `i` apart;
* `Stage.InTime`         what is known of them in each stage;
* `World.Regular`        so it is after every move;
* `instructions_spaced`  so the instructions of every run are spaced.

The time since the beginning of an iteration is waited for only after an instruction. An iteration
that has none is followed at once by the next one, which therefore begins no earlier than the wait
before them allowed.
-/

namespace ChipEight

/-! ## which iterations execute an instruction -/

namespace History

/-- whether each of the iterations executed an instruction -/
def flags (h : History) : List Bool := h.iterations.map steps

theorem flags_begin {m : Mark} (hm : m ≠ .began) (hs : m.isStep = false) (h : History) :
    flags (m :: .began :: h) = false :: h.flags := by
  have hnone : steps [m] = false := by rw [steps, List.any_cons, hs, List.any_nil, Bool.false_or]
  rw [flags, iterations_begin hm, List.map_cons, hnone, flags]

theorem flags_cons {m : Mark} (hm : m ≠ .began) (hs : m.isStep = false) (h : History) :
    flags (m :: h) = h.flags := by
  rw [flags, flags, iterations_cons hm]
  cases h.iterations with
  | nil => rfl
  | cons i is =>
    rw [List.modifyHead_cons, List.map_cons, List.map_cons, steps, List.any_cons, hs,
      Bool.false_or]
    rfl

theorem flags_append {ms : History} (hms : ∀ m ∈ ms, m ≠ .began ∧ m.isStep = false) (h : History) :
    flags (ms ++ h) = h.flags := by
  induction ms with
  | nil => rfl
  | cons m ms ih =>
    obtain ⟨⟨hm, hs⟩, hrest⟩ := List.forall_mem_cons.mp hms
    rw [List.cons_append, flags_cons hm hs, ih hrest]

theorem flags_stepped (e : Option Escape) (h : History) :
    flags (.stepped e :: h) = h.flags.modifyHead fun _ => true := by
  have hm : Mark.stepped e ≠ .began := fun h => nomatch h
  rw [flags, flags, iterations_cons hm]
  cases h.iterations with
  | nil => rfl
  | cons i is => rfl

end History

/-! ## iterations in time -/

abbrev Beats := List (Rat × Bool)

namespace Beats

variable {i t u : Rat} {v : Bool} {zs : Beats}

def Spaced (i : Rat) (zs : Beats) : Prop :=
  zs.Pairwise fun later earlier => later.2 = true → earlier.2 = true → earlier.1 + i ≤ later.1

/-- from the time `t` on, another instruction keeps the distance -/
def Past (i t : Rat) (zs : Beats) : Prop := ∀ z ∈ zs, z.2 = true → z.1 + i ≤ t

/-- the last one began at `b`, no later than `now`, and keeps the distance if it executes an
instruction; `v` tells whether it has -/
structure Begun (i now b : Rat) (v : Bool) (zs : Beats) : Prop where
  split : ∃ rest : Beats, zs = (b, v) :: rest ∧ rest.Spaced i ∧ rest.Past i b
  le : b ≤ now

theorem Past.mono (h : Past i t zs) (htu : t ≤ u) : Past i u zs :=
  fun z hz hv => (h z hz hv).trans htu

namespace Begun

variable {now b : Rat}

theorem mono (h : Begun i t b v zs) (htu : t ≤ u) : Begun i u b v zs := ⟨h.split, h.le.trans htu⟩

theorem spaced (h : Begun i now b v zs) : Spaced i zs := by
  obtain ⟨⟨rest, rfl, hs, hp⟩, -⟩ := h
  exact List.pairwise_cons.mpr ⟨fun z hz _ hv => hp z hz hv, hs⟩

theorem past_idle (h : Begun i now b false zs) : Past i now zs := by
  obtain ⟨⟨rest, rfl, -, hp⟩, hle⟩ := h
  exact List.forall_mem_cons.mpr ⟨nofun, hp.mono hle⟩

theorem past_waited (h : Begun i now b v zs) (hb : b + i ≤ t) (ht : b ≤ t) : Past i t zs := by
  obtain ⟨⟨rest, rfl, -, hp⟩, -⟩ := h
  exact List.forall_mem_cons.mpr ⟨fun _ => hb, hp.mono ht⟩

end Begun

end Beats

def Stage.InTime (i now : Rat) (zs : Beats) : Stage Rat → Prop
  | .next => zs.Spaced i ∧ zs.Past i now
  | .asking b | .obeying b _ | .timing b | .counting b | .stepping b => zs.Begun i now b false
  | .waiting b => zs.Begun i now b true
  | _ => zs.Spaced i

namespace Stage.InTime

variable {i now later : Rat} {zs : Beats} {st : Stage Rat}

theorem mono (h : st.InTime i now zs) (hle : now ≤ later) : st.InTime i later zs := by
  cases st with
  | next => exact ⟨h.1, h.2.mono hle⟩
  | asking b => exact Beats.Begun.mono h hle
  | obeying b x => exact Beats.Begun.mono h hle
  | timing b => exact Beats.Begun.mono h hle
  | counting b => exact Beats.Begun.mono h hle
  | stepping b => exact Beats.Begun.mono h hle
  | waiting b => exact Beats.Begun.mono h hle
  | _ => exact h

theorem spaced (h : st.InTime i now zs) : zs.Spaced i := by
  cases st with
  | next => exact h.1
  | asking b => exact Beats.Begun.spaced h
  | obeying b x => exact Beats.Begun.spaced h
  | timing b => exact Beats.Begun.spaced h
  | counting b => exact Beats.Begun.spaced h
  | stepping b => exact Beats.Begun.spaced h
  | waiting b => exact Beats.Begun.spaced h
  | _ => exact h

end Stage.InTime

namespace World

section
variable {κ τ : Type} [Time τ] [Clock κ τ]

/-- the reading of the clock with which the move begins an iteration -/
def opening (w : World κ τ) : Move → List τ
  | .thread =>
    match w.stage with
    | .next => [w.session.readClock.1]
    | _ => []
  | .host _ => []

def openings (w : World κ τ) : List Move → List τ
  | [] => []
  | m :: ms => (w.move m).openings ms ++ w.opening m

end

structure Regular (i : Rat) (os : List Rat) (w : World Readings Rat) : Prop where
  interval : w.session.tickInterval = some i
  length : os.length = w.history.flags.length
  inTime : w.stage.InTime i w.session.clock.next (os.zip w.history.flags)

namespace Regular

variable {i : Rat} {os : List Rat} {s t : Measured} {st st' : Stage Rat} {h ms : History}

theorem pass (hw : Regular i os ⟨s, st, h⟩) (ht : s.Ages t)
    (hms : ∀ m ∈ ms, m ≠ .began ∧ m.isStep = false)
    (hst : ∀ zs, st.InTime i t.clock.next zs → st'.InTime i t.clock.next zs) :
    Regular i os ⟨t, st', ms ++ h⟩ := by
  have hflags : History.flags (ms ++ h) = h.flags := History.flags_append hms h
  refine ⟨ht.tickInterval.trans hw.interval, ?_, ?_⟩ <;> dsimp only <;> rw [hflags]
  · exact hw.length
  · exact hst _ (hw.inTime.mono ht.clock.next_le)

theorem begin (hw : Regular i os ⟨s, .next, h⟩) (ht : s.Ages t) {m : Mark} (hm : m ≠ .began)
    (hs : m.isStep = false)
    (hst : ∀ zs, Beats.Begun i t.clock.next s.clock.next false zs → st'.InTime i t.clock.next zs) :
    Regular i (s.clock.next :: os) ⟨t, st', m :: .began :: h⟩ := by
  have hflags : History.flags (m :: .began :: h) = false :: h.flags := History.flags_begin hm hs h
  refine ⟨ht.tickInterval.trans hw.interval, ?_, ?_⟩ <;> dsimp only <;> rw [hflags]
  · exact congrArg Nat.succ hw.length
  · exact hst _ ⟨⟨_, rfl, hw.inTime.1, hw.inTime.2⟩, ht.clock.next_le⟩

theorem step {b : Rat} (hw : Regular i os ⟨s, .stepping b, h⟩) (ht : s.Ages t)
    (e : Option Escape)
    (hst : ∀ zs, Beats.Begun i t.clock.next b true zs → st'.InTime i t.clock.next zs) :
    Regular i os ⟨t, st', .stepped e :: h⟩ := by
  obtain ⟨hinterval, hlength, (hbegun : Beats.Begun ..)⟩ := hw
  have hflags : History.flags (.stepped e :: h) = h.flags.modifyHead fun _ => true :=
    History.flags_stepped e h
  refine ⟨ht.tickInterval.trans hinterval, ?_, ?_⟩ <;> dsimp only <;> rw [hflags]
  · rw [List.length_modifyHead]
    exact hlength
  · refine hst _ ?_
    obtain ⟨⟨rest, hzip, hs, hp⟩, hle⟩ := hbegun.mono ht.clock.next_le
    refine ⟨⟨rest, ?_, hs, hp⟩, hle⟩
    dsimp only at hzip
    rcases os with _ | ⟨o, os⟩
    · cases hzip
    · rcases hf : h.flags with _ | ⟨v, vs⟩ <;> rw [hf] at hzip
      · cases hzip
      · cases hzip
        rfl

theorem thread {w : World Readings Rat} (hw : w.Regular i os) {a : Advance Readings Rat}
    (ha : w.session.Advances w.stage a) :
    Regular i (w.opening .thread ++ os) ⟨a.session, a.stage, a.marks ++ w.history⟩ := by
  have hage := Session.Ages.advance ha
  have nil : ∀ m ∈ ([] : History), m ≠ .began ∧ m.isStep = false := List.forall_mem_nil _
  have single {m : Mark} (hm : m ≠ .began) (hs : m.isStep = false) :
      ∀ m' ∈ [m], m' ≠ .began ∧ m'.isStep = false :=
    List.forall_mem_singleton.mpr ⟨hm, hs⟩
  obtain ⟨s, st, (h : History)⟩ := w
  cases ha with
  | hears hq => exact hw.begin hage nofun rfl fun _ hb => hb
  | hearsNothing hq => exact hw.begin hage nofun rfl fun _ hb => hb
  | goesOn hc => exact hw.pass hage nil fun _ hb => hb
  | disconnects hc => exact hw.pass hage (single nofun rfl) fun _ hb => Beats.Begun.spaced hb
  | obeys hx hr => exact hw.pass hage (single nofun rfl) fun _ hb => hb
  | quits hx hr => exact hw.pass hage (single nofun rfl) fun _ hb => Beats.Begun.spaced hb
  | obeysNot hx => exact hw.pass hage (single nofun rfl) fun _ hb => Beats.Begun.spaced hb
  | rests hp => exact hw.pass hage nil fun _ hb => ⟨Beats.Begun.spaced hb, hb.past_idle⟩
  | due hp hd => exact hw.pass hage nil fun _ hb => hb
  | notDue hp hd => exact hw.pass hage nil fun _ hb => hb
  | counts hs => exact hw.pass hage (single nofun rfl) fun _ hb => hb
  | countsNot hs => exact hw.pass hage (single nofun rfl) fun _ hb => Beats.Begun.spaced hb
  | steps hs => exact hw.step hage none fun _ hb => hb
  | stepsNot hs => exact hw.step hage _ fun _ hb => hb.spaced
  | halts hs => exact hw.pass hage nil fun _ hz => hz
  | haltsUnheard hs => exact hw.pass hage nil fun _ hz => hz
  | waits hi hl => exact hw.pass hage nil fun _ hb => hb
  | @waited b j hi hl =>
    obtain rfl : j = i := Option.some.inj (hi.symm.trans hw.interval)
    have hlong : ¬ s.clock.next - b < j := of_decide_eq_false hl
    have hb : b ≤ s.clock.next := hw.inTime.le
    refine hw.pass hage nil fun _ hb => ⟨Beats.Begun.spaced hb, hb.past_waited ?_ hb.le⟩
    exact (le_sub_iff_add_le'.mp (not_lt.mp hlong)).trans hage.clock.next_le
  | waitsNot hi => exact nomatch hi.symm.trans hw.interval
  | drops => exact hw.pass hage (single nofun rfl) fun _ hz => hz
  | closes => exact hw.pass hage nil fun _ hz => hz
  | stays => exact hw.pass hage nil fun _ hz => hz

theorem host {w : World Readings Rat} (hw : w.Regular i os) (a : Act) :
    Regular i (w.opening (.host a) ++ os) (w.move (.host a)) := by
  refine hw.pass (.undergo _ a) (fun m hm => ?_) fun _ hz => hz
  have htrails : m.trails = true := Mark.trails_of_isHost ((w.session.hosted a).marks m hm)
  refine ⟨?_, Mark.isStep_of_trails htrails⟩
  rintro rfl
  cases htrails

end Regular

/-- the moves lead from iterations in time to iterations in time -/
theorem regular_run {i : Rat} {os : List Rat} {w : World Readings Rat} (hw : w.Regular i os)
    (ms : List Move) : Regular i (w.openings ms ++ os) (w.run ms) := by
  induction ms generalizing w os with
  | nil => exact hw
  | cons m ms ih =>
    have hmove : Regular i (w.opening m ++ os) (w.move m) := by
      cases m with
      | thread => exact hw.thread (w.session.advances w.stage)
      | host a => exact hw.host a
    rw [run_cons, openings, List.append_assoc]
    exact ih hmove

/-- the iterations of a run, of which there are as many as readings of the clock that begin one:
any two that execute an instruction begin at least the tick interval apart, whatever the host does,
however often the session is paused, and however the clock goes -/
theorem instructions_spaced (c : Console) (clock : Readings) (i timerInterval : Rat)
    (files : Files) (ms : List Move) :
    let w := start c clock (some i) timerInterval files
    let is := (w.run ms).history.iterations
    (w.openings ms).length = is.length ∧
      ((w.openings ms).zip (is.map History.steps)).Pairwise fun later earlier =>
        later.2 = true → earlier.2 = true → earlier.1 + i ≤ later.1 := by
  intro w is
  have hstart : w.Regular i [] := ⟨rfl, rfl, .nil, List.forall_mem_nil _⟩
  have hrun := regular_run hstart ms
  rw [List.append_nil] at hrun
  exact ⟨hrun.length.trans (List.length_map _), hrun.inTime.spaced⟩

end World

end ChipEight
