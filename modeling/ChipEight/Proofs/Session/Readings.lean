import ChipEight.Proofs.Session.World
import Mathlib.Algebra.Order.Ring.Rat
import Mathlib.Order.Monotone.Defs

/-!
# Sessions by any exact clock

Time may pass at any rate between two readings of a clock, but it never goes back.

* `Readings`            the times that a clock shows at its readings, and how many of them it was
  asked for;
* `Readings.next`, `last`   the time of the next reading, and of the last one;
* `Readings.Since c d`  `d` is the clock `c` after some more readings;
* `Measured`            sessions by such clocks;
* `Session.Ages s t`    all that happened to the clock and the cadences of `s` is that the clock was
  read some more times;
* `Ages.handle`, `.work`, `.advance`  so it is with all that the thread does.
-/

namespace ChipEight

structure Readings where
  shows : Nat → Rat
  shows_mono : Monotone shows
  taken : Nat

namespace Readings

variable {c d e : Readings}

def next (c : Readings) : Rat := c.shows c.taken

/-- the time of the last reading, or of the first if there was none yet -/
def last (c : Readings) : Rat := c.shows (c.taken - 1)

def step (c : Readings) : Readings := { c with taken := c.taken + 1 }

instance : Clock Readings Rat := ⟨fun c => (c.next, c.step)⟩

def Since (c d : Readings) : Prop := ∃ n, d = { c with taken := c.taken + n }

theorem Since.refl (c : Readings) : c.Since c := ⟨0, rfl⟩

theorem since_step (c : Readings) : c.Since c.step := ⟨1, rfl⟩

theorem Since.trans (h : c.Since d) (h' : d.Since e) : c.Since e := by
  obtain ⟨n, rfl⟩ := h
  obtain ⟨k, rfl⟩ := h'
  exact ⟨n + k, by rw [Nat.add_assoc]⟩

theorem Since.next_le (h : c.Since d) : c.next ≤ d.next := by
  obtain ⟨n, rfl⟩ := h
  exact c.shows_mono (Nat.le_add_right _ _)

theorem Since.last_le (h : c.Since d) : c.last ≤ d.last := by
  obtain ⟨n, rfl⟩ := h
  exact c.shows_mono (Nat.sub_le_sub_right (Nat.le_add_right _ _) 1)

end Readings

namespace Stopwatch

variable {w : Stopwatch Rat}

theorem startBy_of_standing (h : w.running = false) (c : Readings) :
    w.startBy c = (w.start c.next, c.step) := if_neg (ne_true_of_eq_false h)

theorem stopBy_of_running (h : w.running = true) (c : Readings) :
    w.stopBy c = (w.stop c.next, c.step) := if_pos h

theorem elapsedBy_of_running (h : w.running = true) (c : Readings) :
    w.elapsedBy c = (w.elapsed c.next, c.step) := if_pos h

theorem since_startBy (w : Stopwatch Rat) (c : Readings) : c.Since (w.startBy c).2 := by
  rcases w with ⟨_ | since, banked⟩
  · exact c.since_step
  · exact .refl c

theorem since_stopBy (w : Stopwatch Rat) (c : Readings) : c.Since (w.stopBy c).2 := by
  rcases w with ⟨_ | since, banked⟩
  · exact .refl c
  · exact c.since_step

theorem since_elapsedBy (w : Stopwatch Rat) (c : Readings) : c.Since (w.elapsedBy c).2 := by
  rcases w with ⟨_ | since, banked⟩
  · exact .refl c
  · exact c.since_step

end Stopwatch

/-! ## sessions -/

abbrev Measured := Session Readings Rat

namespace Session

structure Ages (s t : Measured) : Prop where
  clock : s.clock.Since t.clock
  tickInterval : t.tickInterval = s.tickInterval
  timerInterval : t.timerInterval = s.timerInterval

namespace Ages

variable {s t u : Measured}

theorem refl (s : Measured) : s.Ages s := ⟨.refl _, rfl, rfl⟩

theorem trans (h : s.Ages t) (h' : t.Ages u) : s.Ages u :=
  ⟨h.clock.trans h'.clock, h'.tickInterval.trans h.tickInterval,
    h'.timerInterval.trans h.timerInterval⟩

theorem of_eq (hc : t.clock = s.clock) (hi : t.tickInterval = s.tickInterval)
    (hj : t.timerInterval = s.timerInterval) : s.Ages t :=
  ⟨hc ▸ .refl _, hi, hj⟩

theorem readClock (s : Measured) : s.Ages s.readClock.2 := ⟨s.clock.since_step, rfl, rfl⟩

theorem elapsed (s : Measured) : s.Ages s.elapsed.2 := ⟨s.timer.since_elapsedBy s.clock, rfl, rfl⟩

theorem doPause (s : Measured) : s.Ages s.doPause := by
  unfold Session.doPause
  split
  · exact .refl s
  · exact ⟨s.timer.since_stopBy s.clock, rfl, rfl⟩

theorem doUnpause (s : Measured) : s.Ages s.doUnpause := by
  unfold Session.doUnpause
  split
  · exact ⟨s.timer.since_startBy s.clock, rfl, rfl⟩
  · exact .refl s

theorem doSave (s : Measured) (path : String) : s.Ages (s.doSave path).1 := by
  obtain ⟨files, log, e, hdone⟩ := s.doSave_eq path
  rw [hdone]
  exact .of_eq rfl rfl rfl

theorem doSnapshot (s : Measured) (n : Nat) : s.Ages (s.doSnapshot n).1 := by
  obtain ⟨tickets, e, hdone⟩ := s.doSnapshot_eq n
  rw [hdone]
  exact .of_eq rfl rfl rfl

theorem handle {x : Message} {e : Option Escape} (h : s.handle x = (t, e)) : s.Ages t := by
  obtain rfl : (s.handle x).1 = t := congrArg Prod.fst h
  cases x with
  | pause => exact doPause s
  | unpause => exact doUnpause s
  | save path => exact doSave s path
  | snapshot n => exact doSnapshot s n
  | _ => exact .of_eq rfl rfl rfl

theorem act {f : Console → Pipe Message → Showing} {r : Except Escape Bool}
    (h : s.act f = (t, r)) : s.Ages t := by
  cases h
  exact .of_eq rfl rfl rfl

theorem timerTick {r : Except Escape Bool} (h : s.timerTick = (t, r)) : s.Ages t := by
  unfold Session.timerTick at h
  rcases hact : s.act Console.tick60 with ⟨u, e | v⟩ <;> rw [hact] at h <;> cases h
  · exact .act hact
  · exact (Ages.act hact).trans ⟨u.clock.since_step, rfl, rfl⟩

theorem halt {e : Escape} {r : Except ChannelError Bool} (h : s.halt e = (t, r)) : s.Ages t := by
  unfold Session.halt at h
  dsimp only at h
  split at h <;> cases h <;> exact .of_eq rfl rfl rfl

theorem undergo (s : Measured) (a : Act) : s.Ages (s.undergo a).1 := by
  cases a with
  | tell x =>
    unfold Session.undergo
    dsimp only
    split <;> exact .of_eq rfl rfl rfl
  | ask t =>
    unfold Session.undergo
    dsimp only
    split <;> exact .of_eq rfl rfl rfl
  | _ => exact .of_eq rfl rfl rfl

theorem advance {st : Stage Rat} {a : Advance Readings Rat} (h : s.Advances st a) :
    s.Ages a.session := by
  cases h with
  | hears hq => exact ⟨s.clock.since_step, rfl, rfl⟩
  | hearsNothing hq => exact readClock s
  | obeys ht hr => exact .handle ht
  | quits ht hr => exact .handle ht
  | obeysNot ht => exact .handle ht
  | due hp hd => exact elapsed s
  | notDue hp hd => exact elapsed s
  | counts ht => exact .timerTick ht
  | countsNot ht => exact .timerTick ht
  | steps ht => exact .act ht
  | stepsNot ht => exact .act ht
  | halts ht => exact .halt ht
  | haltsUnheard ht => exact .halt ht
  | waits hi hl => exact readClock s
  | waited hi hl => exact readClock s
  | waitsNot hi => exact readClock s
  | _ => exact .of_eq rfl rfl rfl

end Ages

end Session

end ChipEight
