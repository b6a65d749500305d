import ChipEight.Proofs.Session.Rounds

/-!
# Delayed sessions

Two sessions may do the same at different times. If the second is later by `d` in every round, and
so is its timer, then no round tells the two apart.

* `Tickets.Agree ts us xs`  the tickets of the requests among `xs` are the same;
* `Session.Delayed d a b`   `b` does later by `d` what `a` does; their files, their logs and the
  tickets that nobody asks for any more may differ;
* `Session.Alike d x y`     what an operation gave on both sides: the same, and delayed sessions;
* `Delayed.work`, `.handle`, `.iterate`   parts of an iteration, and a whole one;
* `Delayed.rounds`          many rounds.
-/

namespace ChipEight

/-! ## tickets -/

namespace Tickets

variable {ts us : Tickets} {n k : Nat} {xs : List Message}

theorem get?_set_ne (h : k ≠ n) (ts : Tickets) (t : Ticket) :
    (ts.set n t).get? k = ts.get? k := by
  rw [get?, set, List.lookup_cons, beq_false_of_ne h]
  induction ts with
  | nil => rfl
  | cons p ts ih =>
    obtain ⟨i, u⟩ := p
    rw [get?, List.lookup_cons, List.filter_cons]
    by_cases hi : i = n
    · have hki : k ≠ i := fun hk => h (hk.trans hi)
      simp only [hi, bne_self_eq_false, Bool.false_eq_true, if_false, beq_false_of_ne h]
      exact ih
    · simp only [bne_iff_ne, ne_eq, hi, not_false_eq_true, if_true, List.lookup_cons]
      cases k == i
      · exact ih
      · rfl

theorem get?_cancel_ne (h : k ≠ n) (ts : Tickets) : (ts.cancel n).get? k = ts.get? k := by
  unfold cancel
  split
  · exact get?_set_ne h ts _
  · rfl

def Agree (ts us : Tickets) (xs : List Message) : Prop :=
  ∀ n, .snapshot n ∈ xs → us.get? n = ts.get? n

theorem get?_set_congr (h : us.get? k = ts.get? k) (n : Nat) (t : Ticket) :
    (us.set n t).get? k = (ts.set n t).get? k := by
  by_cases hk : k = n
  · rw [hk, get?_set, get?_set]
  · rw [get?_set_ne hk, get?_set_ne hk, h]

theorem get?_cancel_congr (h : us.get? k = ts.get? k) (n : Nat) :
    (us.cancel n).get? k = (ts.cancel n).get? k := by
  by_cases hk : k = n
  · subst hk
    unfold cancel
    rw [h]
    split
    · rw [get?_set, get?_set]
    · exact h
  · rw [get?_cancel_ne hk, get?_cancel_ne hk, h]

theorem Agree.withMail (h : ts.Agree us xs) (t : Ticket) (x : Message) :
    (ts.withMail t x).Agree (us.withMail t x) (xs ++ [x]) := by
  intro n hn
  rcases List.mem_append.mp hn with hold | hnew
  · cases x with
    | snapshot k => exact get?_set_congr (h n hold) k t
    | _ => exact h n hold
  · cases List.mem_singleton.mp hnew
    exact (get?_set us n t).trans (get?_set ts n t).symm

end Tickets

namespace Session

variable {d : Rat} {a b : Timed}

structure Delayed (d : Rat) (a b : Timed) : Prop where
  console : b.console = a.console
  link : b.link = a.link
  timerInterval : b.timerInterval = a.timerInterval
  running : b.running = a.running
  fault : b.fault = a.fault
  timer : a.timer.Delayed d b.timer
  clock : ∃ t, a.clock = Ticker.standing t ∧ b.clock = Ticker.standing (t + d)
  tickets : a.tickets.Agree b.tickets a.link.toSession.queue
  logs : a.LogsAll ∧ b.LogsAll

structure Alike {ρ : Type} (d : Rat) (x y : Timed × ρ) : Prop where
  session : Delayed d x.1 y.1
  result : y.2 = x.2

theorem Alike.exists {ρ : Type} {r : ρ} {y : Timed × ρ} (h : Alike d (a, r) y) :
    ∃ b, y = (b, r) ∧ Delayed d a b :=
  ⟨y.1, Prod.ext rfl h.result, h.session⟩

namespace Delayed

theorem paused (h : Delayed d a b) : b.paused = a.paused :=
  congrArg (fun c : Console => c.machine.paused) h.console

theorem machine (h : Delayed d a b) : b.machine = a.machine := congrArg Console.machine h.console

/-! ## operations -/

theorem mapMachine (h : Delayed d a b) (f : Machine → Machine) :
    Delayed d (a.mapMachine f) (b.mapMachine f) :=
  { h with console := congrArg (·.mapMachine f) h.console }

theorem absorb (h : Delayed d a b) (r : Showing) : Delayed d (a.absorb r) (b.absorb r) :=
  { h with
    console := rfl
    link := congrArg (fun l : Link Message => l.setOutbound .session r.outbox) h.link }

theorem act (h : Delayed d a b) (f : Console → Pipe Message → Showing) :
    Alike d (a.act f) (b.act f) := by
  have hshown :
      f b.console (b.link.outbound .session) = f a.console (a.link.outbound .session) := by
    rw [h.console, h.link]
  unfold Session.act
  rw [hshown]
  exact ⟨h.absorb _, rfl⟩

theorem halt (h : Delayed d a b) (e : Escape) : Alike d (a.halt e) (b.halt e) := by
  unfold Session.halt say
  dsimp only
  rw [h.link]
  cases hs : a.link.send .session (.fault e.toFault) with
  | ok link =>
    cases Link.eq_of_send hs
    exact ⟨{ h with link := rfl, running := rfl, fault := rfl }, rfl⟩
  | error x => exact ⟨{ h with link := rfl, running := rfl, fault := rfl }, rfl⟩

/-! ## the parts of an iteration -/

theorem elapsed (h : Delayed d a b) :
    b.elapsed.1 = a.elapsed.1 ∧ Delayed d a.elapsed.2 b.elapsed.2 := by
  obtain ⟨t, ha, hb⟩ := h.clock
  unfold Session.elapsed
  rw [ha, hb, Stopwatch.elapsedBy_standing, Stopwatch.elapsedBy_standing]
  exact ⟨h.timer.elapsed t, { h with clock := ⟨t, rfl, rfl⟩ }⟩

theorem restartTimer (h : Delayed d a b) :
    Delayed d
      { a with
        timer := (a.timer.restartBy a.clock).1
        clock := (a.timer.restartBy a.clock).2 }
      { b with
        timer := (b.timer.restartBy b.clock).1
        clock := (b.timer.restartBy b.clock).2 } := by
  obtain ⟨t, ha, hb⟩ := h.clock
  rw [ha, hb, Stopwatch.restartBy_standing, Stopwatch.restartBy_standing]
  exact { h with timer := .restart _ _ t, clock := ⟨t, rfl, rfl⟩ }

theorem timerTick (h : Delayed d a b) : Alike d a.timerTick b.timerTick := by
  have hacted := h.act Console.tick60
  unfold Session.timerTick
  rcases ha : a.act Console.tick60 with ⟨a', e | x⟩
  · rw [ha] at hacted
    obtain ⟨b', hb, h'⟩ := hacted.exists
    rw [hb]
    exact ⟨h', rfl⟩
  · rw [ha] at hacted
    obtain ⟨b', hb, h'⟩ := hacted.exists
    rw [hb]
    exact ⟨h'.restartTimer, rfl⟩

theorem timerTickIfDue (h : Delayed d a b) : Alike d a.timerTickIfDue b.timerTickIfDue := by
  obtain ⟨htime, hread⟩ := h.elapsed
  unfold Session.timerTickIfDue
  dsimp only
  rw [htime, hread.timerInterval]
  split
  · exact hread.timerTick
  · exact ⟨hread, rfl⟩

theorem work (h : Delayed d a b) : Alike d a.work b.work := by
  have hdue := h.timerTickIfDue
  have hworks := a.works
  generalize a.work = r at hworks ⊢
  cases hworks with
  | paused hp =>
    rw [work_paused (h.paused.trans hp)]
    exact ⟨h, rfl⟩
  | untimed hp ht =>
    rw [ht] at hdue
    obtain ⟨t', ht', h'⟩ := hdue.exists
    rw [work_untimed (h.paused.trans hp) ht']
    exact h'.halt _
  | halted hp ht hu =>
    rw [ht] at hdue
    obtain ⟨t', ht', h'⟩ := hdue.exists
    have hticked := h'.act Console.tick
    rw [hu] at hticked
    obtain ⟨u', hu', h''⟩ := hticked.exists
    rw [work_halted (h.paused.trans hp) ht' hu']
    exact h''.halt _
  | done hp ht hu =>
    rw [ht] at hdue
    obtain ⟨t', ht', h'⟩ := hdue.exists
    have hticked := h'.act Console.tick
    rw [hu] at hticked
    obtain ⟨u', hu', h''⟩ := hticked.exists
    rw [work_done (h.paused.trans hp) ht' hu']
    exact ⟨h'', rfl⟩

/-! ## messages -/

theorem pauseTimer (h : Delayed d a b) : Delayed d a.pauseTimer b.pauseTimer := by
  obtain ⟨t, ha, hb⟩ := h.clock
  unfold Session.pauseTimer
  rw [ha, hb, Stopwatch.stopBy_standing, Stopwatch.stopBy_standing]
  exact { h with timer := h.timer.stop t, clock := ⟨t, rfl, rfl⟩ }

theorem resumeTimer (h : Delayed d a b) : Delayed d a.resumeTimer b.resumeTimer := by
  obtain ⟨t, ha, hb⟩ := h.clock
  unfold Session.resumeTimer
  rw [ha, hb, Stopwatch.startBy_standing, Stopwatch.startBy_standing]
  exact { h with timer := h.timer.start t, clock := ⟨t, rfl, rfl⟩ }

theorem doPause (h : Delayed d a b) : Delayed d a.doPause b.doPause := by
  unfold Session.doPause
  rw [h.paused]
  split
  · exact h
  · exact (h.mapMachine Machine.pause).pauseTimer

theorem doUnpause (h : Delayed d a b) : Delayed d a.doUnpause b.doUnpause := by
  unfold Session.doUnpause
  rw [h.paused]
  split
  · exact (h.mapMachine Machine.unpause).resumeTimer
  · exact h

/-- what the file systems make of it may differ -/
theorem doSave (h : Delayed d a b) (path : String) : Alike d (a.doSave path) (b.doSave path) := by
  cases ha : a.machine.state.encode with
  | error e =>
    have hb : b.machine.state.encode = .error e := h.machine ▸ ha
    rw [doSave_error ha, doSave_error hb]
    exact ⟨h, rfl⟩
  | ok bytes =>
    have hb : b.machine.state.encode = .ok bytes := h.machine ▸ ha
    obtain ⟨files, log, ha'⟩ := doSave_ok (h.logs.1.logs path) ha
    obtain ⟨files', log', hb'⟩ := doSave_ok (h.logs.2.logs path) hb
    rw [ha', hb']
    exact ⟨{ h with console := h.console }, rfl⟩

theorem setTicket (h : Delayed d a b) (n : Nat) (t : Ticket) :
    Delayed d (a.setTicket n t) (b.setTicket n t) :=
  { h with tickets := fun k hk => Tickets.get?_set_congr (h.tickets k hk) n t }

theorem doSnapshot (h : Delayed d a b) {n : Nat} (hn : b.tickets.get? n = a.tickets.get? n) :
    Alike d (a.doSnapshot n) (b.doSnapshot n) := by
  unfold Session.doSnapshot
  rw [hn, h.machine]
  split
  · split
    · exact ⟨h.setTicket n _, rfl⟩
    · exact ⟨h.setTicket n _, rfl⟩
  · exact ⟨h.setTicket n _, rfl⟩
  · exact ⟨h, rfl⟩

theorem handle (h : Delayed d a b) (x : Message) (hx : a.tickets.Agree b.tickets [x]) :
    Alike d (a.handle x) (b.handle x) := by
  cases x with
  | shutdown => exact ⟨{ h with running := rfl }, rfl⟩
  | pause => exact ⟨h.doPause, rfl⟩
  | unpause => exact ⟨h.doUnpause, rfl⟩
  | keyReleased k => exact ⟨h.mapMachine _, rfl⟩
  | save path => exact h.doSave path
  | snapshot n => exact h.doSnapshot (hx n (List.mem_singleton_self _))
  | _ => exact ⟨{ h with console := h.console }, rfl⟩

/-! ## whole iterations -/

theorem obey (h : Delayed d a b) (x : Message) (hx : a.tickets.Agree b.tickets [x]) :
    Alike d (a.obey x) (b.obey x) := by
  have hhandled := h.handle x hx
  have hobeys := a.obeys x
  generalize a.obey x = r at hobeys ⊢
  cases hobeys with
  | halted ht =>
    rw [ht] at hhandled
    obtain ⟨t', ht', h'⟩ := hhandled.exists
    rw [obey_halted ht']
    exact h'.halt _
  | stopped ht hr =>
    rw [ht] at hhandled
    obtain ⟨t', ht', h'⟩ := hhandled.exists
    rw [obey_stopped ht' (h'.running.trans hr)]
    exact ⟨h', rfl⟩
  | going ht hr =>
    rw [ht] at hhandled
    obtain ⟨t', ht', h'⟩ := hhandled.exists
    rw [obey_going ht' (h'.running.trans hr)]
    exact h'.work

theorem iterate (h : Delayed d a b) : Alike d a.iterate b.iterate := by
  have hlink {link : Link Message} (hq : link.toSession.queue ⊆ a.link.toSession.queue) :
      Delayed d { a with link } { b with link } :=
    { h with link := rfl, tickets := fun n hn => h.tickets n (hq hn) }
  rcases ha : a.link.toSession with ⟨_ | ⟨x, rest⟩, closed⟩
  · cases closed with
    | false =>
      rw [iterate_idle (Link.receive_open ha), iterate_idle (Link.receive_open (h.link ▸ ha))]
      exact h.work
    | true =>
      rw [iterate_disconnected (Link.receive_ended ha),
        iterate_disconnected (Link.receive_ended (h.link ▸ ha))]
      exact ⟨{ h with running := rfl }, rfl⟩
  · have hqueue : a.link.toSession.queue = x :: rest := congrArg Pipe.queue ha
    have hb := iterate_message (Link.receive_first (h.link ▸ ha))
    rw [iterate_message (Link.receive_first ha), hb, h.link]
    refine Delayed.obey (hlink ?_) x fun n hn => h.tickets n ?_
    · rw [hqueue]
      exact List.subset_cons_self x rest
    · rw [hqueue, ← List.mem_singleton.mp hn]
      exact List.mem_cons_self

/-! ## rounds -/

theorem deed (h : Delayed d a b) (x : Deed) : Delayed d (a.deed x) (b.deed x) := by
  cases x with
  | send x t =>
    unfold Session.deed
    dsimp only
    rw [h.link]
    cases hs : a.link.send .host x with
    | error e => exact h
    | ok link =>
      cases Link.eq_of_send hs
      exact { h with link := rfl, tickets := h.tickets.withMail t x }
  | cancel n =>
    exact { h with tickets := fun k hk => Tickets.get?_cancel_congr (h.tickets k hk) n }
  | press n => exact h.mapMachine _
  | lift n => exact h.mapMachine _
  | close => exact { h with link := congrArg (fun l : Link Message => l.close .host) h.link }

theorem deeds (h : Delayed d a b) (xs : List Deed) : Delayed d (a.deeds xs) (b.deeds xs) := by
  induction xs generalizing a b with
  | nil => exact h
  | cons x xs ih => exact ih (h.deed x)

theorem ready (h : Delayed d a b) (r : Round) : Delayed d (a.ready r) (b.ready (r.later d)) :=
  { h.deeds r.deeds with clock := ⟨r.time, rfl, rfl⟩ }

theorem round (h : Delayed d a b) (r : Round) : Delayed d (a.round r) (b.round (r.later d)) :=
  (h.ready r).iterate.session

/-- whatever happens to a session, happens to a delayed one later -/
theorem rounds (h : Delayed d a b) (rs : List Round) :
    Delayed d (a.rounds rs) (b.rounds (rs.map (·.later d))) := by
  induction rs generalizing a b with
  | nil => exact h
  | cons r rs ih => exact ih (h.round r)

end Delayed

end Session

end ChipEight
