import ChipEight.Proofs.Files.ReadBack
import ChipEight.Proofs.Session.Pause
import ChipEight.Proofs.Session.Requests

/-!
# Saving while a session runs

An iteration in which the state is saved goes on like one in which nothing is heard.

* `Cue`                  what an iteration finds: the keypad, perhaps a message, with the ticket
  that it brings, and how the clock was set;
* `Session.follow s c`   the iteration that finds the cue `c`;
* `Session.bare s`       the session but for what saving and mail change: files, tickets, log and
  inbox;
* `Same`                 the same result, and sessions that are the same but for that;
* `follow_bare`          no iteration that is logged tells such sessions apart;
* `Toils`                what the work of an iteration leaves alone;
* `Session.Logged s c`   the log takes what is said of a file that is written for the cue;
* `Cue.saves`, `Hushed`  messages that save, and nothing heard instead;
* `follow_quiet`         an iteration whose message leaves nothing to be done goes on like one that
  hears nothing; so it is when a request is answered (`handle_answered`);
* `follow_reported`      so it is when an entry is left to be logged, if the log takes it; if not, the
  session halts. That is all that a file leaves (`handle_written`, `handle_unwritten`);
* `Session.Quieter`      cues in which nothing is heard instead of some of those messages;
* `saving_unnoticed`     all of this for every session on a machine that is well formed;
* `saving_unlogged`      a file is written, and the session halts as the log refuses its name.
-/

namespace ChipEight

theorem Tickets.set_set (ts : Tickets) (n : Nat) (t u : Ticket) :
    (ts.set n t).set n u = ts.set n u := by
  simp [set, List.filter_filter]

/-! ## cues -/

structure Cue (κ : Type) where
  wind : κ → κ
  keypad : Keypad
  heard : Option Message
  /-- the ticket that a request brings, as it is when the request is heard -/
  ticket : Ticket

namespace Cue

variable {κ : Type}

def silent (c : Cue κ) : Cue κ := { c with heard := none }

def saves (c : Cue κ) : Bool :=
  match c.heard with
  | some (.save _) => true
  | some (.snapshot _) => c.ticket = .pending
  | _ => false

def Hushed (c c' : Cue κ) : Prop := c.saves = true ∧ c' = c.silent

end Cue

namespace Session

variable {κ τ : Type}

/-- the session that has received the message of the cue, and nothing else is on its way -/
def meet (s : Session κ τ) (c : Cue κ) : Session κ τ :=
  { s with
    clock := c.wind s.clock
    console := s.console.mapMachine fun m => m.mapState fun st => { st with keypad := c.keypad }
    link := { s.link with toSession := .empty }
    tickets := c.heard.elim s.tickets (s.tickets.withMail c.ticket) }

section
variable [Time τ] [Clock κ τ]

def follow (s : Session κ τ) (c : Cue κ) : Session κ τ × Except ChannelError Bool :=
  iterate { s.meet c with link := { s.link with toSession := ⟨c.heard.toList, false⟩ } }

theorem follow_message {s : Session κ τ} {c : Cue κ} {x : Message} (h : c.heard = some x) :
    s.follow c = (s.meet c).obey x := by
  unfold follow
  rw [h]
  exact iterate_message (Link.receive_first rfl)

theorem follow_silence {s : Session κ τ} {c : Cue κ} (h : c.heard = none) :
    s.follow c = (s.meet c).work := by
  unfold follow
  rw [h]
  exact iterate_idle (Link.receive_open rfl)

/-- an iteration that has obeyed its message: if the session still runs, it does the work of one
that hears nothing, and otherwise it is over -/
def proceed (s : Session κ τ) (c : Cue κ) : Session κ τ × Except ChannelError Bool :=
  if s.running then s.follow c.silent else (s.meet c.silent, .ok false)

def followed (s : Session κ τ) (cs : List (Cue κ)) : Session κ τ :=
  cs.foldl (fun s c => (s.follow c).1) s

/-- cues that differ in that nothing is heard instead of some messages that save, each at a time
when the session runs -/
def Quieter (s : Session κ τ) : List (Cue κ) → List (Cue κ) → Prop
  | [], [] => True
  | c :: cs, c' :: cs' =>
    (c' = c ∨ s.running = true ∧ c.Hushed c') ∧ (s.follow c).1.Quieter cs cs'
  | _, _ => False

end

/-! ## what is not saved -/

def bare (s : Session κ τ) : Session κ τ :=
  { s with link := { s.link with toSession := .empty }, tickets := [], files := .empty, log := [] }

/-- what each of many iterations leads to: the session but for what saving and mail change, and
whether the session is to go on -/
def outcomes [Time τ] [Clock κ τ] (s : Session κ τ) :
    List (Cue κ) → List (Session κ τ × Except ChannelError Bool)
  | [] => []
  | c :: cs => ((s.follow c).1.bare, (s.follow c).2) :: (s.follow c).1.outcomes cs

structure Same {ρ : Type} (x y : Session κ τ × ρ) : Prop where
  session : x.1.bare = y.1.bare
  result : x.2 = y.2

def Logged (s : Session κ τ) (c : Cue κ) : Prop :=
  ∀ path, c.heard = some (.save path) → s.Logs path

variable {s t : Session κ τ}

theorem Same.exists {ρ : Type} {r : ρ} {y : Session κ τ × ρ} (h : Same (s, r) y) :
    ∃ t, y = (t, r) ∧ s.bare = t.bare :=
  ⟨y.1, Prod.ext rfl h.result.symm, h.session⟩

/-! ## operations -/

theorem paused_bare (h : s.bare = t.bare) : s.paused = t.paused := by
  show s.bare.paused = t.bare.paused
  rw [h]

theorem running_bare (h : s.bare = t.bare) : s.running = t.running := by
  show s.bare.running = t.bare.running
  rw [h]

theorem act_bare (h : s.bare = t.bare) (f : Console → Pipe Message → Showing) :
    Same (s.act f) (t.act f) :=
  ⟨congrArg (fun s => (s.act f).1.bare) h, congrArg (fun s => (s.act f).2) h⟩

theorem halt_bare (h : s.bare = t.bare) (e : Escape) : Same (s.halt e) (t.halt e) := by
  have hout : s.link.toHost = t.link.toHost := congrArg (·.link.toHost) h
  have hsend (s : Session κ τ) : s.link.send .session (.fault e.toFault) =
    (s.link.toHost.send (.fault e.toFault)).map (s.link.setOutbound .session) := rfl
  unfold halt
  dsimp only [say]
  rw [hsend, hsend, hout]
  cases t.link.toHost.send (.fault e.toFault) with
  | error c =>
    exact ⟨congrArg (fun s => { s with fault := some e.toFault, running := false }) h, rfl⟩
  | ok p =>
    refine ⟨congrArg (fun s => { s with
      fault := some e.toFault
      running := false
      link := { s.link with toHost := p } }) h, rfl⟩

variable [Time τ] [Clock κ τ]

theorem elapsed_bare (h : s.bare = t.bare) :
    s.elapsed.1 = t.elapsed.1 ∧ s.elapsed.2.bare = t.elapsed.2.bare :=
  ⟨congrArg (fun s => s.elapsed.1) h, congrArg (fun s => s.elapsed.2.bare) h⟩

theorem timerTick_bare (h : s.bare = t.bare) : Same s.timerTick t.timerTick := by
  have hacted := act_bare h Console.tick60
  unfold timerTick
  rcases hs : s.act Console.tick60 with ⟨s', e | v⟩
  · rw [hs] at hacted
    obtain ⟨t', ht, h'⟩ := hacted.exists
    rw [ht]
    exact ⟨h', rfl⟩
  · rw [hs] at hacted
    obtain ⟨t', ht, h'⟩ := hacted.exists
    rw [ht]
    exact ⟨congrArg (fun s => { s with
      timer := (s.timer.restartBy s.clock).1
      clock := (s.timer.restartBy s.clock).2 }) h', rfl⟩

theorem timerTickIfDue_bare (h : s.bare = t.bare) : Same s.timerTickIfDue t.timerTickIfDue := by
  obtain ⟨htime, hread⟩ := elapsed_bare h
  have hinterval : s.elapsed.2.timerInterval = t.elapsed.2.timerInterval :=
    congrArg (·.timerInterval) hread
  unfold timerTickIfDue
  dsimp only
  rw [htime, hinterval]
  split
  · exact timerTick_bare hread
  · exact ⟨hread, rfl⟩

-- the cases are those of `s`; at each stage `t` is found in the same one
theorem work_bare (h : s.bare = t.bare) : Same s.work t.work := by
  have hdue := timerTickIfDue_bare h
  have hworks := s.works
  generalize s.work = r at hworks ⊢
  cases hworks with
  | paused hp =>
    rw [work_paused ((paused_bare h).symm.trans hp)]
    exact ⟨h, rfl⟩
  | untimed hp ht =>
    rw [ht] at hdue
    obtain ⟨t', ht', h'⟩ := hdue.exists
    rw [work_untimed ((paused_bare h).symm.trans hp) ht']
    exact halt_bare h' _
  | halted hp ht hu =>
    rw [ht] at hdue
    obtain ⟨t', ht', h'⟩ := hdue.exists
    have hacted := act_bare h' Console.tick
    rw [hu] at hacted
    obtain ⟨u', hu', h''⟩ := hacted.exists
    rw [work_halted ((paused_bare h).symm.trans hp) ht' hu']
    exact halt_bare h'' _
  | done hp ht hu =>
    rw [ht] at hdue
    obtain ⟨t', ht', h'⟩ := hdue.exists
    have hacted := act_bare h' Console.tick
    rw [hu] at hacted
    obtain ⟨u', hu', h''⟩ := hacted.exists
    rw [work_done ((paused_bare h).symm.trans hp) ht' hu']
    exact ⟨h'', rfl⟩

/-! ## messages -/

theorem doPause_bare (h : s.bare = t.bare) : s.doPause.bare = t.doPause.bare := by
  unfold doPause
  rw [paused_bare h]
  split
  · exact h
  · exact congrArg (fun s => (s.mapMachine Machine.pause).pauseTimer.bare) h

omit [Time τ] in
theorem doUnpause_bare (h : s.bare = t.bare) : s.doUnpause.bare = t.doUnpause.bare := by
  unfold doUnpause
  rw [paused_bare h]
  split
  · exact congrArg (fun s => (s.mapMachine Machine.unpause).resumeTimer.bare) h
  · exact h

omit [Time τ] [Clock κ τ] in
/-- whether the file could be written is only logged -/
theorem doSave_bare (h : s.bare = t.bare) {path : String} (hs : s.Logs path) :
    Same (s.doSave path) (t.doSave path) := by
  have ht : t.Logs path := (congrArg (·.Logs path) h).mp hs
  have hstate : s.machine.state = t.machine.state := congrArg (·.machine.state) h
  cases hb : s.machine.state.encode with
  | error e =>
    rw [doSave_error hb, doSave_error (hstate ▸ hb)]
    exact ⟨h, rfl⟩
  | ok bytes =>
    obtain ⟨files, log, hdone⟩ := doSave_ok hs hb
    obtain ⟨files', log', hdone'⟩ := doSave_ok ht (hstate ▸ hb)
    rw [hdone, hdone']
    exact ⟨h, rfl⟩

omit [Time τ] [Clock κ τ] in
theorem doSnapshot_bare (h : s.bare = t.bare) {n : Nat}
    (hn : s.tickets.get? n = t.tickets.get? n) : Same (s.doSnapshot n) (t.doSnapshot n) := by
  have hmachine : s.machine = t.machine := congrArg (·.machine) h
  unfold doSnapshot
  rw [hn, hmachine]
  split
  · split <;> exact ⟨h, rfl⟩
  · exact ⟨h, rfl⟩
  · exact ⟨h, rfl⟩

theorem handle_bare (h : s.bare = t.bare) {x : Message}
    (hs : ∀ path, x = .save path → s.Logs path)
    (hx : ∀ n, x = .snapshot n → s.tickets.get? n = t.tickets.get? n) :
    Same (s.handle x) (t.handle x) := by
  cases x with
  | pause => exact ⟨doPause_bare h, rfl⟩
  | unpause => exact ⟨doUnpause_bare h, rfl⟩
  | save path => exact doSave_bare h (hs path rfl)
  | snapshot n => exact doSnapshot_bare h (hx n rfl)
  | keyReleased k => exact ⟨congrArg (fun s => (s.mapMachine (·.release k)).bare) h, rfl⟩
  | shutdown => exact ⟨congrArg (fun s => { s with running := false }) h, rfl⟩
  | _ => exact ⟨h, rfl⟩

theorem obey_bare (h : s.bare = t.bare) {x : Message}
    (hs : ∀ path, x = .save path → s.Logs path)
    (hx : ∀ n, x = .snapshot n → s.tickets.get? n = t.tickets.get? n) :
    Same (s.obey x) (t.obey x) := by
  have hhandled := handle_bare h hs hx
  have hobeys := s.obeys x
  generalize s.obey x = r at hobeys ⊢
  cases hobeys with
  | halted ht =>
    rw [ht] at hhandled
    obtain ⟨t', ht', h'⟩ := hhandled.exists
    rw [obey_halted ht']
    exact halt_bare h' _
  | stopped ht hr =>
    rw [ht] at hhandled
    obtain ⟨t', ht', h'⟩ := hhandled.exists
    rw [obey_stopped ht' ((running_bare h').symm.trans hr)]
    exact ⟨h', rfl⟩
  | going ht hr =>
    rw [ht] at hhandled
    obtain ⟨t', ht', h'⟩ := hhandled.exists
    rw [obey_going ht' ((running_bare h').symm.trans hr)]
    exact work_bare h'

/-! ## iterations -/

omit [Time τ] [Clock κ τ] in
theorem meet_bare (h : s.bare = t.bare) (c : Cue κ) : (s.meet c).bare = (t.meet c).bare :=
  congrArg (fun s => (s.meet c).bare) h

omit [Time τ] [Clock κ τ] in
theorem tickets_meet {c : Cue κ} {n : Nat} (h : c.heard = some (.snapshot n)) (s : Session κ τ) :
    (s.meet c).tickets = s.tickets.set n c.ticket := by
  show c.heard.elim _ _ = _
  rw [h]
  rfl

theorem follow_bare (h : s.bare = t.bare) {c : Cue κ} (hs : s.Logged c) :
    Same (s.follow c) (t.follow c) := by
  cases hc : c.heard with
  | none =>
    rw [follow_silence hc, follow_silence hc]
    exact work_bare (meet_bare h c)
  | some x =>
    rw [follow_message hc, follow_message hc]
    refine obey_bare (meet_bare h c) (fun path hx => hs path (hc.trans (congrArg some hx)))
      fun n hn => ?_
    subst hn
    rw [tickets_meet hc, tickets_meet hc, Tickets.get?_set, Tickets.get?_set]

/-! ## what work leaves alone -/

structure Toils (s t : Session κ τ) : Prop where
  machine : ∃ ops, t.machine = s.machine.run ops
  files : t.files = s.files
  tickets : t.tickets = s.tickets
  refuses : t.refuses = s.refuses

section
omit [Time τ] [Clock κ τ]
variable {u : Session κ τ}

theorem Toils.refl (s : Session κ τ) : s.Toils s := ⟨⟨[], rfl⟩, rfl, rfl, rfl⟩

theorem Toils.trans (h : s.Toils t) (h' : t.Toils u) : s.Toils u := by
  obtain ⟨ops, hops⟩ := h.machine
  obtain ⟨ops', hops'⟩ := h'.machine
  refine ⟨⟨ops ++ ops', ?_⟩, h'.files.trans h.files, h'.tickets.trans h.tickets,
    h'.refuses.trans h.refuses⟩
  rw [Machine.run_append, ← hops, hops']

theorem Toils.halt (s : Session κ τ) (e : Escape) : s.Toils (s.halt e).1 := by
  unfold Session.halt
  dsimp only
  split <;> exact ⟨⟨[], rfl⟩, rfl, rfl, rfl⟩

theorem Toils.act_tick (s : Session κ τ) : s.Toils (s.act Console.tick).1 :=
  ⟨⟨[.tick], Console.machine_tick _ _⟩, rfl, rfl, rfl⟩

end

theorem Toils.timerTick {r : Except Escape Bool} (h : s.timerTick = (t, r)) : s.Toils t := by
  obtain ⟨timer, clock, rfl⟩ := timerTick_eq h
  exact ⟨⟨[.tick60], rfl⟩, rfl, rfl, rfl⟩

theorem Toils.timerTickIfDue {r : Except Escape Bool} (h : s.timerTickIfDue = (t, r)) :
    s.Toils t := by
  have hread : s.Toils s.elapsed.2 := ⟨⟨[], rfl⟩, rfl, rfl, rfl⟩
  unfold Session.timerTickIfDue at h
  dsimp only at h
  split at h
  · exact hread.trans (.timerTick h)
  · cases h
    exact hread

theorem Toils.work (s : Session κ τ) : s.Toils s.work.1 := by
  have hworks := s.works
  generalize s.work = r at hworks ⊢
  cases hworks with
  | paused hp => exact .refl s
  | untimed hp ht => exact (Toils.timerTickIfDue ht).trans (.halt _ _)
  | @halted t u b e hp ht hu =>
    have hticked := Toils.act_tick t
    rw [hu] at hticked
    exact ((Toils.timerTickIfDue ht).trans hticked).trans (.halt _ _)
  | @done t u b b' hp ht hu =>
    have hticked := Toils.act_tick t
    rw [hu] at hticked
    exact (Toils.timerTickIfDue ht).trans hticked

/-- all business with files and tickets is done when the message is -/
theorem Toils.obey {x : Message} {e : Option Escape} (h : s.handle x = (t, e)) :
    t.Toils (s.obey x).1 := by
  have hobeys := s.obeys x
  generalize s.obey x = r at hobeys ⊢
  cases hobeys with
  | halted ht =>
    cases h.symm.trans ht
    exact .halt _ _
  | stopped ht hr =>
    cases h.symm.trans ht
    exact .refl _
  | going ht hr =>
    cases h.symm.trans ht
    exact .work _

omit [Time τ] [Clock κ τ] in
theorem Toils.wellFormed (h : s.Toils t) (hw : s.machine.state.WellFormed) :
    t.machine.state.WellFormed := by
  obtain ⟨ops, hops⟩ := h.machine
  rw [hops]
  exact Machine.run_wellFormed hw ops

theorem handle_wellFormed (hw : s.machine.state.WellFormed) {x : Message} {e : Option Escape}
    (h : s.handle x = (t, e)) : t.machine.state.WellFormed := by
  rw [machine_handle h]
  rcases s.machine.hear_perform x with hsame | ⟨o, ho⟩
  · rw [hsame]
    exact hw
  · rw [ho]
    exact Machine.perform_wellFormed hw o

theorem follow_wellFormed (hw : s.machine.state.WellFormed) (c : Cue κ) :
    (s.follow c).1.machine.state.WellFormed := by
  have hmeet : (s.meet c).machine.state.WellFormed := hw
  cases hc : c.heard with
  | none =>
    rw [follow_silence hc]
    exact (Toils.work _).wellFormed hmeet
  | some x =>
    rw [follow_message hc]
    rcases ht : (s.meet c).handle x with ⟨t, e⟩
    exact (Toils.obey ht).wellFormed (handle_wellFormed hmeet ht)

theorem refuses_handle {x : Message} {e : Option Escape} (h : s.handle x = (t, e)) :
    t.refuses = s.refuses := by
  obtain rfl : (s.handle x).1 = t := congrArg Prod.fst h
  cases x with
  | pause =>
    unfold handle doPause
    dsimp only
    split <;> rfl
  | unpause =>
    unfold handle doUnpause
    dsimp only
    split <;> rfl
  | save path =>
    obtain ⟨files, log, e, hdone⟩ := s.doSave_eq path
    rw [handle, hdone]
  | snapshot n =>
    obtain ⟨tickets, e, hdone⟩ := s.doSnapshot_eq n
    rw [handle, hdone]
  | _ => rfl

theorem refuses_follow (s : Session κ τ) (c : Cue κ) : (s.follow c).1.refuses = s.refuses := by
  cases hc : c.heard with
  | none =>
    rw [follow_silence hc]
    exact (Toils.work _).refuses
  | some x =>
    rw [follow_message hc]
    rcases ht : (s.meet c).handle x with ⟨t, e⟩
    exact (Toils.obey ht).refuses.trans (refuses_handle (s := s.meet c) ht)

theorem Logged.follow {c : Cue κ} (h : s.Logged c) (c' : Cue κ) : (s.follow c').1.Logged c := by
  intro path hc
  rw [Logs, refuses_follow]
  exact h path hc

theorem followed_wellFormed (hw : s.machine.state.WellFormed) (cs : List (Cue κ)) :
    (s.followed cs).machine.state.WellFormed := by
  induction cs generalizing s with
  | nil => exact hw
  | cons c cs ih => exact ih (follow_wellFormed hw c)

/-! ## messages that save -/

theorem follow_toils {c : Cue κ} {x : Message} (hx : c.heard = some x) {e : Option Escape}
    (h : (s.meet c).handle x = (t, e)) : t.Toils (s.follow c).1 := by
  rw [follow_message hx]
  exact .obey h

/-- a message after which all is as if nothing had been heard by the session `t` -/
theorem follow_quiet {c : Cue κ} {x : Message} (hx : c.heard = some x)
    (h : (s.meet c).handle x = (t.meet c.silent, none)) : s.follow c = t.proceed c := by
  rw [follow_message hx, proceed]
  split
  · rename_i hr
    rw [obey_going h hr, follow_silence rfl]
  · rename_i hr
    exact obey_stopped h (Bool.eq_false_iff.mpr hr)

theorem proceed_bare (h : s.bare = t.bare) (hr : t.running = true) (c : Cue κ) :
    Same (s.proceed c) (t.follow c.silent) := by
  rw [proceed, if_pos ((running_bare h).trans hr)]
  exact follow_bare h nofun

theorem follow_refused {c : Cue κ} {x : Message} (hx : c.heard = some x) {why : Escape}
    (h : (s.meet c).handle x = (t, some why)) : s.follow c = t.halt why := by
  rw [follow_message hx]
  exact obey_halted h

section
variable {c : Cue κ} {path : String}

omit [Time τ] [Clock κ τ] in
theorem report_meet (s : Session κ τ) (c : Cue κ) (e : LogEntry) :
    (s.meet c.silent).report e = ((s.report e).1.meet c.silent, s.refuses e) := by
  cases hr : s.refuses e with
  | none =>
    rw [report_taken hr]
    exact report_taken hr
  | some why =>
    rw [report_refused hr]
    exact report_refused hr

/-- a message after which only the entry `e` is to be logged by the session `t` -/
theorem follow_reported {x : Message} (hx : c.heard = some x) {e : LogEntry}
    (h : (s.meet c).handle x = (t.meet c.silent).report e) :
    (s.follow c).1.files = t.files ∧
      (t.refuses e = none → s.follow c = (t.say [e]).proceed c) ∧
      ∀ why, t.refuses e = some why → s.follow c = (t.meet c.silent).halt why := by
  have hdone := h.trans (report_meet t c e)
  refine ⟨(follow_toils hx hdone).files.trans (files_report t e), fun hlog => ?_,
    fun why hlog => ?_⟩
  · rw [hlog, report_taken hlog] at hdone
    exact follow_quiet hx hdone
  · rw [hlog, report_refused hlog] at hdone
    exact follow_refused hx hdone

theorem handle_written (hw : s.machine.state.WellFormed) (hc : c.heard = some (.save path))
    {files : Files} (h : s.files.write path (s.meet c).machine.state.image = .ok files) :
    (s.meet c).handle (.save path) =
      ({ s with files }.meet c.silent).report (written path) := by
  obtain ⟨wind, keypad, heard, ticket⟩ := c
  subst hc
  exact doSave_written (State.encode_wellFormed hw) h

theorem handle_unwritten (hw : s.machine.state.WellFormed) (hc : c.heard = some (.save path))
    {e : FileError} (h : s.files.write path (s.meet c).machine.state.image = .error e) :
    (s.meet c).handle (.save path) = (s.meet c.silent).report (unwritten path e) := by
  obtain ⟨wind, keypad, heard, ticket⟩ := c
  subst hc
  exact doSave_unwritten (State.encode_wellFormed hw) h

theorem handle_answered (hw : s.machine.state.WellFormed) {n : Nat}
    (hc : c.heard = some (.snapshot n)) (hn : c.ticket = .pending) :
    (s.meet c).handle (.snapshot n) =
      (({ s with tickets := s.tickets.set n (.answered (s.meet c).machine.state.image) }).meet
        c.silent, none) := by
  obtain ⟨wind, keypad, heard, ticket⟩ := c
  subst hc hn
  have hencoded :
      (s.meet ⟨wind, keypad, some (.snapshot n), .pending⟩).machine.snapshot = .ok _ :=
    State.encode_wellFormed hw
  have hopen : (s.meet ⟨wind, keypad, some (.snapshot n), .pending⟩).tickets.get? n =
      some .pending := Tickets.get?_set _ _ _
  show doSnapshot _ n = _
  rw [doSnapshot, hopen]
  dsimp only
  rw [hencoded]
  dsimp only
  rw [setTicket, tickets_meet rfl, Tickets.set_set]
  rfl

theorem follow_hushed (hw : s.machine.state.WellFormed) (hr : s.running = true)
    (hs : s.Logged c) {c' : Cue κ} (h : c.Hushed c') : Same (s.follow c) (s.follow c') := by
  obtain ⟨hsaves, rfl⟩ := h
  unfold Cue.saves at hsaves
  split at hsaves
  · rename_i path hc
    obtain ⟨hwritten, hunwritten⟩ := hs path hc
    cases hwrite : s.files.write path (s.meet c).machine.state.image with
    | ok files =>
      obtain ⟨-, hquiet, -⟩ := follow_reported hc (handle_written hw hc hwrite)
      rw [hquiet hwritten]
      exact proceed_bare (by rfl) hr c
    | error e =>
      obtain ⟨-, hquiet, -⟩ := follow_reported hc (handle_unwritten hw hc hwrite)
      rw [hquiet (hunwritten e)]
      exact proceed_bare (by rfl) hr c
  · rename_i n hc
    rw [follow_quiet hc (handle_answered hw hc (of_decide_eq_true hsaves))]
    exact proceed_bare (by rfl) hr c
  · cases hsaves

end

theorem outcomes_bare (h : s.bare = t.bare) {cs : List (Cue κ)} (hs : ∀ c ∈ cs, s.Logged c) :
    s.outcomes cs = t.outcomes cs := by
  induction cs generalizing s t with
  | nil => rfl
  | cons c cs ih =>
    obtain ⟨hsession, hresult⟩ := follow_bare h (hs c List.mem_cons_self)
    rw [outcomes, outcomes, hsession, hresult,
      ih hsession fun c' hc' => (hs c' (List.mem_cons_of_mem c hc')).follow c]

theorem Quieter.logged {cs cs' : List (Cue κ)} (h : s.Quieter cs cs')
    (hs : ∀ c ∈ cs, t.Logged c) : ∀ c ∈ cs', t.Logged c := by
  induction cs generalizing s cs' with
  | nil =>
    cases cs' with
    | nil => exact hs
    | cons c' cs' => exact h.elim
  | cons c cs ih =>
    cases cs' with
    | nil => exact h.elim
    | cons c' cs' =>
      obtain ⟨hcue, hrest⟩ := h
      refine List.forall_mem_cons.mpr ⟨?_, ih hrest fun d hd => hs d (List.mem_cons_of_mem c hd)⟩
      rcases hcue with rfl | ⟨-, -, rfl⟩
      · exact hs c' List.mem_cons_self
      · exact nofun

theorem Quieter.outcomes (hw : s.machine.state.WellFormed) {cs cs' : List (Cue κ)}
    (hs : ∀ c ∈ cs, s.Logged c) (h : s.Quieter cs cs') : s.outcomes cs = s.outcomes cs' := by
  induction cs generalizing s cs' with
  | nil =>
    cases cs' with
    | nil => rfl
    | cons c' cs' => exact h.elim
  | cons c cs ih =>
    cases cs' with
    | nil => exact h.elim
    | cons c' cs' =>
      obtain ⟨hcue, hrest⟩ := h
      have hfirst : s.Logged c := hs c List.mem_cons_self
      have hlater : ∀ d ∈ cs, (s.follow c).1.Logged d := fun d hd =>
        (hs d (List.mem_cons_of_mem c hd)).follow c
      have hsame : Same (s.follow c) (s.follow c') := by
        rcases hcue with rfl | ⟨hr, hhushed⟩
        · exact ⟨rfl, rfl⟩
        · exact follow_hushed hw hr hfirst hhushed
      rw [Session.outcomes, Session.outcomes, ih (follow_wellFormed hw c) hlater hrest,
        hsame.session, hsame.result, outcomes_bare hsame.session (hrest.logged hlater)]

/-- Of a session on a machine that is well formed: as long as it runs, and the log takes what is
said of the files, it makes no difference to anything but files, tickets and log whether a message
that saves is heard, or nothing. The file, if it can be written, and the answer to an open request
are the state of the machine before the work of the iteration, and the file reads back as that
state. If the log refuses the entry, the session halts, and a file that was written stays. In a
session that was stopped such a message ends the iteration, while work is done if nothing is
heard. -/
theorem saving_unnoticed (hw : s.machine.state.WellFormed) :
    (∀ cs cs', (∀ c ∈ cs, s.Logged c) → s.Quieter cs cs' → s.outcomes cs = s.outcomes cs') ∧
      ∀ (before : List (Cue κ)) (c : Cue κ),
        let t := s.followed before
        let m := (t.meet c).machine
        ∃ bytes, m.snapshot = .ok bytes ∧
          (∀ path files, c.heard = some (.save path) → t.files.write path bytes = .ok files →
            (t.follow c).1.files = files ∧
              (∀ given, Path.normal given = path →
                State.ofFile files given = .ok (.ok m.state)) ∧
              (t.refuses (written path) = none → t.follow c =
                if t.running then ({ t with files }.say [written path]).follow c.silent
                else (({ t with files }.say [written path]).meet c.silent, .ok false)) ∧
              (∀ why, t.refuses (written path) = some why →
                t.follow c = ({ t with files }.meet c.silent).halt why)) ∧
          (∀ path e, c.heard = some (.save path) → t.files.write path bytes = .error e →
            (t.follow c).1.files = t.files ∧
              (t.refuses (unwritten path e) = none → t.follow c =
                if t.running then (t.say [unwritten path e]).follow c.silent
                else ((t.say [unwritten path e]).meet c.silent, .ok false)) ∧
              (∀ why, t.refuses (unwritten path e) = some why →
                t.follow c = (t.meet c.silent).halt why)) ∧
          (∀ n, c.heard = some (.snapshot n) → c.ticket = .pending →
            (t.follow c).1.tickets = t.tickets.set n (.answered bytes) ∧
              t.follow c =
                if t.running then
                  { t with tickets := t.tickets.set n (.answered bytes) }.follow c.silent
                else ({ t with tickets := t.tickets.set n (.answered bytes) }.meet c.silent,
                  .ok false)) ∧
          t.follow c.silent = (t.meet c.silent).work := by
  refine ⟨fun cs cs' hs h => h.outcomes hw hs, fun before c => ?_⟩
  intro t m
  have ht : t.machine.state.WellFormed := followed_wellFormed hw before
  have hm : m.state.WellFormed := ht
  refine ⟨m.state.image, State.encode_wellFormed hm, fun path files hc hwrite => ?_,
    fun path e hc hwrite => ?_, fun n hc hn => ?_, follow_silence rfl⟩
  · obtain ⟨hfiles, hlogged⟩ := follow_reported hc (handle_written ht hc hwrite)
    exact ⟨hfiles, fun given hg => State.ofFile_write hm hwrite hg, hlogged⟩
  · exact follow_reported hc (handle_unwritten ht hc hwrite)
  · have hdone := handle_answered ht hc hn
    exact ⟨(follow_toils hc hdone).tickets, follow_quiet hc hdone⟩

/-- a session by a clock that stands until it is set -/
def idle : Timed := start (.ofMachine idling) .fresh (Ticker.standing 0) none (1 / 60) .empty

theorem idling_wellFormed : idling.state.WellFormed :=
  State.WellFormed.withRam (s := { State.fresh with delay := 10 }) State.fresh_wellFormed _

def cueAt (t : Rat) (heard : Option Message) : Cue (Ticker Rat) :=
  ⟨fun _ => Ticker.standing t, .none, heard, .pending⟩

/-- the session by a log that cannot write down the name of the file -/
def unlogged : Timed := { idle with refuses := fun _ => some (.cause (.unencodable "not UTF-8")) }

/-- The file is written, and its name is all that cannot be logged; that halts the session, which
runs on if nothing is heard. -/
theorem saving_unlogged :
    idling.state.WellFormed ∧ unlogged.running = true ∧
      (cueAt 1 (some (.save "q"))).Hushed (cueAt 1 none) ∧
      (unlogged.follow (cueAt 1 (some (.save "q")))).1.files =
        ⟨[(["q"], .file idling.state.image)]⟩ ∧
      (unlogged.follow (cueAt 1 (some (.save "q")))).1.fault = some ⟨.unencodable "not UTF-8"⟩ ∧
      (unlogged.follow (cueAt 1 (some (.save "q")))).2 = .ok false ∧
      (unlogged.follow (cueAt 1 none)).1.fault = none ∧
      (unlogged.follow (cueAt 1 none)).2 = .ok true := by
  have hwrite : unlogged.files.write "q" idling.state.image =
      .ok ⟨[(["q"], .file idling.state.image)]⟩ := by rfl
  have hdone := handle_written (s := unlogged) (c := cueAt 1 (some (.save "q")))
    idling_wellFormed rfl hwrite
  obtain ⟨hfiles, -, hrefused⟩ := follow_reported rfl hdone
  have hhalted := hrefused _ rfl
  refine ⟨idling_wellFormed, rfl, ⟨rfl, rfl⟩, hfiles, ?_, ?_, ?_, ?_⟩
  · rw [hhalted]
    rfl
  · rw [hhalted]
    rfl
  · decide +kernel
  · decide +kernel

/-- a file, one that cannot be written, and a request in a pause -/
def busy : List (Cue (Ticker Rat)) :=
  [cueAt 1 (some (.save "q")), cueAt 2 (some .pause), cueAt 3 (some (.snapshot 0)),
    cueAt 4 (some (.save "x/y")), cueAt 5 (some .unpause)]

def calm : List (Cue (Ticker Rat)) :=
  [cueAt 1 none, cueAt 2 (some .pause), cueAt 3 none, cueAt 4 none, cueAt 5 (some .unpause)]

theorem saving_unnoticed_busy :
    idling.state.WellFormed ∧ idle.Quieter busy calm ∧ idle.outcomes busy = idle.outcomes calm ∧
      ∃ files, (idle.follow (cueAt 1 (some (.save "q")))).1.files = files ∧
        State.ofFile files "./q" = .ok (.ok idling.state) := by
  obtain ⟨hsame, hsaved⟩ := saving_unnoticed (s := idle) idling_wellFormed
  have hquieter : idle.Quieter busy calm := by
    refine ⟨.inr ⟨rfl, rfl, rfl⟩, .inl rfl, .inr ⟨?_, rfl, rfl⟩, .inr ⟨?_, rfl, rfl⟩, .inl rfl,
      trivial⟩
    · decide +kernel
    · decide +kernel
  have hlogged : ∀ c ∈ busy, idle.Logged c := fun c _ path _ => ⟨rfl, fun _ => rfl⟩
  obtain ⟨bytes, -, hwritten, -⟩ := hsaved [] (cueAt 1 (some (.save "q")))
  have hwrite : Files.empty.write "q" bytes = .ok ⟨[(["q"], .file bytes)]⟩ := by rfl
  obtain ⟨hfiles, hread, -⟩ := hwritten "q" _ rfl hwrite
  exact ⟨idling_wellFormed, hquieter, hsame _ _ hlogged hquieter, _, hfiles,
    hread "./q" (by decide +kernel)⟩

end Session

end ChipEight
