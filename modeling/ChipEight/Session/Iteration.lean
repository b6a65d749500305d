import ChipEight.Session.Basic

/-!
# One iteration of a session

* `Session.handle s m`   a message is obeyed;
* `Session.halt s e`     the session ends with a fault, which is logged and posted to the host;
* `Session.work s`       the timers' tick if it is due, then one instruction; nothing while paused;
* `Session.iterate s`    at most one message, then the work; `false` once the loop has to stop.

Whatever escapes from a message or from the work halts the session. Only a file that cannot be
written is merely logged; what logging it raises escapes like anything else.
-/

namespace ChipEight.Session

variable {κ τ : Type} [Time τ] [Clock κ τ]

/-! ## messages -/

def pauseTimer (s : Session κ τ) : Session κ τ :=
  let (timer, clock) := s.timer.stopBy s.clock
  { s with timer, clock }

def resumeTimer (s : Session κ τ) : Session κ τ :=
  let (timer, clock) := s.timer.startBy s.clock
  { s with timer, clock }

def doPause (s : Session κ τ) : Session κ τ :=
  if s.paused then s else (s.mapMachine Machine.pause).pauseTimer

def doUnpause (s : Session κ τ) : Session κ τ :=
  if s.paused then (s.mapMachine Machine.unpause).resumeTimer else s

section
omit [Time τ] [Clock κ τ]

def written (path : String) : LogEntry := .info ("Save state written to " ++ path)

def unwritten (path : String) (e : FileError) : LogEntry :=
  .error ("Failed to write save state " ++ path ++ ": " ++ e.message path)

/-- the outcome is logged after the file was written; that the log refuses it is not caught -/
def doSave (s : Session κ τ) (path : String) : Session κ τ × Option Escape :=
  match s.machine.state.toFile s.files path with
  | .ok files => { s with files }.report (written path)
  | .error (.unwritable e) => s.report (unwritten path e)
  | .error (.unpackable e) => (s, some (.cause (.unpackable e)))

def setTicket (s : Session κ τ) (n : Nat) (t : Ticket) : Session κ τ :=
  { s with tickets := s.tickets.set n t }

/-- a ticket that was called off is only noted as such, once; no other one can be answered -/
def doSnapshot (s : Session κ τ) (n : Nat) : Session κ τ × Option Escape :=
  match s.tickets.get? n with
  | some .pending =>
    match s.machine.snapshot with
    | .ok bytes => (s.setTicket n (.answered bytes), none)
    | .error e => (s.setTicket n .running, some (.cause (.unpackable e)))
  | some .cancelled => (s.setTicket n .notified, none)
  | _ => (s, some (.cause .ticketSpent))

end

def handle (s : Session κ τ) : Message → Session κ τ × Option Escape
  | .shutdown => ({ s with running := false }, none)
  | .pause => (s.doPause, none)
  | .unpause => (s.doUnpause, none)
  | .keyReleased k => (s.mapMachine (·.release k), none)
  | .save path => s.doSave path
  | .snapshot n => s.doSnapshot n
  | m => (s.say [.warning ("Scheduler ignored unexpected message " ++ m.description)], none)

/-! ## faults -/

section
omit [Time τ] [Clock κ τ]

/-- the host cannot be told once the session has closed its end -/
def halt (s : Session κ τ) (e : Escape) : Session κ τ × Except ChannelError Bool :=
  let f := e.toFault
  let s := { s with fault := some f, running := false }.say
    [.error ("Session halted: " ++ f.message)]
  match s.link.send .session (.fault f) with
  | .ok link => ({ s with link }, .ok false)
  | .error e => (s, .error e)

end

/-! ## work -/

def elapsed (s : Session κ τ) : τ × Session κ τ :=
  let (t, clock) := s.timer.elapsedBy s.clock
  (t, { s with clock })

def timerTick (s : Session κ τ) : Session κ τ × Except Escape Bool :=
  let (s, r) := s.act Console.tick60
  match r with
  | .error e => (s, .error e)
  | .ok b =>
    let (timer, clock) := s.timer.restartBy s.clock
    ({ s with timer, clock }, .ok b)

/-- the timers' tick if its time has come -/
def timerTickIfDue (s : Session κ τ) : Session κ τ × Except Escape Bool :=
  let (t, s) := s.elapsed
  if Time.le s.timerInterval t then s.timerTick else (s, .ok false)

def work (s : Session κ τ) : Session κ τ × Except ChannelError Bool :=
  if s.paused then (s, .ok true)
  else
    match s.timerTickIfDue with
    | (s, .error e) => s.halt e
    | (s, .ok _) =>
      match s.act Console.tick with
      | (s, .error e) => s.halt e
      | (s, .ok _) => (s, .ok true)

/-! ## iterations -/

def obey (s : Session κ τ) (m : Message) : Session κ τ × Except ChannelError Bool :=
  match s.handle m with
  | (s, some e) => s.halt e
  | (s, none) => if s.running then s.work else (s, .ok false)

def iterate (s : Session κ τ) : Session κ τ × Except ChannelError Bool :=
  match s.link.receive .session with
  | (.error _, link) => ({ s with link, running := false }, .ok false)
  | (.ok (some m), link) => { s with link }.obey m
  | (.ok none, link) => { s with link }.work

section
omit [Time τ] [Clock κ τ]

theorem report_taken {s : Session κ τ} {e : LogEntry} (h : s.refuses e = none) :
    s.report e = (s.say [e], none) := by
  rw [report, h]

theorem report_refused {s : Session κ τ} {e : LogEntry} {why : Escape}
    (h : s.refuses e = some why) : s.report e = (s, some why) := by
  rw [report, h]

theorem report_eq (s : Session κ τ) (e : LogEntry) :
    ∃ log, s.report e = ({ s with log }, s.refuses e) := by
  cases h : s.refuses e with
  | none => exact ⟨_, report_taken h⟩
  | some why => exact ⟨s.log, report_refused h⟩

theorem files_report (s : Session κ τ) (e : LogEntry) : (s.report e).1.files = s.files := by
  obtain ⟨log, hlog⟩ := s.report_eq e
  rw [hlog]

/-- the log takes what is said of a file that is to be written -/
def Logs (s : Session κ τ) (path : String) : Prop :=
  s.refuses (written path) = none ∧ ∀ e, s.refuses (unwritten path e) = none

theorem LogsAll.logs {s : Session κ τ} (h : s.LogsAll) (path : String) : s.Logs path :=
  ⟨h _, fun _ => h _⟩

theorem doSave_error {s : Session κ τ} {e : PackError} (h : s.machine.state.encode = .error e)
    (path : String) : s.doSave path = (s, some (.cause (.unpackable e))) := by
  rw [doSave, State.toFile, h]

theorem doSave_written {s : Session κ τ} {bytes : List UInt8} {path : String} {files : Files}
    (h : s.machine.state.encode = .ok bytes) (hw : s.files.write path bytes = .ok files) :
    s.doSave path = { s with files }.report (written path) := by
  rw [doSave, State.toFile, h]
  dsimp only
  rw [hw]
  rfl

theorem doSave_unwritten {s : Session κ τ} {bytes : List UInt8} {path : String} {e : FileError}
    (h : s.machine.state.encode = .ok bytes) (hw : s.files.write path bytes = .error e) :
    s.doSave path = s.report (unwritten path e) := by
  rw [doSave, State.toFile, h]
  dsimp only
  rw [hw]
  rfl

theorem doSave_ok {s : Session κ τ} {path : String} (hs : s.Logs path) {bytes : List UInt8}
    (h : s.machine.state.encode = .ok bytes) :
    ∃ files log, s.doSave path = ({ s with files, log }, none) := by
  cases hw : s.files.write path bytes with
  | ok files => exact ⟨files, _, (doSave_written h hw).trans (report_taken hs.1)⟩
  | error e => exact ⟨s.files, _, (doSave_unwritten h hw).trans (report_taken (hs.2 e))⟩

theorem doSave_eq (s : Session κ τ) (path : String) :
    ∃ files log e, s.doSave path = ({ s with files, log }, e) := by
  cases h : s.machine.state.encode with
  | error e => exact ⟨s.files, s.log, _, doSave_error h path⟩
  | ok bytes =>
    cases hw : s.files.write path bytes with
    | ok files =>
      obtain ⟨log, hlog⟩ := { s with files }.report_eq (written path)
      exact ⟨files, log, _, (doSave_written h hw).trans hlog⟩
    | error e =>
      obtain ⟨log, hlog⟩ := s.report_eq (unwritten path e)
      exact ⟨s.files, log, _, (doSave_unwritten h hw).trans hlog⟩

theorem doSnapshot_eq (s : Session κ τ) (n : Nat) :
    ∃ tickets e, s.doSnapshot n = ({ s with tickets }, e) := by
  unfold doSnapshot
  split
  · split
    · exact ⟨_, _, rfl⟩
    · exact ⟨_, _, rfl⟩
  · exact ⟨_, _, rfl⟩
  · exact ⟨s.tickets, _, rfl⟩

end

theorem work_paused {s : Session κ τ} (h : s.paused = true) : s.work = (s, .ok true) := by
  rw [work, if_pos h]

/-- the timers' tick fails, and there is no instruction -/
theorem work_untimed {s t : Session κ τ} {e : Escape} (h : s.paused = false)
    (ht : s.timerTickIfDue = (t, .error e)) : s.work = t.halt e := by
  rw [work, if_neg (ne_true_of_eq_false h), ht]

theorem work_halted {s t u : Session κ τ} {b : Bool} {e : Escape} (h : s.paused = false)
    (ht : s.timerTickIfDue = (t, .ok b)) (hu : t.act Console.tick = (u, .error e)) :
    s.work = u.halt e := by
  rw [work, if_neg (ne_true_of_eq_false h), ht]
  dsimp only
  rw [hu]

theorem work_done {s t u : Session κ τ} {b b' : Bool} (h : s.paused = false)
    (ht : s.timerTickIfDue = (t, .ok b)) (hu : t.act Console.tick = (u, .ok b')) :
    s.work = (u, .ok true) := by
  rw [work, if_neg (ne_true_of_eq_false h), ht]
  dsimp only
  rw [hu]

theorem obey_halted {s t : Session κ τ} {m : Message} {e : Escape}
    (h : s.handle m = (t, some e)) : s.obey m = t.halt e := by
  rw [obey, h]

theorem obey_going {s t : Session κ τ} {m : Message} (h : s.handle m = (t, none))
    (ht : t.running = true) : s.obey m = t.work := by
  rw [obey, h]
  exact if_pos ht

theorem obey_stopped {s t : Session κ τ} {m : Message} (h : s.handle m = (t, none))
    (ht : t.running = false) : s.obey m = (t, .ok false) := by
  rw [obey, h]
  exact if_neg (ne_true_of_eq_false ht)

theorem iterate_disconnected {s : Session κ τ} {e : ChannelError} {link : Link Message}
    (h : s.link.receive .session = (.error e, link)) :
    s.iterate = ({ s with link, running := false }, .ok false) := by
  rw [iterate, h]

theorem iterate_message {s : Session κ τ} {m : Message} {link : Link Message}
    (h : s.link.receive .session = (.ok (some m), link)) :
    s.iterate = { s with link }.obey m := by
  rw [iterate, h]

theorem iterate_idle {s : Session κ τ} {link : Link Message}
    (h : s.link.receive .session = (.ok none, link)) :
    s.iterate = { s with link }.work := by
  rw [iterate, h]

end ChipEight.Session
