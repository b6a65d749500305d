import ChipEight.Session.Run

/-!
# The host's side

* `Host`             a session as its host sees it: the last fault it was told of, whether it has
  shut the session down, and whether the session is running on its own;
* `Host.send`        a message, dropped with a note once the session is shut down;
* `Host.press`, `release`, `pause`, `unpause`, `save`   the host's commands;
* `Host.poll`        whether there is a new picture; all that the session sent is taken;
* `Host.snapshot`    the saved state, made by the session while it runs;
* `Host.shutdown`    ends the session and waits for its end; once is enough.

The keypad belongs to both sides: a key goes down at once, and its release is told besides.
-/

namespace ChipEight

structure Host (κ τ : Type) where
  session : Session κ τ
  fault : Option SessionFault
  shutDown : Bool
  alive : Bool

namespace Host

variable {κ τ : Type}

def ofSession (s : Session κ τ) : Host κ τ := ⟨s, none, false, false⟩

def mapSession (h : Host κ τ) (f : Session κ τ → Session κ τ) : Host κ τ :=
  { h with session := f h.session }

def send (h : Host κ τ) (m : Message) : Host κ τ :=
  match h.session.link.send .host m with
  | .ok link => h.mapSession fun s => { s with link }
  | .error _ => h.mapSession (·.say
      [.debug ("Dropped " ++ m.description ++ ": session is shut down")])

/-! ## commands -/

/-- a key that there is none of is refused -/
def press (h : Host κ τ) (n : Int) : Option (Host κ τ) :=
  (Key.ofInt? n).map fun k => h.mapSession (·.mapMachine (·.press k.val))

def release (h : Host κ τ) (n : Int) : Option (Host κ τ) :=
  (Key.ofInt? n).map fun k =>
    (h.mapSession (·.mapMachine (·.lift k.val))).send (.keyReleased k)

def pause (h : Host κ τ) : Host κ τ := h.send .pause

def unpause (h : Host κ τ) : Host κ τ := h.send .unpause

def save (h : Host κ τ) (path : String) : Host κ τ := h.send (.save (Path.normal path))

/-! ## news from the session -/

/-- the last fault among the messages, or else the one known before -/
def lastFault : Option SessionFault → List Message → Option SessionFault
  | known, [] => known
  | _, .fault f :: ms => lastFault (some f) ms
  | known, _ :: ms => lastFault known ms

def poll (h : Host κ τ) : Bool × Host κ τ :=
  let (ms, link) := h.session.link.drain .host
  (ms.contains .draw,
    { h with session := { h.session with link }, fault := lastFault h.fault ms })

/-! ## a session that runs on its own -/

section
variable [Time τ] [Clock κ τ]

def launch (h : Host κ τ) : Host κ τ := { h.mapSession Session.begin with alive := true }

/-- the running session goes on until it satisfies `p` or has ended, for at most `n` iterations -/
def await (h : Host κ τ) (p : Session κ τ → Bool) (n : Nat) : Host κ τ :=
  if h.alive then
    match h.session.iterateUntil p n with
    | (s, true) => { h with session := s }
    | (s, false) => { h with session := s.finish, alive := false }
  else h

def join (h : Host κ τ) (n : Nat) : Host κ τ := h.await (fun _ => false) n

/-- the state the machine is in, when nobody else drives it -/
def ownSnapshot (h : Host κ τ) : Except PackError (List UInt8) × Host κ τ :=
  (h.session.machine.snapshot, h)

/-- a running session is asked; one that ends before it answers is no longer needed -/
def snapshot (h : Host κ τ) (n : Nat) : Except PackError (List UInt8) × Host κ τ :=
  if h.alive then
    let (ticket, s) := h.session.issue .pending
    let h := ({ h with session := s }.send (.snapshot ticket)).await
      (fun s => s.tickets.get? ticket != some Ticket.pending) n
    match h.session.tickets.get? ticket with
    | some (.answered bytes) => (.ok bytes, h)
    | _ => h.ownSnapshot
  else h.ownSnapshot

def shutdown (h : Host κ τ) (n : Nat) : Host κ τ :=
  if h.shutDown then h
  else
    let h := { h with shutDown := true }.send .shutdown
    let h := (h.mapSession fun s => { s with link := s.link.close .host }).join n
    h.poll.2.mapSession (·.say [.info "Session shut down"])

end

def description (h : Host κ τ) : String :=
  "<Chip8Handle alive=" ++ (if h.alive then "True" else "False") ++ " fault="
    ++ (match h.fault with | some f => f.description | none => "None") ++ ">"

end Host

end ChipEight
