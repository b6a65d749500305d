/-!
# Pipes and links

* `Pipe α`               messages on their way in one direction, and whether the sender has closed;
* `Pipe.send`            adds a message, unless the sender has closed;
* `Pipe.take`            the oldest message, if there is one;
* `Pipe.whenEmpty`       what a receiver that found nothing is told;
* `Pipe.receive`         the two together;
* `Pipe.drain`           all messages, the oldest first;
* `Pipe.close`           the sender sends no more;
* `Link α`               one pipe in each direction between two ends.

A receiver first looks for a message and only then asks whether the sender has closed, so what was
sent before closing is always received.
-/

namespace ChipEight

structure Pipe (α : Type) where
  queue : List α
  closed : Bool
  deriving DecidableEq

inductive ChannelError where
  | sendClosed
  | farEndClosed
  deriving DecidableEq, Repr

def ChannelError.message : ChannelError → String
  | sendClosed => "send on a closed channel"
  | farEndClosed => "far end closed"

namespace Pipe

variable {α : Type}

def empty : Pipe α := ⟨[], false⟩

def send (p : Pipe α) (m : α) : Except ChannelError (Pipe α) :=
  if p.closed then .error .sendClosed else .ok { p with queue := p.queue ++ [m] }

def take (p : Pipe α) : Option α × Pipe α :=
  match p.queue with
  | [] => (none, p)
  | m :: rest => (some m, { p with queue := rest })

def whenEmpty (p : Pipe α) : Except ChannelError (Option α) :=
  if p.closed then .error .farEndClosed else .ok none

def receive (p : Pipe α) : Except ChannelError (Option α) × Pipe α :=
  match p.take with
  | (some m, p) => (.ok (some m), p)
  | (none, p) => (p.whenEmpty, p)

def drain (p : Pipe α) : List α × Pipe α := (p.queue, { p with queue := [] })

def close (p : Pipe α) : Pipe α := { p with closed := true }

end Pipe

inductive End where
  | host
  | session
  deriving DecidableEq, Repr

structure Link (α : Type) where
  toSession : Pipe α
  toHost : Pipe α

namespace Link

variable {α : Type}

def fresh : Link α := ⟨.empty, .empty⟩

def outbound (l : Link α) : End → Pipe α
  | .host => l.toSession
  | .session => l.toHost

def inbound (l : Link α) : End → Pipe α
  | .host => l.toHost
  | .session => l.toSession

def setOutbound (l : Link α) (e : End) (p : Pipe α) : Link α :=
  match e with
  | .host => { l with toSession := p }
  | .session => { l with toHost := p }

def setInbound (l : Link α) (e : End) (p : Pipe α) : Link α :=
  match e with
  | .host => { l with toHost := p }
  | .session => { l with toSession := p }

theorem outbound_setOutbound (l : Link α) (e : End) (p : Pipe α) :
    (l.setOutbound e p).outbound e = p := by cases e <;> rfl

def send (l : Link α) (e : End) (m : α) : Except ChannelError (Link α) :=
  ((l.outbound e).send m).map (l.setOutbound e)

def receive (l : Link α) (e : End) : Except ChannelError (Option α) × Link α :=
  let (r, p) := (l.inbound e).receive
  (r, l.setInbound e p)

def drain (l : Link α) (e : End) : List α × Link α :=
  let (ms, p) := (l.inbound e).drain
  (ms, l.setInbound e p)

def close (l : Link α) (e : End) : Link α := l.setOutbound e (l.outbound e).close

end Link

end ChipEight
