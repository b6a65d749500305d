import ChipEight.Channel.Pipe

/-!
# What goes through a link

* `Call`, `Reply`          what an end does with its link, and what it is told;
* `Pipe.perform`, `Link.perform`   a call carried out, on one pipe or by one end;
* `Call.way`               the end from which messages come that go the way a call is about;
* `Link.run`               many calls, with the turns that were taken, each with its reply;
* `sentBy`, `receivedBy`, `closedBy`   what turns say about one end;
* `Pipe.perform_conserves`, `Link.run_conserves`   nothing is lost, doubled or put out of order;
* `Link.along`, `run_along`   the calls about one way are answered as if there were no others;
* `Link.link_protocol`     the replies of a link at any time, from the turns before it.

Each way is a pipe of its own: what an end sends on, and what the other one receives from.
-/

namespace ChipEight

variable {α : Type}

/-! ## calls -/

def End.other : End → End
  | .host => .session
  | .session => .host

theorem End.other_other (e : End) : e.other.other = e := by cases e <;> rfl

theorem Link.inbound_eq (l : Link α) (e : End) : l.inbound e = l.outbound e.other := by
  cases e <;> rfl

inductive Call (α : Type) where
  | send (m : α)
  | receive
  | drain
  | close
  deriving DecidableEq

inductive Reply (α : Type) where
  | sent
  | received (m : Option α)
  | drained (ms : List α)
  | closed
  | refused (e : ChannelError)
  deriving DecidableEq

def Reply.ofReceive : Except ChannelError (Option α) → Reply α
  | .ok m => .received m
  | .error e => .refused e

def Call.way (e : End) : Call α → End
  | .send _ | .close => e
  | .receive | .drain => e.other

/-! ## one pipe -/

namespace Pipe

def perform (p : Pipe α) : Call α → Pipe α × Reply α
  | .send m =>
    match p.send m with
    | .ok q => (q, .sent)
    | .error e => (p, .refused e)
  | .receive => (p.receive.2, .ofReceive p.receive.1)
  | .drain => (p.drain.2, .drained p.drain.1)
  | .close => (p.close, .closed)

theorem perform_send (p : Pipe α) (m : α) :
    p.perform (.send m) =
      if p.closed then (p, .refused .sendClosed)
      else ({ p with queue := p.queue ++ [m] }, .sent) := by
  rcases p with ⟨queue, _ | _⟩ <;> rfl

theorem perform_receive_nil (closed : Bool) :
    perform (⟨[], closed⟩ : Pipe α) .receive =
      (⟨[], closed⟩, if closed then .refused .farEndClosed else .received none) := by
  cases closed <;> rfl

end Pipe

/-! ## turns -/

/-- a call of one end, and what it was told -/
structure Turn (α : Type) where
  party : End
  call : Call α
  reply : Reply α

namespace Turn

def way (t : Turn α) : End := t.call.way t.party

def sent (t : Turn α) : List α :=
  match t.call, t.reply with
  | .send m, .sent => [m]
  | _, _ => []

def received (t : Turn α) : List α :=
  match t.call, t.reply with
  | .receive, .received (some m) => [m]
  | .drain, .drained ms => ms
  | _, _ => []

def closes (t : Turn α) : Bool :=
  match t.call with
  | .close => true
  | _ => false

end Turn

def sentBy (e : End) (ts : List (Turn α)) : List α :=
  ts.flatMap fun t => if t.party = e then t.sent else []

def receivedBy (e : End) (ts : List (Turn α)) : List α :=
  ts.flatMap fun t => if t.party = e then t.received else []

def closedBy (e : End) (ts : List (Turn α)) : Bool := ts.any fun t => t.party = e && t.closes

theorem sentBy_cons (e : End) (t : Turn α) (ts : List (Turn α)) :
    sentBy e (t :: ts) = (if t.party = e then t.sent else []) ++ sentBy e ts := rfl
theorem receivedBy_cons (e : End) (t : Turn α) (ts : List (Turn α)) :
    receivedBy e (t :: ts) = (if t.party = e then t.received else []) ++ receivedBy e ts := rfl
theorem closedBy_cons (e : End) (t : Turn α) (ts : List (Turn α)) :
    closedBy e (t :: ts) = ((t.party = e && t.closes) || closedBy e ts) := rfl

/-! What an end sends goes its own way, and what it receives comes the other one's. -/

namespace Turn

theorem sent_by (t : Turn α) (e : End) :
    (if t.party = e then t.sent else []) = if t.way = e then t.sent else [] := by
  rcases t with ⟨d, c, r⟩
  cases c with
  | receive =>
    show (if d = e then [] else []) = if d.other = e then [] else []
    rw [ite_self, ite_self]
  | drain =>
    show (if d = e then [] else []) = if d.other = e then [] else []
    rw [ite_self, ite_self]
  | _ => rfl

theorem received_by (t : Turn α) (e : End) :
    (if t.party = e.other then t.received else []) = if t.way = e then t.received else [] := by
  rcases t with ⟨d, c, r⟩
  cases c with
  | send m =>
    show (if d = e.other then [] else []) = if d = e then [] else []
    rw [ite_self, ite_self]
  | close =>
    show (if d = e.other then [] else []) = if d = e then [] else []
    rw [ite_self, ite_self]
  | _ => cases d <;> cases e <;> rfl

theorem closes_by (t : Turn α) (e : End) :
    (t.party = e && t.closes : Bool) = (t.way = e && t.closes : Bool) := by
  rcases t with ⟨d, c, r⟩
  cases c with
  | receive => exact (Bool.and_false _).trans (Bool.and_false _).symm
  | drain => exact (Bool.and_false _).trans (Bool.and_false _).symm
  | _ => rfl

end Turn

/-- a call about one pipe, as a turn of either end, neither loses nor doubles a message -/
theorem Pipe.perform_conserves (p : Pipe α) (e : End) (c : Call α) :
    (Turn.mk e c (p.perform c).2).received ++ (p.perform c).1.queue =
      p.queue ++ (Turn.mk e c (p.perform c).2).sent := by
  cases c with
  | send m =>
    rw [perform_send]
    split
    · exact (List.append_nil _).symm
    · rfl
  | receive =>
    rcases p with ⟨_ | ⟨m, rest⟩, closed⟩
    · rw [perform_receive_nil]
      cases closed <;> rfl
    · exact (List.append_nil _).symm
  | drain => rfl
  | close => exact (List.append_nil _).symm

theorem Pipe.closed_perform (p : Pipe α) (e : End) (c : Call α) :
    (p.perform c).1.closed = (p.closed || (Turn.mk e c (p.perform c).2).closes) := by
  cases c with
  | send m =>
    rw [perform_send]
    split <;> exact (Bool.or_false _).symm
  | receive =>
    rcases p with ⟨_ | ⟨m, rest⟩, closed⟩
    · rw [perform_receive_nil]
      exact (Bool.or_false _).symm
    · exact (Bool.or_false _).symm
  | drain => exact (Bool.or_false _).symm
  | close => exact (Bool.or_true _).symm

/-! ## links -/

namespace Link

def perform (l : Link α) (e : End) : Call α → Link α × Reply α
  | .send m =>
    match l.send e m with
    | .ok l => (l, .sent)
    | .error r => (l, .refused r)
  | .receive => ((l.receive e).2, .ofReceive (l.receive e).1)
  | .drain => ((l.drain e).2, .drained (l.drain e).1)
  | .close => (l.close e, .closed)

theorem outbound_fresh (e : End) : (fresh : Link α).outbound e = .empty := by cases e <;> rfl

theorem setOutbound_outbound (l : Link α) (e : End) : l.setOutbound e (l.outbound e) = l := by
  cases e <;> rfl

theorem outbound_setOutbound_ne (l : Link α) {e d : End} (h : d ≠ e) (p : Pipe α) :
    (l.setOutbound e p).outbound d = l.outbound d := by
  cases e <;> cases d <;> first | rfl | exact absurd rfl h

/-- a call of an end is one on the pipe of its way -/
theorem perform_eq (l : Link α) (e : End) (c : Call α) :
    l.perform e c =
      (l.setOutbound (c.way e) ((l.outbound (c.way e)).perform c).1,
        ((l.outbound (c.way e)).perform c).2) := by
  cases c with
  | send m =>
    show l.perform e (.send m) =
      (l.setOutbound e ((l.outbound e).perform (.send m)).1, ((l.outbound e).perform (.send m)).2)
    rcases hp : l.outbound e with ⟨queue, _ | _⟩
    · rw [perform, Link.send, hp]
      rfl
    · rw [perform, Link.send, hp]
      show (l, _) = (l.setOutbound e ⟨queue, true⟩, _)
      rw [← hp, setOutbound_outbound, hp]
      rfl
  | receive => cases e <;> rfl
  | drain => cases e <;> rfl
  | close => rfl

theorem outbound_perform (l : Link α) (e : End) (c : Call α) :
    (l.perform e c).1.outbound (c.way e) = ((l.outbound (c.way e)).perform c).1 := by
  rw [perform_eq, outbound_setOutbound]

theorem outbound_perform_ne (l : Link α) {e d : End} {c : Call α} (h : d ≠ c.way e) :
    (l.perform e c).1.outbound d = l.outbound d := by
  rw [perform_eq, outbound_setOutbound_ne l h]

theorem reply_perform (l : Link α) (e : End) (c : Call α) :
    (l.perform e c).2 = ((l.outbound (c.way e)).perform c).2 := by
  rw [perform_eq]

/-! ## runs -/

def run (l : Link α) : List (End × Call α) → Link α × List (Turn α)
  | [] => (l, [])
  | (e, c) :: rest =>
    (((l.perform e c).1.run rest).1, ⟨e, c, (l.perform e c).2⟩ :: ((l.perform e c).1.run rest).2)

theorem run_cons (l : Link α) (e : End) (c : Call α) (rest : List (End × Call α)) :
    l.run ((e, c) :: rest) =
      (((l.perform e c).1.run rest).1,
        ⟨e, c, (l.perform e c).2⟩ :: ((l.perform e c).1.run rest).2) := rfl

theorem run_conserves (l : Link α) (calls : List (End × Call α)) (e : End) :
    receivedBy e.other (l.run calls).2 ++ ((l.run calls).1.outbound e).queue =
      (l.outbound e).queue ++ sentBy e (l.run calls).2 := by
  induction calls generalizing l with
  | nil => exact (List.append_nil _).symm
  | cons x rest ih =>
    obtain ⟨d, c⟩ := x
    rw [run_cons]
    dsimp only
    rw [receivedBy_cons, sentBy_cons, Turn.received_by, Turn.sent_by]
    by_cases h : c.way d = e
    · subst h
      have hway : (Turn.mk d c (l.perform d c).2).way = c.way d := rfl
      have hstep := Pipe.perform_conserves (l.outbound (c.way d)) d c
      rw [if_pos hway, if_pos hway, List.append_assoc, ih, outbound_perform, reply_perform,
        ← List.append_assoc, hstep, List.append_assoc]
    · have hway : (Turn.mk d c (l.perform d c).2).way ≠ e := h
      rw [if_neg hway, if_neg hway, List.nil_append, List.nil_append, ih,
        outbound_perform_ne l (Ne.symm h)]

theorem closed_run (l : Link α) (calls : List (End × Call α)) (e : End) :
    ((l.run calls).1.outbound e).closed =
      ((l.outbound e).closed || closedBy e (l.run calls).2) := by
  induction calls generalizing l with
  | nil => exact (Bool.or_false _).symm
  | cons x rest ih =>
    obtain ⟨d, c⟩ := x
    rw [run_cons]
    dsimp only
    rw [closedBy_cons, Turn.closes_by, ih, ← Bool.or_assoc]
    congr 1
    by_cases h : c.way d = e
    · subst h
      have hway : (Turn.mk d c (l.perform d c).2).way = c.way d := rfl
      rw [outbound_perform, Pipe.closed_perform _ d, decide_eq_true hway, Bool.true_and,
        reply_perform]
    · have hway : (Turn.mk d c (l.perform d c).2).way ≠ e := h
      rw [outbound_perform_ne l (Ne.symm h), decide_eq_false hway, Bool.false_and, Bool.or_false]

def along (e : End) (calls : List (End × Call α)) : List (End × Call α) :=
  calls.filter fun x => x.2.way x.1 = e

theorem along_cons (e d : End) (c : Call α) (rest : List (End × Call α)) :
    along e ((d, c) :: rest) = if c.way d = e then (d, c) :: along e rest else along e rest := by
  by_cases h : c.way d = e <;> simp [along, h]

theorem run_along {l k : Link α} {e : End} (h : k.outbound e = l.outbound e)
    (calls : List (End × Call α)) :
    (k.run (along e calls)).1.outbound e = (l.run calls).1.outbound e ∧
      (k.run (along e calls)).2 = (l.run calls).2.filter (·.way = e) := by
  induction calls generalizing l k with
  | nil => exact ⟨h, rfl⟩
  | cons x rest ih =>
    obtain ⟨d, c⟩ := x
    rw [along_cons]
    by_cases hway : c.way d = e
    · have hown : (Turn.mk d c (l.perform d c).2).way = e := hway
      have hpipe : (k.perform d c).1.outbound e = (l.perform d c).1.outbound e := by
        rw [← hway, outbound_perform, outbound_perform, hway, h]
      have hreply : (k.perform d c).2 = (l.perform d c).2 := by
        rw [reply_perform, reply_perform, hway, h]
      obtain ⟨hafter, hturns⟩ := ih hpipe
      rw [if_pos hway, run_cons, run_cons]
      dsimp only
      rw [List.filter_cons, if_pos (decide_eq_true hown), hreply, hturns]
      exact ⟨hafter, rfl⟩
    · have hother : (Turn.mk d c (l.perform d c).2).way ≠ e := hway
      rw [if_neg hway, run_cons]
      dsimp only
      rw [List.filter_cons, if_neg (ne_true_of_eq_false (decide_eq_false hother))]
      exact ih (h.trans (outbound_perform_ne l (Ne.symm hway)).symm)

/-! ## the protocol -/

theorem perform_send (l : Link α) (e : End) (m : α) :
    l.perform e (.send m) =
      if (l.outbound e).closed then (l, .refused .sendClosed)
      else
        (l.setOutbound e { l.outbound e with queue := (l.outbound e).queue ++ [m] }, .sent) := by
  rw [perform_eq]
  show (l.setOutbound e ((l.outbound e).perform (.send m)).1, ((l.outbound e).perform (.send m)).2)
    = _
  rw [Pipe.perform_send]
  split
  · rw [setOutbound_outbound]
  · rfl

theorem reply_receive (l : Link α) (e : End) :
    (l.perform e .receive).2 =
      match (l.inbound e).queue with
      | m :: _ => .received (some m)
      | [] => if (l.inbound e).closed then .refused .farEndClosed else .received none := by
  rw [reply_perform, inbound_eq]
  show ((l.outbound e.other).perform .receive).2 = _
  rcases l.outbound e.other with ⟨_ | ⟨m, rest⟩, closed⟩
  · rw [Pipe.perform_receive_nil]
  · rfl

/-- at any time, and for either end: what it has received and what is still on its way to it is what
the other end has successfully sent, in order; a message is refused exactly if the end has closed,
and then changes nothing; the end is told that the other one has closed, or that there is nothing
yet, exactly if it has received all that was sent, and else gets the next message; it can take all
of them at any time; and one way has nothing to do with the other -/
theorem link_protocol (calls : List (End × Call α)) (e : End) :
    let l := (fresh.run calls).1
    let ts := (fresh.run calls).2
    receivedBy e ts ++ (l.inbound e).queue = sentBy e.other ts ∧
      (∀ m, (l.perform e (.send m)).2 = if closedBy e ts then .refused .sendClosed else .sent) ∧
      (closedBy e ts = true → ∀ m, (l.perform e (.send m)).1 = l) ∧
      ((l.perform e .receive).2 = .refused .farEndClosed ↔
        closedBy e.other ts = true ∧ receivedBy e ts = sentBy e.other ts) ∧
      ((l.perform e .receive).2 = .received none ↔
        closedBy e.other ts = false ∧ receivedBy e ts = sentBy e.other ts) ∧
      (∀ m, (l.perform e .receive).2 = .received (some m) ↔
        receivedBy e ts ++ [m] <+: sentBy e.other ts) ∧
      (∃ ms, (l.perform e .drain).2 = .drained ms ∧ receivedBy e ts ++ ms = sentBy e.other ts) ∧
      (fresh.run (along e calls)).1.outbound e = l.outbound e ∧
      (fresh.run (along e calls)).2 = ts.filter (·.way = e) := by
  intro l ts
  have hkept : receivedBy e ts ++ (l.inbound e).queue = sentBy e.other ts := by
    have h := run_conserves (α := α) fresh calls e.other
    rwa [End.other_other, ← inbound_eq, outbound_fresh] at h
  have hout : (l.outbound e).closed = closedBy e ts := by
    rw [closed_run, outbound_fresh]
    rfl
  have hin : (l.inbound e).closed = closedBy e.other ts := by
    rw [inbound_eq, closed_run, outbound_fresh]
    rfl
  have hall : receivedBy e ts = sentBy e.other ts ↔ (l.inbound e).queue = [] := by
    rw [← hkept, List.self_eq_append_right]
  have hnext (m : α) :
      receivedBy e ts ++ [m] <+: sentBy e.other ts ↔ [m] <+: (l.inbound e).queue := by
    rw [← hkept, List.prefix_append_right_inj]
  refine ⟨hkept, fun m => ?_, fun hc m => ?_, ?_, ?_, fun m => ?_, ⟨_, ?_, hkept⟩,
    (run_along rfl calls).1, (run_along rfl calls).2⟩
  · rw [perform_send, hout]
    split <;> rfl
  · rw [perform_send, hout, if_pos hc]
  · rw [reply_receive, hall, ← hin]
    rcases l.inbound e with ⟨_ | ⟨m, rest⟩, _ | _⟩ <;> simp
  · rw [reply_receive, hall, ← hin]
    rcases l.inbound e with ⟨_ | ⟨m, rest⟩, _ | _⟩ <;> simp
  · rw [reply_receive, hnext]
    rcases l.inbound e with ⟨_ | ⟨m, rest⟩, _ | _⟩ <;> simp [eq_comm]
  · rw [inbound_eq]
    exact reply_perform l e .drain

end Link

end ChipEight
