import ChipEight.Proofs.Session.Posting

/-!
# A host with nobody in between

What a host knows that drives its session by whole iterations.

* `Session.Serves xs s st`   the session posts to a host alone, which has taken `xs` so far;
* `Serves.iterate`       an iteration keeps that, whatever clock it goes by;
* `Serves.iterateUntil`  so do many, without a wait between them, up to the end of the session;
* `Host.Informed`        the host knows the last fault of what it has taken;
* `Informed.send`, `.await`, `.poll`, `.shutdown`   its commands keep that;
* `Informed.fault_shutdown`   a host that has shut its session down knows of the session's fault.
-/

namespace ChipEight

namespace Session

variable {κ τ : Type} {xs : List Message} {s t : Session κ τ} {st : Stage τ}

def Serves (xs : List Message) (s : Session κ τ) (st : Stage τ) : Prop :=
  ∃ h : History, World.Posting ⟨s, st, h⟩ ∧ h.collected = xs

namespace Serves

theorem fault (h : s.Serves xs st) : Host.lastFault none (xs ++ s.link.toHost.queue) = s.fault := by
  obtain ⟨h, hposting, rfl⟩ := h
  exact hposting.policed.lastFault_posted

/-- nothing that is posted depends on the clock, the tickets or the log -/
theorem unseen (h : s.Serves xs st) (hl : t.link.toHost = s.link.toHost)
    (hc : t.console.watchers = s.console.watchers) (hf : t.fault = s.fault)
    (hr : t.running = s.running) : t.Serves xs st := by
  obtain ⟨h, ⟨⟨hbears, hallows⟩, hp, hposts⟩, hxs⟩ := h
  refine ⟨h, ⟨⟨hbears, hallows⟩, ?_, hc.trans hposts⟩, hxs⟩
  show World.Policed ⟨t, st, [] ++ h⟩
  refine hp.stay rfl (congrArg Pipe.queue hl) ?_ hf hr (List.forall_mem_nil _) fun _ he => he
  rw [hl]
  exact hp.closed

/-- the next iteration may begin before the wait is over -/
theorem hurry {b : τ} (h : s.Serves xs (.waiting b)) : s.Serves xs .next := by
  obtain ⟨h, ⟨⟨hbears, hallows⟩, hp, hposts⟩, hxs⟩ := h
  refine ⟨h, ⟨⟨hbears, hallows⟩, ?_, hposts⟩, hxs⟩
  show World.Policed ⟨s, .next, [] ++ h⟩
  refine hp.stay rfl rfl ⟨fun hc => ?_, nofun⟩ rfl rfl (List.forall_mem_nil _) nofun
  obtain ⟨r, hr⟩ := hp.closed.mp hc
  cases hr

theorem collect (h : s.Serves xs st) :
    Serves (xs ++ s.link.toHost.queue) { s with link := (s.link.drain .host).2 } st := by
  obtain ⟨h, hposting, rfl⟩ := h
  exact ⟨_, hposting.host (s.hosted .collect), rfl⟩

variable [Time τ] [Clock κ τ]

theorem advances {a : Advance κ τ} (h : s.Serves xs st) (ha : s.Advances st a) :
    a.session.Serves xs a.stage := by
  obtain ⟨h, hposting, hxs⟩ := h
  refine ⟨a.marks ++ h, hposting.thread ha, ?_⟩
  rw [History.collected_append, ha.collected, List.append_nil, hxs]

theorem reaches {a b : Session κ τ × Stage τ} (h : a.1.Serves xs a.2) (hr : Reaches a b) :
    b.1.Serves xs b.2 := by
  induction hr with
  | refl => exact h
  | @tail u v _ hstep ih =>
    rw [← hstep.1, ← hstep.2]
    exact ih.advances (u.1.advances u.2)

theorem iterate (h : s.Serves xs .next) :
    s.iterate.1.Serves xs (settle s.readClock.1 s.iterate.1 s.iterate.2) := by
  rcases hl : s.link.toSession with ⟨_ | ⟨x, rest⟩, c⟩
  · have hclosed : s.link.toSession.closed = c := congrArg Pipe.closed hl
    have hasking : s.Serves xs (.asking s.readClock.1) :=
      (h.advances (.hearsNothing (congrArg Pipe.queue hl))).unseen rfl rfl rfl rfl
    cases c with
    | true =>
      rw [iterate_disconnected (Link.receive_ended hl)]
      exact hasking.advances (.disconnects hclosed)
    | false =>
      rw [iterate_idle (Link.receive_open hl)]
      exact (hasking.advances (.goesOn hclosed)).reaches (reaches_work s _)
  · have hobeying : Serves xs { s with link := { s.link with toSession := ⟨rest, c⟩ } }
        (.obeying s.readClock.1 x) :=
      (h.advances (.hears hl)).unseen rfl rfl rfl rfl
    rw [iterate_message (Link.receive_first hl)]
    exact hobeying.reaches (reaches_obey _ _ x)

theorem iterateUntil {p : Session κ τ → Bool} {n : Nat} {b : Bool} (h : s.Serves xs .next)
    (hs : s.iterateUntil p n = (t, b)) :
    if b then t.Serves xs .next else ∃ r, t.Serves xs (.leaving r) := by
  induction n generalizing s with
  | zero =>
    cases hs
    exact h
  | succ n ih =>
    have hiterate := h.iterate
    rw [Session.iterateUntil] at hs
    split at hs
    · cases hs
      exact h
    · rcases hr : s.iterate with ⟨u, e | _ | _⟩ <;> rw [hr] at hs hiterate
      · cases hs
        exact ⟨_, hiterate⟩
      · cases hs
        exact ⟨_, hiterate⟩
      · refine ih ?_ hs
        rw [settle] at hiterate
        split at hiterate
        · exact hiterate
        · exact hiterate.hurry

theorem finish {r : Option RunError} (h : s.Serves xs (.leaving r)) :
    s.finish.Serves xs (.stopped r) :=
  reaches (a := (s, .leaving r)) h (reaches_finish s r)

end Serves

end Session

namespace Host

variable {κ τ : Type} {h : Host κ τ}

/-- between two of its commands, the host knows the last fault of what it has taken; a session that
runs on its own is between two iterations then -/
def Informed (h : Host κ τ) : Prop :=
  ∃ xs st, h.session.Serves xs st ∧ (h.alive = true → st = .next) ∧ h.fault = lastFault none xs

namespace Informed

theorem unseen (hi : h.Informed) {t : Session κ τ} (hl : t.link.toHost = h.session.link.toHost)
    (hc : t.console.watchers = h.session.console.watchers) (hf : t.fault = h.session.fault)
    (hr : t.running = h.session.running) : Informed { h with session := t } := by
  obtain ⟨xs, st, hs, ha, hfault⟩ := hi
  exact ⟨xs, st, hs.unseen hl hc hf hr, ha, hfault⟩

theorem send (hi : h.Informed) (x : Message) : (h.send x).Informed := by
  unfold Host.send
  split
  · rename_i link hl
    rw [Link.eq_of_send hl]
    exact hi.unseen rfl rfl rfl rfl
  · exact hi.unseen rfl rfl rfl rfl

theorem fault (hi : h.Informed) (hq : h.session.link.toHost.queue = []) :
    h.fault = h.session.fault := by
  obtain ⟨xs, st, hs, -, hfault⟩ := hi
  have hposted := hs.fault
  rw [hq, List.append_nil] at hposted
  rw [hfault, hposted]

theorem poll (hi : h.Informed) : h.poll.2.Informed := by
  obtain ⟨xs, st, hs, ha, hfault⟩ := hi
  refine ⟨xs ++ h.session.link.toHost.queue, st, hs.collect, ha, ?_⟩
  rw [lastFault_append, ← hfault]
  rfl

variable [Time τ] [Clock κ τ]

theorem await (hi : h.Informed) (p : Session κ τ → Bool) (n : Nat) : (h.await p n).Informed := by
  unfold Host.await
  split
  · rename_i halive
    obtain ⟨xs, st, hs, ha, hfault⟩ := hi
    rw [ha halive] at hs
    split
    · rename_i t ht
      exact ⟨xs, .next, hs.iterateUntil ht, fun _ => rfl, hfault⟩
    · rename_i t ht
      obtain ⟨r, hleft⟩ := hs.iterateUntil ht
      exact ⟨xs, .stopped r, hleft.finish, nofun, hfault⟩
  · exact hi

theorem shutdown (hi : h.Informed) (n : Nat) : (h.shutdown n).Informed := by
  unfold Host.shutdown
  split
  · exact hi
  · have hsent : (Host.send { h with shutDown := true } .shutdown).Informed :=
      send (h := { h with shutDown := true }) hi _
    have hclosed : ((Host.send { h with shutDown := true } .shutdown).mapSession fun s =>
        { s with link := s.link.close .host }).Informed := hsent.unseen rfl rfl rfl rfl
    exact (hclosed.await _ n).poll.unseen rfl rfl rfl rfl

end Informed

theorem shutDown_send (h : Host κ τ) (x : Message) : (h.send x).shutDown = h.shutDown := by
  unfold send
  split <;> rfl

variable [Time τ] [Clock κ τ]

theorem shutDown_await (h : Host κ τ) (p : Session κ τ → Bool) (n : Nat) :
    (h.await p n).shutDown = h.shutDown := by
  unfold await
  split
  · split <;> rfl
  · rfl

theorem shutDown_shutdown (h : Host κ τ) (n : Nat) : (h.shutdown n).shutDown = true := by
  unfold shutdown
  split
  · assumption
  · exact (shutDown_await _ _ n).trans (shutDown_send { h with shutDown := true } .shutdown)

/-- a shutdown leaves nothing on its way, and the host knows of the session's fault; another one
changes nothing -/
theorem Informed.fault_shutdown (hi : h.Informed) (hd : h.shutDown = false) (n : Nat) :
    (h.shutdown n).session.link.toHost.queue = [] ∧
      (h.shutdown n).fault = (h.shutdown n).session.fault ∧
      ∀ k, (h.shutdown n).shutdown k = h.shutdown n := by
  have hq : (h.shutdown n).session.link.toHost.queue = [] := by
    unfold Host.shutdown
    rw [if_neg (ne_true_of_eq_false hd)]
    rfl
  exact ⟨hq, (hi.shutdown n).fault hq, fun k => if_pos (h.shutDown_shutdown n)⟩

end Host

end ChipEight
