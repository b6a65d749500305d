import ChipEight.Proofs.Session.Pictures
import ChipEight.Session.Host

/-!
# Sessions that post to their host alone

* `World.Posting`        the session posts pictures and a fault, and nobody else watches;
* `Policed.lastFault_posted`   what was posted tells of the session's fault;
* `Posting.count_posted` each step of the thread that paints posts one picture, and no other any.
-/

namespace ChipEight

/-! ## faults among messages -/

namespace Host

theorem lastFault_append (known : Option SessionFault) (xs ys : List Message) :
    lastFault known (xs ++ ys) = lastFault (lastFault known xs) ys := by
  induction xs generalizing known with
  | nil => rfl
  | cons x xs ih => cases x <;> exact ih _

theorem lastFault_draws (known : Option SessionFault) (n : Nat) :
    lastFault known (List.replicate n .draw) = known := by
  induction n with
  | zero => rfl
  | succ n ih => exact ih

end Host

/-! ## what is posted -/

theorem Session.Advances.collected {κ τ : Type} [Time τ] [Clock κ τ] {s : Session κ τ}
    {st : Stage τ} {a : Advance κ τ} (h : s.Advances st a) : History.collected a.marks = [] := by
  cases h <;> rfl

namespace World

variable {κ τ : Type}

structure Posting (w : World κ τ) : Prop where
  trails : w.Trails
  policed : w.Policed
  posts : w.session.console.OnlyPosts

theorem posted_host {w : World κ τ} {r : Session κ τ × History} (hr : w.session.Hosted r) :
    posted ⟨r.1, w.stage, r.2 ++ w.history⟩ = w.posted := by
  show History.collected (r.2 ++ w.history) ++ r.1.link.toHost.queue = _
  rw [History.collected_append, List.append_assoc, hr.posted]
  rfl

theorem Posting.host {w : World κ τ} (hw : w.Posting) {r : Session κ τ × History}
    (hr : w.session.Hosted r) : Posting ⟨r.1, w.stage, r.2 ++ w.history⟩ := by
  obtain ⟨keypad, hc⟩ := hr.console
  refine ⟨hw.trails.host hr, hw.policed.host hr, ?_⟩
  show r.1.console.watchers = _
  rw [hc]
  exact hw.posts

theorem Policed.lastFault_posted {w : World κ τ} (hw : w.Policed) :
    Host.lastFault none w.posted = w.session.fault := by
  obtain ⟨n, hn⟩ := hw.posted
  rw [hn, Host.lastFault_append, Host.lastFault_draws]
  cases w.session.fault <;> rfl

/-- the session's end is open until the run is over -/
theorem Policed.isOpen {w : World κ τ} (hw : w.Policed) (hst : w.stage.ended = false) :
    w.session.link.toHost.closed = false := by
  refine eq_false_of_ne_true fun hc => ?_
  obtain ⟨r, hr⟩ := hw.closed.mp hc
  rw [hr] at hst
  cases hst

variable [Time τ] [Clock κ τ]

theorem Posting.thread {w : World κ τ} (hw : w.Posting) {a : Advance κ τ}
    (ha : w.session.Advances w.stage a) : Posting ⟨a.session, a.stage, a.marks ++ w.history⟩ :=
  ⟨hw.trails.thread ha, hw.policed.thread hw.trails ha, ha.watchers.trans hw.posts⟩

theorem Posting.count_posted {w : World κ τ} (hw : w.Posting) {a : Advance κ τ}
    (ha : w.session.Advances w.stage a) :
    (posted ⟨a.session, a.stage, a.marks ++ w.history⟩).count .draw =
      w.posted.count .draw + (w.session.paints w.stage).toNat := by
  rw [posted_append ha.collected, List.count_append, ha.count_draw hw.posts hw.policed.isOpen,
    posted, List.count_append, Nat.add_assoc]

end World

end ChipEight
