import ChipEight.Proofs.Session.Order

/-!
# What a host is told

A session posts pictures, and at the end perhaps one fault.

* `World.posted`         all that was ever posted to the host;
* `World.Policed`        pictures only, and the fault once the session has halted; the fault is that
  of the one thing that escaped;
* `ended_policy`         a session that is over: what it has posted, and why.
-/

namespace ChipEight

theorem Mark.escape_of_trails {m : Mark} (h : m.trails = true) : m.escape = none := by
  cases m <;> first | rfl | cases h

theorem Mark.escape_of_not_ends {m : Mark} (h : m.ends = false) : m.escape = none := by
  by_contra hne
  obtain ⟨e, he⟩ := Option.ne_none_iff_exists'.mp hne
  exact absurd (ends_of_escape he) (ne_true_of_eq_false h)

/-- `e` escaped from something in the history -/
def History.Escaped (h : History) (e : Escape) : Prop := ∃ m ∈ h, m.escape = some e

theorem History.escaped_append {ms h : History} (hms : ∀ m ∈ ms, m.escape = none) (e : Escape) :
    Escaped (ms ++ h) e ↔ Escaped h e := by
  constructor
  · rintro ⟨m, hm, he⟩
    rcases List.mem_append.mp hm with hnew | hold
    · rw [hms m hnew] at he
      cases he
    · exact ⟨m, hold, he⟩
  · rintro ⟨m, hm, he⟩
    exact ⟨m, List.mem_append_right ms hm, he⟩

namespace World

variable {κ τ : Type}

def posted (w : World κ τ) : List Message :=
  w.history.collected ++ w.session.link.toHost.queue

structure Policed (w : World κ τ) : Prop where
  posted : ∃ n, w.posted =
    List.replicate n .draw ++ (w.session.fault.map Message.fault).toList
  closed : w.session.link.toHost.closed = true ↔ ∃ r, w.stage = .stopped r
  untold : w.stage.ended = false → w.session.fault = none
  halting : ∀ e, w.stage = .halting e → w.history.Escaped e
  told : w.stage.ended = true → ∀ f, w.session.fault = some f ↔
    ∃ e, w.history.Escaped e ∧ f = e.toFault
  stopped : w.session.fault ≠ none → w.session.running = false

section
variable {s t : Session κ τ} {st st' : Stage τ} {h ms : History}

theorem posted_append (hms : ms.collected = []) :
    posted ⟨t, st', ms ++ h⟩ = h.collected ++ t.link.toHost.queue := by
  show History.collected (ms ++ h) ++ t.link.toHost.queue = _
  rw [History.collected_append, hms, List.append_nil]

theorem Policed.draw (hw : Policed ⟨s, st, h⟩) (hst : st.ended = false)
    (hout : ∃ n, t.link.toHost = s.link.toHost.drawn n) (hfault : t.fault = s.fault)
    (hms : ms.collected = []) (hover : ∀ r, st' ≠ .stopped r)
    (hhalt : ∀ e, st' = .halting e → ms.Escaped e)
    (hend : st'.ended = true → ∀ m ∈ ms ++ h, m.escape = none) : Policed ⟨t, st', ms ++ h⟩ := by
  obtain ⟨⟨n, hn⟩, hclosed, huntold, -, -, -⟩ := hw
  obtain ⟨k, hk⟩ := hout
  have hnone : t.fault = none := hfault.trans (huntold hst)
  have hopen : s.link.toHost.closed = false := by
    refine eq_false_of_ne_true fun hc => ?_
    obtain ⟨r, hr⟩ := hclosed.mp hc
    dsimp only at hr
    rw [hr] at hst
    cases hst
  refine ⟨⟨n + k, ?_⟩, ⟨fun hc => ?_, fun ⟨r, hr⟩ => absurd hr (hover r)⟩, fun _ => hnone,
    fun e he => ?_, fun hended f => ⟨fun hf => ?_, ?_⟩, fun hne => absurd hnone hne⟩
  · have hbefore : h.collected ++ s.link.toHost.queue = List.replicate n .draw := by
      rw [huntold hst] at hn
      exact hn.trans (List.append_nil _)
    dsimp only
    rw [posted_append hms, hk, hnone]
    show h.collected ++ (s.link.toHost.queue ++ List.replicate k .draw) = _
    rw [← List.append_assoc, hbefore, List.replicate_append_replicate]
    exact (List.append_nil _).symm
  · dsimp only at hc
    rw [hk] at hc
    exact absurd hc (ne_true_of_eq_false hopen)
  · obtain ⟨m, hm, hesc⟩ := hhalt e he
    exact ⟨m, List.mem_append_left h hm, hesc⟩
  · dsimp only at hf
    rw [hnone] at hf
    cases hf
  · rintro ⟨e, ⟨m, hm, hesc⟩, -⟩
    rw [hend hended m hm] at hesc
    cases hesc

theorem Policed.stay (hw : Policed ⟨s, st, h⟩) (hst : st'.ended = st.ended)
    (hout : ms.collected ++ t.link.toHost.queue = s.link.toHost.queue)
    (hc : t.link.toHost.closed = true ↔ ∃ r, st' = .stopped r) (hfault : t.fault = s.fault)
    (hrun : t.running = s.running) (hms : ∀ m ∈ ms, m.escape = none)
    (hhalt : ∀ e, st' = .halting e → st = .halting e) : Policed ⟨t, st', ms ++ h⟩ := by
  obtain ⟨⟨n, hn⟩, -, huntold, hhalting, htold, hstopped⟩ := hw
  dsimp only at huntold hhalting htold hstopped
  refine ⟨⟨n, ?_⟩, hc, fun hended => hfault.trans (huntold (hst.symm.trans hended)), fun e he => ?_,
    fun hended f => ?_, fun hne => hrun.trans (hstopped fun hs => hne (hfault.trans hs))⟩
  · dsimp only
    rw [hfault, ← hn]
    show History.collected (ms ++ h) ++ t.link.toHost.queue = h.collected ++ s.link.toHost.queue
    rw [History.collected_append, List.append_assoc, hout]
  · exact (History.escaped_append hms e).mpr (hhalting e (hhalt e he))
  · show t.fault = some f ↔ ∃ e, History.Escaped (ms ++ h) e ∧ f = e.toFault
    rw [hfault, htold (hst.symm.trans hended) f]
    simp only [History.escaped_append hms]

theorem Policed.halt {e : Escape} {r : Except ChannelError Bool} (hw : Policed ⟨s, .halting e, h⟩)
    (ht : Trails ⟨s, .halting e, h⟩) (hs : s.halt e = (t, r)) :
    r = .ok false ∧ Policed ⟨t, .leaving none, h⟩ := by
  obtain ⟨⟨n, hn⟩, hclosed, huntold, hhalting, -, -⟩ := hw
  have hescaped : h.Escaped e := hhalting e rfl
  have hopen : s.link.toHost.closed = false := by
    refine eq_false_of_ne_true fun hc => ?_
    obtain ⟨r, hr⟩ := hclosed.mp hc
    cases hr
  have hsent : s.link.send .session (.fault e.toFault) =
      .ok { s.link with
        toHost := { s.link.toHost with queue := s.link.toHost.queue ++ [.fault e.toFault] } } := by
    show (s.link.toHost.send _).map _ = _
    rw [Pipe.send, if_neg (ne_true_of_eq_false hopen)]
    rfl
  unfold Session.halt at hs
  dsimp only [Session.say] at hs
  rw [hsent] at hs
  cases hs
  refine ⟨rfl, ⟨n, ?_⟩, ⟨fun hc => ?_, nofun⟩, nofun, nofun, fun _ f => ?_, fun _ => rfl⟩
  · rw [huntold rfl] at hn
    show h.collected ++ (s.link.toHost.queue ++ [.fault e.toFault]) = _
    rw [← List.append_assoc]
    exact congrArg (· ++ [Message.fault e.toFault]) (hn.trans (List.append_nil _))
  · exact absurd hc (ne_true_of_eq_false hopen)
  · show some e.toFault = some f ↔ _
    constructor
    · intro hf
      cases hf
      exact ⟨e, hescaped, rfl⟩
    · rintro ⟨e', ⟨m', hm', he'⟩, rfl⟩
      obtain ⟨m, hm, he⟩ := hescaped
      have hsame := ht.ends_unique hm hm' (Mark.ends_of_escape he) (Mark.ends_of_escape he')
      rw [← hsame, he] at he'
      cases he'
      rfl

theorem Trails.escape (hw : Trails ⟨s, st, h⟩) (hst : st.breaks = false)
    (hms : ∀ m ∈ ms, m.escape = none) : ∀ m ∈ ms ++ h, m.escape = none := by
  intro m hm
  rcases List.mem_append.mp hm with hnew | hold
  · exact hms m hnew
  · exact Mark.escape_of_not_ends (Stage.ends_of_bears hst (hw.bears m hold))

end

theorem Policed.host {w : World κ τ} (hw : w.Policed) {r : Session κ τ × History}
    (hr : w.session.Hosted r) : Policed ⟨r.1, w.stage, r.2 ++ w.history⟩ := by
  refine hw.stay rfl hr.posted ?_ hr.fault hr.running
    (fun m hm => Mark.escape_of_trails (Mark.trails_of_isHost (hr.marks m hm))) fun _ he => he
  rw [hr.toHost]
  exact hw.closed

variable [Time τ] [Clock κ τ]

theorem Policed.thread {w : World κ τ} (hw : w.Policed) (ht : w.Trails) {a : Advance κ τ}
    (ha : w.session.Advances w.stage a) : Policed ⟨a.session, a.stage, a.marks ++ w.history⟩ := by
  obtain ⟨s, st, (h : History)⟩ := w
  have hsame : ∃ n, s.link.toHost = s.link.toHost.drawn n := ⟨0, (Pipe.drawn_zero _).symm⟩
  cases ha with
  | hears hq => exact hw.draw rfl hsame rfl rfl nofun nofun nofun
  | hearsNothing hq => exact hw.draw rfl hsame rfl rfl nofun nofun nofun
  | goesOn hc => exact hw.draw rfl hsame rfl rfl nofun nofun nofun
  | disconnects hc =>
    exact hw.draw rfl hsame rfl rfl nofun nofun fun _ =>
      ht.escape rfl (List.forall_mem_singleton.mpr rfl)
  | @obeys b x t hx hr =>
    rcases Session.handle_cases hx with ⟨-, -, rfl⟩ | ⟨-, hdraws⟩
    · cases hr
    · exact hw.draw rfl hdraws.outbox hdraws.fault rfl nofun nofun nofun
  | @quits b x t hx hr =>
    have hnone : ∀ m ∈ [Mark.obeyed x none] ++ h, m.escape = none :=
      ht.escape rfl (List.forall_mem_singleton.mpr rfl)
    rcases Session.handle_cases hx with ⟨-, -, rfl⟩ | ⟨-, hdraws⟩
    · exact hw.draw rfl hsame rfl rfl nofun nofun fun _ => hnone
    · exact hw.draw rfl hdraws.outbox hdraws.fault rfl nofun nofun fun _ => hnone
  | @obeysNot b x t e hx =>
    rcases Session.handle_cases hx with ⟨-, he, -⟩ | ⟨-, hdraws⟩
    · cases he
    · refine hw.draw rfl hdraws.outbox hdraws.fault rfl nofun (fun e' he' => ?_) nofun
      cases he'
      exact ⟨_, List.mem_singleton_self _, rfl⟩
  | rests hp => exact hw.draw rfl hsame rfl rfl nofun nofun nofun
  | due hp hd => exact hw.draw rfl hsame rfl rfl nofun nofun nofun
  | notDue hp hd => exact hw.draw rfl hsame rfl rfl nofun nofun nofun
  | counts hs =>
    have hdraws := Session.Draws.timerTick hs
    exact hw.draw rfl hdraws.outbox hdraws.fault rfl nofun nofun nofun
  | countsNot hs =>
    have hdraws := Session.Draws.timerTick hs
    refine hw.draw rfl hdraws.outbox hdraws.fault rfl nofun (fun e' he' => ?_) nofun
    cases he'
    exact ⟨_, List.mem_singleton_self _, rfl⟩
  | steps hs =>
    have hdraws := Session.Draws.act_tick hs
    exact hw.draw rfl hdraws.outbox hdraws.fault rfl nofun nofun nofun
  | stepsNot hs =>
    have hdraws := Session.Draws.act_tick hs
    refine hw.draw rfl hdraws.outbox hdraws.fault rfl nofun (fun e' he' => ?_) nofun
    cases he'
    exact ⟨_, List.mem_singleton_self _, rfl⟩
  | halts hs => exact (hw.halt ht hs).2
  | haltsUnheard hs => cases (hw.halt ht hs).1
  | waits hi hl => exact hw.draw rfl hsame rfl rfl nofun nofun nofun
  | waited hi hl => exact hw.draw rfl hsame rfl rfl nofun nofun nofun
  | waitsNot hi =>
    exact hw.draw rfl hsame rfl rfl nofun nofun fun _ => ht.escape rfl (List.forall_mem_nil _)
  | @drops r =>
    refine hw.stay rfl rfl ⟨fun hc => ?_, nofun⟩ rfl rfl (List.forall_mem_singleton.mpr rfl) nofun
    obtain ⟨r', hr⟩ := hw.closed.mp hc
    cases hr
  | @closes r =>
    exact hw.stay rfl rfl ⟨fun _ => ⟨r, rfl⟩, fun _ => rfl⟩ rfl rfl (List.forall_mem_nil _) nofun
  | stays => exact hw

theorem Reached.policed {w : World κ τ} (hw : w.Reached) : w.Policed :=
  reached_invariant
    (fun _ _ _ _ _ => ⟨⟨0, rfl⟩, ⟨nofun, nofun⟩, fun _ => rfl, nofun, nofun, nofun⟩)
    (fun _ _ hw ha hp => hp.thread hw.trails ha) (fun w a _ hp => hp.host (w.session.hosted a)) hw

omit [Time τ] [Clock κ τ] in
theorem Policed.told_iff {w : World κ τ} (hw : w.Policed) (hst : w.stage.ended = true)
    (f : SessionFault) : w.session.fault = some f ↔
      w.history.Escaped (.fault f) ∨ ∃ c, w.history.Escaped (.cause c) ∧ f = ⟨c⟩ := by
  rw [hw.told hst f]
  constructor
  · rintro ⟨e, he, hf⟩
    cases e with
    | cause c => exact .inr ⟨c, he, hf⟩
    | fault g => exact .inl (hf ▸ he)
  · rintro (he | ⟨c, he, hf⟩)
    · exact ⟨_, he, rfl⟩
    · exact ⟨_, he, hf⟩

/-- a session that is over has posted pictures, and after them, if something escaped, a fault:
that which escaped if it was one, and otherwise one that wraps the cause that escaped. Nothing was
heard, obeyed, counted or stepped after it. Nothing escaped from a session that was shut down or
disconnected. -/
theorem ended_policy {w : World κ τ} (hw : w.Reached) {r : Option RunError}
    (hr : w.stage = .stopped r) :
    (∃ n, w.posted = List.replicate n .draw ++ (w.session.fault.map Message.fault).toList) ∧
      w.session.link.toHost.closed = true ∧
      (∀ f, w.session.fault = some f ↔
        w.history.Escaped (.fault f) ∨ ∃ c, w.history.Escaped (.cause c) ∧ f = ⟨c⟩) ∧
      (∀ (after before : History) m e, w.history = after ++ m :: before → m.escape = some e →
        (∀ f, e = .fault f → w.session.fault = some f) ∧
          (∀ c, e = .cause c → w.session.fault = some ⟨c⟩) ∧ w.session.running = false ∧
          ∀ n ∈ after, n.trails = true) ∧
      (.disconnected ∈ w.history ∨ .obeyed .shutdown none ∈ w.history →
        w.session.fault = none ∧ ∀ f, .fault f ∉ w.posted) := by
  have hpoliced := hw.policed
  obtain ⟨k, hk⟩ := hpoliced.posted
  have hended : w.stage.ended = true := by
    rw [hr]
    rfl
  have htold := hpoliced.told_iff hended
  refine ⟨⟨k, hk⟩, hpoliced.closed.mpr ⟨r, hr⟩, htold, fun after before m e hsplit he => ?_,
    fun hcalm => ?_⟩
  · have hescaped : w.history.Escaped e :=
      ⟨m, by rw [hsplit]; exact List.mem_append_right after List.mem_cons_self, he⟩
    have hsome : w.session.fault ≠ none := by
      rw [(hpoliced.told hended e.toFault).mpr ⟨e, hescaped, rfl⟩]
      exact Option.some_ne_none _
    refine ⟨fun f hf => ?_, fun c hc => ?_, hpoliced.stopped hsome,
      (hw.trails.nothing_after hsplit (Mark.ends_of_escape he)).1⟩
    · exact (htold f).mpr (.inl (hf ▸ hescaped))
    · exact (htold ⟨c⟩).mpr (.inr ⟨c, hc ▸ hescaped, rfl⟩)
  · have hfault : w.session.fault = none := by
      by_contra hne
      obtain ⟨f, hf⟩ := Option.ne_none_iff_exists'.mp hne
      obtain ⟨e, ⟨m, hm, he⟩, -⟩ := (hpoliced.told hended f).mp hf
      rcases hcalm with hcalm | hcalm
      · cases hw.trails.ends_unique hm hcalm (Mark.ends_of_escape he) rfl
        cases he
      · cases hw.trails.ends_unique hm hcalm (Mark.ends_of_escape he) rfl
        cases he
    refine ⟨hfault, fun f hf => ?_⟩
    rw [hk, hfault, Option.map_none, Option.toList_none, List.append_nil] at hf
    cases List.eq_of_mem_replicate hf

/-- a paused session is asked twice for a saved state with a ticket that was called off: the first
request only notes that, and the second one escapes -/
def spentTicket : World (Ticker Rat) Rat :=
  (start (.ofMachine (.fresh (.cycle #[]) false)) ⟨0, 1⟩ (some 0) 1 .empty).run
    ([.host (.tell .pause), .host (.ask .pending), .host (.cancel 0), .host (.tell (.snapshot 0))]
      ++ List.replicate 12 .thread)

theorem ended_policy_spentTicket :
    spentTicket.Reached ∧ spentTicket.stage = .stopped none ∧
      spentTicket.session.tickets.get? 0 = some .notified ∧
      spentTicket.posted = [.fault ⟨.ticketSpent⟩] ∧
      spentTicket.session.fault = some ⟨.ticketSpent⟩ ∧ spentTicket.session.running = false := by
  have hreached : spentTicket.Reached := ⟨_, _, _, _, _, _, rfl⟩
  have hsplit : spentTicket.history = [.dropped []] ++
      .obeyed (.snapshot 0) (some (.cause .ticketSpent)) :: spentTicket.history.drop 2 := rfl
  obtain ⟨-, -, -, hescaped, -⟩ := ended_policy hreached (r := none) rfl
  obtain ⟨-, hcause, hstopped, -⟩ := hescaped _ _ _ _ hsplit rfl
  exact ⟨hreached, rfl, rfl, rfl, hcause _ rfl, hstopped⟩

end World

end ChipEight
