import ChipEight.Proofs.Session.Desk
import ChipEight.Proofs.Session.Informed

/-!
# What the host sees

* `Desk.Kept`            what the host knows is the last fault of what its polls have taken;
* `Desk.pending`         the pictures that no poll has answered for;
* `News.Exact`           each poll answers whether a picture was posted since the one before;
  `exact_reports`: so they do;
* `Desk.Settled f`       the session has ended with `f`, and the host knows of it; `Turns.settled`:
  that does not change any more;
* `Desk.Parted`          a shutdown that is done has left the desk so;
* `Kept.informed`        the host at its desk is one that knows what it has taken;
* `host_view`            all of this for every order of turns.
-/

namespace ChipEight

/-! ## what a turn leaves alone -/

theorem Act.tell_ne_collect (x : Message) : tell x ≠ collect := nofun

theorem Act.close_ne_collect : close ≠ collect := nofun

theorem Stage.ended_of_over {τ : Type} {st : Stage τ} (h : st.over = true) : st.ended = true := by
  obtain ⟨r, rfl⟩ := over_iff.mp h
  rfl

namespace Session

variable {κ τ : Type}

theorem collected_undergo (s : Session κ τ) {a : Act} (ha : a ≠ .collect) :
    (s.undergo a).2.collected = [] := by
  cases a with
  | tell x =>
    unfold undergo
    dsimp only
    split <;> rfl
  | ask t =>
    unfold undergo
    dsimp only
    split <;> rfl
  | collect => exact absurd rfl ha
  | _ => rfl

variable [Time τ] [Clock κ τ] {s : Session κ τ} {st : Stage τ} {a : Advance κ τ}

theorem Advances.ended (h : s.Advances st a) (hst : st.ended = true) :
    a.stage.ended = true ∧ a.session.link.toHost.queue = s.link.toHost.queue ∧
      a.session.fault = s.fault := by
  cases h with
  | drops => exact ⟨rfl, rfl, rfl⟩
  | closes => exact ⟨rfl, rfl, rfl⟩
  | stays => exact ⟨rfl, rfl, rfl⟩
  | _ => cases hst

theorem Advances.over (h : s.Advances st a) (hst : st.over = true) : a.stage.over = true := by
  cases h with
  | stays => rfl
  | _ => cases hst

end Session

namespace Desk

variable {κ τ : Type} {d e : Desk κ τ}

/-! ## what the host knows -/

structure Kept (d : Desk κ τ) : Prop where
  posting : d.world.Posting
  taken : ∃ taken, d.world.history.collected = taken ++ d.errand.got ∧
    d.fault = Host.lastFault none taken

/-- nothing was taken -/
theorem Kept.still (hd : d.Kept) (he : e.world.Posting)
    (hc : e.world.history.collected = d.world.history.collected)
    (hg : e.errand.got = d.errand.got) (hf : e.fault = d.fault) : e.Kept := by
  obtain ⟨taken, hcollected, hfault⟩ := hd.taken
  exact ⟨he, taken, by rw [hc, hcollected, hg], hf.trans hfault⟩

theorem hosted_collect {x : Message} {rest : List Message} {c : Bool}
    (hq : d.world.session.link.toHost = ⟨x :: rest, c⟩) :
    d.world.session.Hosted ((d.collect x ⟨rest, c⟩).session, [.collected [x]]) := by
  refine { Session.Hosted.unsent d.world.session d.world.session.tickets with
    marks := List.forall_mem_singleton.mpr rfl
    posted := ?_
    toHost := ?_ }
  · rw [hq]
    rfl
  · rw [hq]
    rfl

variable [Time τ] [Clock κ τ] {t : Turn}

theorem collected_host (w : World κ τ) {a : Act} (ha : a ≠ .collect) :
    (w.move (.host a)).history.collected = w.history.collected := by
  show History.collected (_ ++ _) = _
  rw [History.collected_append, Session.collected_undergo _ ha, List.append_nil]

theorem Turns.kept (h : d.Turns t e) (hd : d.Kept) : e.Kept := by
  have hhost (a : Act) : (d.world.move (.host a)).Posting :=
    hd.posting.host (d.world.session.hosted a)
  cases h with
  | thread =>
    have hadvances := d.world.session.advances d.world.stage
    refine hd.still (hd.posting.thread hadvances) ?_ rfl rfl
    show History.collected (_ ++ _) = _
    rw [History.collected_append, hadvances.collected, List.append_nil]
  | act ha => exact hd.still (hhost _) (collected_host _ ha) rfl rfl
  | polls he =>
    refine hd.still hd.posting rfl ?_ rfl
    rw [he]
    rfl
  | tells he hs =>
    refine hd.still (hhost _) (collected_host _ (Act.tell_ne_collect _)) ?_ rfl
    rw [he]
    rfl
  | hangsUp he =>
    refine hd.still (hhost _) (collected_host _ Act.close_ne_collect) ?_ rfl
    rw [he]
    rfl
  | joins he ho =>
    refine hd.still hd.posting rfl ?_ rfl
    rw [he]
    rfl
  | @takes got parting x rest c he hq =>
    obtain ⟨taken, hcollected, hfault⟩ := hd.taken
    rw [he] at hcollected
    refine ⟨hd.posting.host (hosted_collect hq), taken, ?_, hfault⟩
    show d.world.history.collected ++ [x] = _
    rw [hcollected, List.append_assoc]
    rfl
  | @answers got parting he hq =>
    obtain ⟨taken, hcollected, hfault⟩ := hd.taken
    rw [he] at hcollected
    refine ⟨hd.posting, taken ++ got, hcollected.trans (List.append_nil _).symm, ?_⟩
    rw [Host.lastFault_append, ← hfault]
  | stays ht hn => exact hd

end Desk

/-! ## what a poll answers -/

def News.Exact : Nat → List News → Prop
  | _, [] => True
  | n, .painted :: l => Exact (n + 1) l
  | n, .polled b :: l => (b = true ↔ 0 < n) ∧ Exact 0 l

namespace News

variable {l : List News} {b : Bool} {n : Nat}

theorem Exact.since_polled {before : List News} (h : Exact n (before ++ .polled b :: l)) :
    Exact 0 l := by
  induction before generalizing n with
  | nil => exact h.2
  | cons x before ih =>
    cases x with
    | painted => exact ih h
    | polled c => exact ih h.2

theorem Exact.answer {k : Nat} (h : Exact n (List.replicate k .painted ++ .polled b :: l)) :
    b = true ↔ 0 < n + k := by
  induction k generalizing n with
  | zero => exact h.1
  | succ k ih =>
    rw [Nat.add_comm k 1, ← Nat.add_assoc]
    exact ih h

/-- the answer of a poll, with what was posted since the one before or the beginning -/
theorem Exact.answer_since {before after : List News} {k : Nat}
    (h : Exact 0 (before ++ List.replicate k .painted ++ .polled b :: after))
    (hb : before = [] ∨ ∃ earlier c, before = earlier ++ [.polled c]) : b = true ↔ 0 < k := by
  rw [List.append_assoc] at h
  rcases hb with rfl | ⟨earlier, c, rfl⟩
  · simpa using h.answer
  · rw [List.append_assoc] at h
    simpa using h.since_polled.answer

end News

namespace Desk

variable {κ τ : Type} {d e : Desk κ τ}

/-- what was posted, and no poll has answered for yet -/
def held (d : Desk κ τ) : List Message := d.errand.got ++ d.inbox

def pending (d : Desk κ τ) : Nat := d.held.count .draw

theorem held_of_got (hg : d.errand.got = []) : d.held = d.inbox := by
  rw [held, hg, List.nil_append]

variable [Time τ] [Clock κ τ] {t : Turn}

theorem inbox_host (d : Desk κ τ) {a : Act} (ha : a ≠ .collect) :
    (d.world.move (.host a)).session.link.toHost.queue = d.inbox := by
  have hposted := (d.world.session.hosted a).posted
  rw [Session.collected_undergo _ ha] at hposted
  exact hposted

theorem pending_thread (hd : d.Kept) :
    (d.turn .thread).pending = d.pending + (d.world.session.paints d.world.stage).toNat := by
  have hcount := (d.world.session.advances d.world.stage).count_draw hd.posting.posts
    hd.posting.policed.isOpen
  rw [pending, pending, held, held, List.count_append, List.count_append, Nat.add_assoc]
  exact congrArg (d.errand.got.count .draw + ·) hcount

/-- what a turn adds to the news goes with what it leaves pending -/
theorem Turns.exact (h : d.Turns t e) (hd : d.Kept) {rest : List News}
    (hrest : News.Exact e.pending rest) : News.Exact d.pending (d.news t ++ rest) := by
  have hsame (hn : d.news t = []) (hheld : e.held = d.held) :
      News.Exact d.pending (d.news t ++ rest) := by
    rw [hn, pending, ← hheld]
    exact hrest
  cases h with
  | thread =>
    have hpending := pending_thread hd
    rw [turn] at hpending
    rw [hpending] at hrest
    rw [news]
    cases hp : d.world.session.paints d.world.stage with
    | true =>
      rw [hp] at hrest
      exact hrest
    | false =>
      rw [hp] at hrest
      exact hrest
  | act ha => exact hsame rfl (congrArg (d.errand.got ++ ·) (inbox_host d ha))
  | polls he =>
    refine hsame rfl ?_
    rw [held, held, he]
    rfl
  | tells he hs =>
    refine hsame rfl ?_
    rw [held, held, he]
    exact inbox_host d (Act.tell_ne_collect _)
  | hangsUp he =>
    refine hsame (news_of_not_polls (congrArg Errand.polls he)) ?_
    rw [held, held, he]
    exact inbox_host d Act.close_ne_collect
  | joins he ho =>
    refine hsame (news_of_not_polls (congrArg Errand.polls he)) ?_
    rw [held, held, he]
    rfl
  | @takes got parting x rest c he hq =>
    have hinbox : d.inbox = x :: rest := congrArg Pipe.queue hq
    have hsome : d.inbox ≠ [] := by
      rw [hinbox]
      exact List.cons_ne_nil x rest
    refine hsame (news_of_inbox hsome) ?_
    rw [held, held, he, hinbox]
    exact List.append_assoc got [x] rest
  | @answers got parting he hq =>
    have hheld : d.held = got := by
      rw [held, he, hq]
      exact List.append_nil got
    have hnone : pending { d with fault := Host.lastFault d.fault got, errand := .idle } = 0 :=
      congrArg (List.count Message.draw) hq
    rw [news_answers he hq, pending, hheld]
    rw [hnone] at hrest
    refine ⟨?_, hrest⟩
    rw [List.contains_iff_mem, List.count_pos_iff]
  | stays ht hn => exact hsame hn rfl

theorem exact_reports (hd : d.Kept) (ts : List Turn) : News.Exact d.pending (d.reports ts) := by
  induction ts generalizing d with
  | nil => trivial
  | cons t ts ih =>
    have hturn := d.turns t
    exact hturn.exact hd (ih (hturn.kept hd))

/-! ## once the session has ended -/

structure Settled (f : Option SessionFault) (d : Desk κ τ) : Prop where
  ended : d.world.stage.ended = true
  held : d.held = []
  fault : d.fault = f
  session : d.world.session.fault = f

theorem Turns.settled {f : Option SessionFault} (h : d.Turns t e) (hd : d.Settled f) :
    e.Settled f := by
  have hgot : d.errand.got = [] := (List.append_eq_nil_iff.mp hd.held).1
  have hinbox : d.inbox = [] := (List.append_eq_nil_iff.mp hd.held).2
  have hhost (a : Act) (ha : a ≠ .collect) (s : Bool) {w : Errand} (hw : w.got = []) :
      Settled f ⟨d.world.move (.host a), d.fault, s, w⟩ := by
    refine ⟨hd.ended, ?_, hd.fault, (d.world.session.hosted a).fault.trans hd.session⟩
    exact (held_of_got hw).trans ((inbox_host d ha).trans hinbox)
  cases h with
  | thread =>
    obtain ⟨hended, hqueue, hfault⟩ :=
      (d.world.session.advances d.world.stage).ended hd.ended
    refine ⟨hended, ?_, hd.fault, hfault.trans hd.session⟩
    exact (held_of_got (d := d.turn .thread) hgot).trans (hqueue.trans hinbox)
  | act ha => exact hhost _ ha _ hgot
  | polls he => exact ⟨hd.ended, hinbox, hd.fault, hd.session⟩
  | tells he hs => exact hhost _ (Act.tell_ne_collect _) true (w := .closing) rfl
  | hangsUp he => exact hhost _ Act.close_ne_collect d.shutDown (w := .joining) rfl
  | joins he ho => exact ⟨hd.ended, hinbox, hd.fault, hd.session⟩
  | takes he hq =>
    rw [show d.inbox = _ from congrArg Pipe.queue hq] at hinbox
    cases hinbox
  | answers he hq =>
    rw [he] at hgot
    obtain rfl := hgot
    exact ⟨hd.ended, hinbox, hd.fault, hd.session⟩
  | stays ht hn => exact hd

theorem settled_run {f : Option SessionFault} (hd : d.Settled f) (ts : List Turn) :
    (d.run ts).Settled f := by
  induction ts generalizing d with
  | nil => exact hd
  | cons t ts ih => exact ih ((d.turns t).settled hd)

omit [Time τ] [Clock κ τ] in
theorem Kept.settled (hd : d.Kept) (hst : d.world.stage.ended = true) (hh : d.held = []) :
    d.Settled d.world.session.fault := by
  obtain ⟨taken, hcollected, hfault⟩ := hd.taken
  obtain ⟨hgot, hinbox⟩ := List.append_eq_nil_iff.mp hh
  have htaken : d.world.posted = taken :=
    calc d.world.history.collected ++ d.inbox = d.world.history.collected := by
          rw [hinbox, List.append_nil]
      _ = taken := by rw [hcollected, hgot, List.append_nil]
  refine ⟨hst, hh, ?_, rfl⟩
  rw [hfault, ← htaken, hd.posting.policed.lastFault_posted]

omit [Time τ] [Clock κ τ] in
theorem Settled.fault_iff {f : Option SessionFault} (hd : d.Settled f) (hk : d.Kept) :
    d.fault ≠ none ↔ ∃ e, d.world.history.Escaped e := by
  have htold := hk.posting.policed.told hd.ended
  rw [hd.fault, ← hd.session, Option.ne_none_iff_exists']
  constructor
  · rintro ⟨g, hg⟩
    obtain ⟨e, he, -⟩ := (htold g).mp hg
    exact ⟨e, he⟩
  · rintro ⟨e, he⟩
    exact ⟨e.toFault, (htold _).mpr ⟨e, he, rfl⟩⟩

/-! ## shutdowns -/

theorem Turns.over (h : d.Turns t e) (ho : d.world.stage.over = true) :
    e.world.stage.over = true := by
  cases h with
  | thread => exact (d.world.session.advances d.world.stage).over ho
  | _ => exact ho

structure Parted (d : Desk κ τ) : Prop where
  joined : ∀ got, d.errand = .polling got true → d.world.stage.over = true
  parted : d.shutDown = true →
    d.errand.parts = true ∨ d.world.stage.over = true ∧ ∃ f, d.Settled f

theorem Turns.parted (h : d.Turns t e) (hk : d.Kept) (hd : d.Parted) : e.Parted := by
  have hover := h.over
  have hstill (hs : d.world.stage.over = true ∧ ∃ f, d.Settled f) :
      e.world.stage.over = true ∧ ∃ f, e.Settled f :=
    ⟨h.over hs.1, hs.2.imp fun f hf => h.settled hf⟩
  have hkept := h.kept hk
  cases h with
  | thread =>
    exact ⟨fun got hg => hover (hd.joined got hg), fun hs => (hd.parted hs).imp_right hstill⟩
  | act ha =>
    exact ⟨fun got hg => hover (hd.joined got hg), fun hs => (hd.parted hs).imp_right hstill⟩
  | polls he =>
    refine ⟨nofun, fun hs => .inr ?_⟩
    rcases hd.parted hs with hparts | hsettled
    · rw [he] at hparts
      cases hparts
    · exact hstill hsettled
  | tells he hs => exact ⟨nofun, fun _ => .inl rfl⟩
  | hangsUp he => exact ⟨nofun, fun _ => .inl rfl⟩
  | joins he ho => exact ⟨fun _ _ => ho, fun _ => .inl rfl⟩
  | takes he hq =>
    refine ⟨fun got hg => ?_, fun hs => ?_⟩
    · cases hg
      exact hd.joined _ he
    · refine (hd.parted hs).imp (fun hparts => ?_) hstill
      rw [he] at hparts
      exact hparts
  | @answers got parting he hq =>
    refine ⟨nofun, fun hs => .inr ?_⟩
    rcases hd.parted hs with hparts | hsettled
    · rw [he] at hparts
      obtain rfl : parting = true := hparts
      have ho := hd.joined got he
      exact ⟨ho, _, hkept.settled (Stage.ended_of_over ho) hq⟩
    · exact hstill hsettled
  | stays ht hn => exact hd

/-! ## every order of turns -/

theorem kept_run (hk : d.Kept) (hd : d.Parted) (ts : List Turn) :
    (d.run ts).Kept ∧ (d.run ts).Parted := by
  induction ts generalizing d with
  | nil => exact ⟨hk, hd⟩
  | cons t ts ih => exact ih ((d.turns t).kept hk) ((d.turns t).parted hk hd)

theorem kept_start (m : Machine) (clock : κ) (tickInterval : Option τ) (timerInterval : τ)
    (files : Files) : (start m clock tickInterval timerInterval files).Kept := by
  have hreached : (start m clock tickInterval timerInterval files).world.Reached :=
    ⟨_, _, _, _, _, [], rfl⟩
  exact ⟨⟨hreached.trails, hreached.policed, rfl⟩, [], rfl, rfl⟩

theorem posted_turn (d : Desk κ τ) (ht : t ≠ .thread) :
    (d.turn t).world.posted = d.world.posted := by
  have hturn := d.turns t
  generalize d.turn t = e at hturn ⊢
  cases hturn with
  | thread => exact absurd rfl ht
  | act ha => exact World.posted_host (d.world.session.hosted _)
  | tells he hs => exact World.posted_host (d.world.session.hosted _)
  | hangsUp he => exact World.posted_host (d.world.session.hosted _)
  | takes he hq => exact World.posted_host (hosted_collect hq)
  | _ => rfl

/-- a poll that answers leaves nothing; after the end of the session, the host knows by then -/
theorem Kept.answered (hk : d.Kept) {b : Bool} (h : d.answer? = some b) :
    (d.turn .proceed).errand = .idle ∧ (d.turn .proceed).inbox = [] ∧
      (d.world.stage.ended = true → (d.turn .proceed).Settled d.world.session.fault) := by
  obtain ⟨got, parting, he, hq⟩ := answer?_eq_some h
  have hkept := (d.turns .proceed).kept hk
  rw [turn_answers he hq] at hkept ⊢
  exact ⟨rfl, hq, fun hst => hkept.settled hst hq⟩

omit [Time τ] [Clock κ τ] in
/-- a host with nothing to do is one that may go on by whole iterations, if the thread is between
two of them or at its end -/
theorem Kept.informed (hk : d.Kept) (he : d.errand = .idle)
    (hst : d.world.stage.over = false → d.world.stage = .next) : d.host.Informed := by
  obtain ⟨taken, hcollected, hfault⟩ := hk.taken
  rw [he] at hcollected
  have hall : d.world.history.collected = taken := hcollected.trans (List.append_nil taken)
  refine ⟨taken, d.world.stage, ⟨d.world.history, hk.posting, hall⟩, fun ha => hst ?_, hfault⟩
  have halive : (!d.world.stage.over) = true := ha
  rwa [Bool.not_eq_true'] at halive

/-- what a host sees of a session on `m`, after any turns and whatever comes then: each step of the
thread that clears the screen or draws on it posts one picture, and nothing else posts any; a poll
answers whether one was posted since the poll before; it leaves nothing on the way, and once the
session has ended, the host knows the session's fault for good; so it does after a shutdown, and
there is one exactly if something has escaped. With nobody in between, a poll is `Host.poll`, and a
`Host.shutdown` by whole iterations leaves the host with the session's fault as well. -/
theorem host_view (m : Machine) (clock : κ) (tickInterval : Option τ) (timerInterval : τ)
    (files : Files) (ts : List Turn) :
    let first := start m clock tickInterval timerInterval files
    let d := first.run ts
    (d.turn .thread).world.posted.count .draw =
        d.world.posted.count .draw + (if d.world.session.paints d.world.stage then 1 else 0) ∧
      (∀ t, t ≠ .thread → (d.turn t).world.posted = d.world.posted) ∧
      (∀ before k b after,
        first.reports ts = before ++ List.replicate k .painted ++ .polled b :: after →
        (before = [] ∨ ∃ earlier c, before = earlier ++ [.polled c]) → (b = true ↔ 0 < k)) ∧
      (∀ b, d.answer? = some b →
        (d.turn .proceed).errand = .idle ∧ (d.turn .proceed).inbox = [] ∧
          (d.world.stage.ended = true → ∀ us,
            ((d.turn .proceed).run us).fault = d.world.session.fault ∧
              ((d.turn .proceed).run us).world.session.fault = d.world.session.fault)) ∧
      (d.shutDown = true → d.errand.parts = false →
        d.world.stage.over = true ∧ d.fault = d.world.session.fault ∧
          (d.fault ≠ none ↔ ∃ e, d.world.history.Escaped e)) ∧
      (d.errand = .idle →
        let poll := .poll :: List.replicate (d.inbox.length + 1) .proceed
        (d.run poll).host = d.host.poll.2 ∧ d.reports poll = [.polled d.host.poll.1]) ∧
      (d.errand = .idle → d.shutDown = false →
        (d.world.stage.over = false → d.world.stage = .next) → ∀ n,
          (d.host.shutdown n).session.link.toHost.queue = [] ∧
            (d.host.shutdown n).fault = (d.host.shutdown n).session.fault ∧
            ∀ k, (d.host.shutdown n).shutdown k = d.host.shutdown n) := by
  intro first d
  have hfirst : first.Kept := kept_start m clock tickInterval timerInterval files
  obtain ⟨hk, hd⟩ : d.Kept ∧ d.Parted := kept_run hfirst ⟨nofun, nofun⟩ ts
  refine ⟨?_, fun t ht => posted_turn d ht, fun before k b after hnews hb => ?_, fun b hb => ?_,
    fun hs hparts => ?_, fun he => run_poll he,
    fun he hs hst n => (hk.informed he hst).fault_shutdown hs n⟩
  · refine (hk.posting.count_posted (d.world.session.advances d.world.stage)).trans ?_
    cases d.world.session.paints d.world.stage <;> rfl
  · have hexact : News.Exact 0 (first.reports ts) := exact_reports hfirst ts
    rw [hnews] at hexact
    exact hexact.answer_since hb
  · obtain ⟨herrand, hinbox, hsettled⟩ := hk.answered hb
    refine ⟨herrand, hinbox, fun hst us => ?_⟩
    have hrun := settled_run (hsettled hst) us
    exact ⟨hrun.fault, hrun.session⟩
  · rcases hd.parted hs with hstill | ⟨hover, f, hf⟩
    · rw [hparts] at hstill
      cases hstill
    · exact ⟨hover, hf.fault.trans hf.session.symm, hf.fault_iff hk⟩

end Desk

end ChipEight
