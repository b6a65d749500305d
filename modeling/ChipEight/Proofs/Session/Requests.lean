import ChipEight.Proofs.Session.Delay
import ChipEight.Proofs.Session.Order

/-!
# Requests

A host that asks for a saved state brings a ticket. Whatever becomes of the session, no such ticket
is left open.

* `Tickets.Numbered`     tickets are numbered by how many there were before;
* `History.Broke h n`    a state that could not be put together broke off the answer to `n`;
* `Tickets.Settles`      each ticket is as it was, or settled, or its answer broke off;
* `Session.get?_cancelAll`   which tickets are called off at the end;
* `Session.Advances.wellFormed`   the machine keeps its bounds;
* `World.Requested`      a ticket that was open is settled once its request was obeyed or dropped,
  unless its answer broke off;
* `run_requested`, `run_unbroken`   so it is in every run, and no answer breaks off for a machine
  that is well formed.
-/

namespace ChipEight

/-! ## tickets -/

def Tickets.Numbered (ts : Tickets) : Prop := (ts.map Prod.fst).Perm (List.range ts.length)

def Ticket.isSettled : Ticket → Bool
  | .answered _ | .cancelled | .notified => true
  | _ => false

def History.Broke (h : History) (n : Nat) : Prop :=
  ∃ e, .obeyed (.snapshot n) (some (.cause (.unpackable e))) ∈ h

theorem History.Broke.after {h : History} {n : Nat} (hb : h.Broke n) (ms : History) :
    Broke (ms ++ h) n := by
  obtain ⟨e, he⟩ := hb
  exact ⟨e, List.mem_append_right ms he⟩

theorem History.Broke.before {ms : History} {n : Nat} (hb : ms.Broke n) (h : History) :
    Broke (ms ++ h) n := by
  obtain ⟨e, he⟩ := hb
  exact ⟨e, List.mem_append_left h he⟩

namespace Tickets

variable {ts : Tickets} {n k : Nat} {t : Ticket}

theorem isSome_get?_iff : (ts.get? n).isSome = true ↔ n ∈ ts.map Prod.fst := by
  induction ts with
  | nil => simp [get?]
  | cons p ts ih =>
    obtain ⟨i, u⟩ := p
    rw [get?, List.lookup_cons, List.map_cons, List.mem_cons]
    by_cases hi : n = i
    · simp [hi]
    · rw [beq_false_of_ne hi]
      exact ih.trans (by simp [hi])

theorem Numbered.isSome_get?_iff (h : ts.Numbered) :
    (ts.get? n).isSome = true ↔ n < ts.length := by
  rw [Tickets.isSome_get?_iff, h.mem_iff, List.mem_range]

theorem Numbered.issue (h : ts.Numbered) (t : Ticket) : Numbered ((ts.length, t) :: ts) := by
  show (ts.length :: ts.map Prod.fst).Perm (List.range (ts.length + 1))
  rw [List.range_succ]
  exact (h.cons _).trans (List.perm_append_singleton _ _).symm

theorem Numbered.set (h : ts.Numbered) (hn : (ts.get? n).isSome = true) (t : Ticket) :
    (ts.set n t).Numbered := by
  have hmem : n ∈ ts.map Prod.fst := Tickets.isSome_get?_iff.mp hn
  have hnodup : (ts.map Prod.fst).Nodup := h.nodup_iff.mpr List.nodup_range
  have hkeys : ((ts.set n t).map Prod.fst).Perm (ts.map Prod.fst) := by
    have hfilter : (ts.filter (·.1 != n)).map Prod.fst = (ts.map Prod.fst).erase n := by
      rw [hnodup.erase_eq_filter, List.filter_map]
      rfl
    show (n :: (ts.filter (·.1 != n)).map Prod.fst).Perm _
    rw [hfilter]
    exact (List.perm_cons_erase hmem).symm
  have hlength : (ts.set n t).length = ts.length := by
    simpa using hkeys.length_eq
  rw [Numbered, hlength]
  exact hkeys.trans h

theorem get?_cancel (ts : Tickets) (n : Nat) :
    (ts.cancel n).get? n = if ts.get? n = some .pending then some .cancelled else ts.get? n := by
  unfold cancel
  split
  · rename_i hp
    rw [get?_set, if_pos hp]
  · rename_i hp
    rw [if_neg hp]

structure Settles (ms : History) (ts us : Tickets) : Prop where
  numbered : ts.Numbered → us.Numbered
  each : ∀ n, us.get? n = ts.get? n ∨
    ∃ t, us.get? n = some t ∧ (t.isSettled = true ∨ t = .running ∧ ms.Broke n)

variable {ms : History}

theorem Settles.refl (ts : Tickets) : ts.Settles ms ts := ⟨id, fun _ => .inl rfl⟩

theorem Settles.trans {us vs : Tickets} (h : ts.Settles ms us) (h' : us.Settles ms vs) :
    ts.Settles ms vs := by
  refine ⟨fun hts => h'.numbered (h.numbered hts), fun n => ?_⟩
  rcases h'.each n with hsame | hsettled
  · rw [hsame]
    exact h.each n
  · exact .inr hsettled

theorem settles_set (hn : (ts.get? n).isSome = true)
    (ht : t.isSettled = true ∨ t = .running ∧ ms.Broke n) : ts.Settles ms (ts.set n t) := by
  refine ⟨fun hts => hts.set hn t, fun k => ?_⟩
  by_cases hk : k = n
  · subst hk
    exact .inr ⟨t, get?_set ts k t, ht⟩
  · exact .inl (get?_set_ne hk ts t)

theorem settles_cancel (ts : Tickets) (n : Nat) : ts.Settles ms (ts.cancel n) := by
  unfold cancel
  split
  · rename_i hp
    exact settles_set (by rw [hp]; rfl) (.inl rfl)
  · exact .refl ts

end Tickets

namespace Session

theorem get?_cancelAll (ts : Tickets) (xs : List Message) (k : Nat) :
    (cancelAll ts xs).get? k =
      if .snapshot k ∈ xs ∧ ts.get? k = some .pending then some .cancelled else ts.get? k := by
  induction xs generalizing ts with
  | nil => simp [cancelAll]
  | cons x xs ih =>
    cases x with
    | snapshot n =>
      show (cancelAll (ts.cancel n) xs).get? k = _
      rw [ih]
      by_cases hk : k = n
      · subst hk
        rw [Tickets.get?_cancel]
        by_cases hp : ts.get? k = some .pending <;> simp [hp]
      · rw [Tickets.get?_cancel_ne hk]
        simp [hk]
    | _ =>
      show (cancelAll ts xs).get? k = _
      rw [ih]
      simp

theorem settles_cancelAll {ms : History} (ts : Tickets) (xs : List Message) :
    ts.Settles ms (cancelAll ts xs) := by
  induction xs generalizing ts with
  | nil => exact .refl ts
  | cons x xs ih =>
    cases x with
    | snapshot n => exact (ts.settles_cancel n).trans (ih (ts.cancel n))
    | _ => exact ih ts

end Session

/-! ## the machine -/

theorem Machine.hear_perform (m : Machine) (x : Message) :
    m.hear x = m ∨ ∃ o, m.hear x = (m.perform o).1 := by
  cases x with
  | pause => exact .inr ⟨.pause, rfl⟩
  | unpause => exact .inr ⟨.unpause, rfl⟩
  | keyReleased k => exact .inr ⟨.release k, rfl⟩
  | _ => exact .inl rfl

namespace Session

variable {κ τ : Type} [Time τ] [Clock κ τ] {s t : Session κ τ}

theorem machine_handle {x : Message} {e : Option Escape} (h : s.handle x = (t, e)) :
    t.machine = s.machine.hear x := congrArg Console.machine (handles h).console

theorem machine_timerTick {r : Except Escape Bool} (h : s.timerTick = (t, r)) :
    t.machine = (s.machine.perform .tick60).1 := by
  obtain ⟨timer, clock, rfl⟩ := timerTick_eq h
  rfl

omit [Time τ] [Clock κ τ] in
theorem machine_act_tick {r : Except Escape Bool} (h : s.act Console.tick = (t, r)) :
    t.machine = (s.machine.perform .tick).1 := by
  obtain rfl : (s.act Console.tick).1 = t := congrArg Prod.fst h
  exact Console.machine_tick _ _

theorem Advances.machine {st : Stage τ} {a : Advance κ τ} (h : s.Advances st a) :
    a.session.machine = s.machine ∨ ∃ o, a.session.machine = (s.machine.perform o).1 := by
  cases h with
  | @obeys b x t ht hr =>
    rw [machine_handle ht]
    exact s.machine.hear_perform x
  | @quits b x t ht hr =>
    rw [machine_handle ht]
    exact s.machine.hear_perform x
  | @obeysNot b x t e ht =>
    rw [machine_handle ht]
    exact s.machine.hear_perform x
  | counts ht => exact .inr ⟨.tick60, machine_timerTick ht⟩
  | countsNot ht => exact .inr ⟨.tick60, machine_timerTick ht⟩
  | steps ht => exact .inr ⟨.tick, machine_act_tick ht⟩
  | stepsNot ht => exact .inr ⟨.tick, machine_act_tick ht⟩
  | halts ht => exact .inl (congrArg Console.machine (halt_stays ht).2.2.2.1)
  | haltsUnheard ht => exact .inl (congrArg Console.machine (halt_stays ht).2.2.2.1)
  | _ => exact .inl rfl

theorem Advances.wellFormed {st : Stage τ} {a : Advance κ τ} (h : s.Advances st a)
    (hw : s.machine.state.WellFormed) : a.session.machine.state.WellFormed := by
  rcases h.machine with hm | ⟨o, hm⟩
  · rw [hm]
    exact hw
  · rw [hm]
    exact Machine.perform_wellFormed hw o

omit [Time τ] [Clock κ τ] in
theorem Hosted.wellFormed {r : Session κ τ × History} (h : s.Hosted r)
    (hw : s.machine.state.WellFormed) : r.1.machine.state.WellFormed := by
  obtain ⟨keypad, hm⟩ := h.machine
  rw [hm]
  exact hw

/-! ## which tickets change -/

/-- what obeying a message does to a ticket -/
inductive Answers (s : Session κ τ) (x : Message) (e : Option Escape) : Tickets → Prop where
  | kept (hx : ∀ n, x = .snapshot n → s.tickets.get? n ≠ some .pending) : Answers s x e s.tickets
  | answered {n : Nat} {bytes : List UInt8} (hx : x = .snapshot n)
      (hn : s.tickets.get? n = some .pending) (hb : s.machine.snapshot = .ok bytes) :
      Answers s x e (s.tickets.set n (.answered bytes))
  | broken {n : Nat} {why : PackError} (hx : x = .snapshot n)
      (hn : s.tickets.get? n = some .pending) (hb : s.machine.snapshot = .error why)
      (he : e = some (.cause (.unpackable why))) : Answers s x e (s.tickets.set n .running)
  | noticed {n : Nat} (hx : x = .snapshot n) (hn : s.tickets.get? n = some .cancelled) :
      Answers s x e (s.tickets.set n .notified)

theorem tickets_handle {x : Message} {e : Option Escape} (h : s.handle x = (t, e)) :
    s.Answers x e t.tickets := by
  obtain rfl : (s.handle x).1 = t := congrArg Prod.fst h
  obtain rfl : (s.handle x).2 = e := congrArg Prod.snd h
  cases x with
  | snapshot n =>
    have hdone : s.handle (.snapshot n) = s.doSnapshot n := rfl
    rw [hdone, doSnapshot]
    split
    · rename_i hp
      split
      · rename_i hb
        exact .answered rfl hp hb
      · rename_i hb
        exact .broken rfl hp hb rfl
    · rename_i hp
      exact .noticed rfl hp
    · rename_i hp _
      refine .kept fun k hk => ?_
      cases hk
      exact hp
  | pause =>
    unfold handle doPause
    dsimp only
    split <;> exact .kept fun _ hx => by cases hx
  | unpause =>
    unfold handle doUnpause
    dsimp only
    split <;> exact .kept fun _ hx => by cases hx
  | save path =>
    obtain ⟨files, log, e, hdone⟩ := s.doSave_eq path
    rw [handle, hdone]
    exact .kept fun _ hx => by cases hx
  | _ => exact .kept fun _ hx => by cases hx

omit [Time τ] [Clock κ τ] in
theorem doSnapshot_whole {bytes : List UInt8} (hb : s.machine.snapshot = .ok bytes) (n : Nat)
    {why : PackError} : (s.doSnapshot n).2 ≠ some (.cause (.unpackable why)) := by
  unfold doSnapshot
  split
  · rw [hb]
    nofun
  · nofun
  · nofun

theorem tickets_timerTick {r : Except Escape Bool} (h : s.timerTick = (t, r)) :
    t.tickets = s.tickets := by
  obtain ⟨timer, clock, rfl⟩ := timerTick_eq h
  rfl

omit [Time τ] [Clock κ τ] in
theorem tickets_act_tick {r : Except Escape Bool} (h : s.act Console.tick = (t, r)) :
    t.tickets = s.tickets := congrArg (fun r => r.1.tickets) h.symm

end Session

/-! ## no ticket is left open -/

theorem History.mem_sent_of_asked {h : History} {n : Nat} {t : Ticket} (hm : .asked n t ∈ h) :
    .snapshot n ∈ h.sent :=
  mem_messages.mpr ⟨_, hm, List.mem_singleton_self _⟩

namespace World

variable {κ τ : Type}

structure Requested (w : World κ τ) : Prop where
  numbered : w.session.tickets.Numbered
  known : ∀ n, .snapshot n ∈ w.history.sent → (w.session.tickets.get? n).isSome = true
  asked : ∀ n, .asked n .pending ∈ w.history → ∃ t, w.session.tickets.get? n = some t ∧
    ((t.isSettled = true ∨ t = .running ∧ w.history.Broke n) ∨
      t = .pending ∧ .snapshot n ∉ w.history.obeyed ∧ .snapshot n ∉ w.history.dropped)

section
variable {s t : Session κ τ} {st st' : Stage τ} {h ms : History}

theorem Requested.step (hw : Requested ⟨s, st, h⟩) (ht : s.tickets.Settles ms t.tickets)
    (hsent : ms.sent = []) (hopen : ∀ n, t.tickets.get? n = some .pending →
      .snapshot n ∉ ms.obeyed ∧ .snapshot n ∉ ms.dropped) : Requested ⟨t, st', ms ++ h⟩ := by
  obtain ⟨hnumbered, hknown, hasked⟩ := hw
  dsimp only at hnumbered hknown hasked
  refine ⟨ht.numbered hnumbered, fun n hn => ?_, fun n hn => ?_⟩ <;> dsimp only at hn ⊢
  · rw [History.sent_append, hsent, List.append_nil] at hn
    rcases ht.each n with hsame | ⟨u, hu, -⟩
    · rw [hsame]
      exact hknown n hn
    · rw [hu]
      rfl
  · have hold : .asked n .pending ∈ h := by
      refine (List.mem_append.mp hn).resolve_left fun hnew => ?_
      have hmem := History.mem_sent_of_asked hnew
      rw [hsent] at hmem
      cases hmem
    obtain ⟨u, hu, hstate⟩ := hasked n hold
    rcases ht.each n with hsame | ⟨v, hv, hover⟩
    · refine ⟨u, hsame.trans hu, hstate.imp ?_ fun ⟨hp, hno, hnd⟩ => ⟨hp, ?_, ?_⟩⟩
      · exact fun hover => hover.imp_right fun ⟨hrun, hb⟩ => ⟨hrun, hb.after ms⟩
      · rw [History.obeyed_append, List.mem_append, not_or]
        exact ⟨hno, (hopen n (hsame.trans (hu.trans (congrArg some hp)))).1⟩
      · rw [History.dropped_append, List.mem_append, not_or]
        exact ⟨hnd, (hopen n (hsame.trans (hu.trans (congrArg some hp)))).2⟩
    · exact ⟨v, hv, .inl (hover.imp_right fun ⟨hrun, hb⟩ => ⟨hrun, hb.before h⟩)⟩

theorem Requested.keep (hw : Requested ⟨s, st, h⟩) (ht : t.tickets = s.tickets)
    (hsent : ms.sent = []) (hobeyed : ms.obeyed = []) (hdropped : ms.dropped = []) :
    Requested ⟨t, st', ms ++ h⟩ := by
  refine hw.step (ht ▸ .refl _) hsent fun n _ => ?_
  rw [hobeyed, hdropped]
  exact ⟨List.not_mem_nil, List.not_mem_nil⟩

theorem Requested.drop {xs : List Message} (hw : Requested ⟨s, st, h⟩)
    (ht : t.tickets = Session.cancelAll s.tickets xs) :
    Requested ⟨t, st', [.dropped xs] ++ h⟩ := by
  refine hw.step (ht ▸ Session.settles_cancelAll _ xs) rfl fun n hp => ?_
  rw [ht, Session.get?_cancelAll] at hp
  split at hp
  · cases hp
  · rename_i hx
    exact ⟨List.not_mem_nil, fun hmem => hx ⟨hmem, hp⟩⟩

theorem Requested.ask (hw : Requested ⟨s, st, h⟩) (ho : Orderly ⟨s, st, h⟩) (t : Ticket) :
    Requested
      ⟨(s.issue t).2.mailed (.snapshot s.tickets.length), st,
        .asked s.tickets.length t :: h⟩ := by
  obtain ⟨hnumbered, hknown, hasked⟩ := hw
  obtain ⟨-, hall, hheard, -⟩ := ho
  dsimp only at hnumbered hknown hasked hall hheard
  have hsent : History.sent (.asked s.tickets.length t :: h) =
      h.sent ++ [.snapshot s.tickets.length] := rfl
  have hobeyed : History.obeyed (.asked s.tickets.length t :: h) = h.obeyed := List.append_nil _
  have hdropped : History.dropped (.asked s.tickets.length t :: h) = h.dropped :=
    List.append_nil _
  have hfresh : .snapshot s.tickets.length ∉ h.sent := fun hmem =>
    absurd (hnumbered.isSome_get?_iff.mp (hknown _ hmem)) (Nat.lt_irrefl _)
  have hself : Tickets.get? ((s.tickets.length, t) :: s.tickets) s.tickets.length = some t :=
    List.lookup_cons_self
  have hother {n : Nat} (hn : n ≠ s.tickets.length) :
      Tickets.get? ((s.tickets.length, t) :: s.tickets) n = s.tickets.get? n := by
    rw [Tickets.get?, List.lookup_cons, beq_false_of_ne hn]
    rfl
  refine ⟨hnumbered.issue t, fun n hn => ?_, fun n hn => ?_⟩
  · show (Tickets.get? ((s.tickets.length, t) :: s.tickets) n).isSome = true
    by_cases heq : n = s.tickets.length
    · rw [heq, hself]
      rfl
    · rw [hother heq]
      dsimp only at hn
      rw [hsent, List.mem_append, List.mem_singleton] at hn
      exact hknown n (hn.resolve_right fun hnew => heq (Message.snapshot.inj hnew))
  · show ∃ u, Tickets.get? ((s.tickets.length, t) :: s.tickets) n = some u ∧ _
    dsimp only
    rw [hobeyed, hdropped]
    rcases List.mem_cons.mp hn with hnew | hold
    · cases hnew
      refine ⟨.pending, hself, .inr ⟨rfl, fun hmem => hfresh ?_, fun hmem => hfresh ?_⟩⟩
      · rw [hall, hheard]
        simp [hmem]
      · rw [hall]
        simp [hmem]
    · obtain ⟨u, hu, hstate⟩ := hasked n hold
      have heq : n ≠ s.tickets.length := fun heq =>
        hfresh (heq ▸ History.mem_sent_of_asked hold)
      refine ⟨u, (hother heq).trans hu, hstate.imp_left ?_⟩
      exact fun hover => hover.imp_right (And.imp_right fun hb => hb.after [_])

theorem Requested.tell (hw : Requested ⟨s, st, h⟩) {x : Message}
    (hx : s.tickets.covers x = true) : Requested ⟨s.mailed x, st, .told x :: h⟩ := by
  obtain ⟨hnumbered, hknown, hasked⟩ := hw
  dsimp only at hnumbered hknown hasked
  have hsent : History.sent (.told x :: h) = h.sent ++ [x] := rfl
  have hobeyed : History.obeyed (.told x :: h) = h.obeyed := List.append_nil _
  have hdropped : History.dropped (.told x :: h) = h.dropped := List.append_nil _
  refine ⟨hnumbered, fun n hn => ?_, fun n hn => ?_⟩ <;> dsimp only at *
  · rw [hsent, List.mem_append, List.mem_singleton] at hn
    rcases hn with hold | rfl
    · exact hknown n hold
    · exact hx
  · rw [hobeyed, hdropped]
    obtain ⟨u, hu, hstate⟩ := hasked n ((List.mem_cons.mp hn).resolve_left nofun)
    refine ⟨u, hu, hstate.imp_left ?_⟩
    exact fun hover => hover.imp_right (And.imp_right fun hb => hb.after [_])

variable [Time τ] [Clock κ τ]

theorem Requested.obey {b : τ} {x : Message} {e : Option Escape}
    (hw : Requested ⟨s, .obeying b x, h⟩) (ht : s.handle x = (t, e)) :
    Requested ⟨t, st', [.obeyed x e] ++ h⟩ := by
  have hanswers := Session.tickets_handle ht
  generalize hu : t.tickets = u at hanswers
  have hset {n : Nat} {v : Ticket} (hx : x = .snapshot n) (hu : t.tickets = s.tickets.set n v)
      (hopen : v ≠ .pending) (hn : (s.tickets.get? n).isSome = true)
      (hv : v.isSettled = true ∨ v = .running ∧ History.Broke [.obeyed x e] n) :
      Requested ⟨t, st', [.obeyed x e] ++ h⟩ := by
    refine hw.step (hu ▸ Tickets.settles_set hn hv) rfl fun k hp => ?_
    refine ⟨fun hmem => ?_, List.not_mem_nil⟩
    cases hx.symm.trans (List.mem_singleton.mp hmem).symm
    rw [hu, Tickets.get?_set] at hp
    exact hopen (Option.some.inj hp)
  cases hanswers with
  | kept hx =>
    refine hw.step (hu ▸ .refl _) rfl fun n hp => ⟨fun hmem => ?_, List.not_mem_nil⟩
    rw [hu] at hp
    exact hx n (List.mem_singleton.mp hmem).symm hp
  | answered hx hn hb => exact hset hx hu nofun (by rw [hn]; rfl) (.inl rfl)
  | @broken n why hx hn hb he =>
    refine hset hx hu nofun (by rw [hn]; rfl) (.inr ⟨rfl, why, ?_⟩)
    rw [hx, he]
    exact List.mem_singleton_self _
  | noticed hx hn => exact hset hx hu nofun (by rw [hn]; rfl) (.inl rfl)

end

variable [Time τ] [Clock κ τ]

theorem Requested.thread {w : World κ τ} (hw : w.Requested) {a : Advance κ τ}
    (ha : w.session.Advances w.stage a) :
    Requested ⟨a.session, a.stage, a.marks ++ w.history⟩ := by
  have hsent := ha.sent
  obtain ⟨s, st, (h : History)⟩ := w
  cases ha with
  | obeys ht hr => exact hw.obey ht
  | quits ht hr => exact hw.obey ht
  | obeysNot ht => exact hw.obey ht
  | counts ht => exact hw.keep (Session.tickets_timerTick ht) hsent rfl rfl
  | countsNot ht => exact hw.keep (Session.tickets_timerTick ht) hsent rfl rfl
  | steps ht => exact hw.keep (Session.tickets_act_tick ht) hsent rfl rfl
  | stepsNot ht => exact hw.keep (Session.tickets_act_tick ht) hsent rfl rfl
  | halts ht => exact hw.keep (Session.halt_stays ht).2.2.2.2 hsent rfl rfl
  | haltsUnheard ht => exact hw.keep (Session.halt_stays ht).2.2.2.2 hsent rfl rfl
  | drops => exact hw.drop rfl
  | _ => exact hw.keep rfl hsent rfl rfl

theorem Requested.host {w : World κ τ} (hw : w.Requested) (ho : w.Orderly) (a : Act) :
    Requested (w.move (.host a)) := by
  obtain ⟨s, st, (h : History)⟩ := w
  cases a with
  | tell x =>
    show Requested ⟨(s.undergo (.tell x)).1, st, (s.undergo (.tell x)).2 ++ h⟩
    unfold Session.undergo
    dsimp only
    split
    · exact hw
    · rename_i hopen
      refine hw.tell ?_
      simp only [Bool.or_eq_true, Bool.not_eq_true', not_or, Bool.not_eq_false] at hopen
      exact hopen.2
  | ask t =>
    show Requested ⟨(s.undergo (.ask t)).1, st, (s.undergo (.ask t)).2 ++ h⟩
    unfold Session.undergo
    dsimp only
    split
    · exact hw
    · exact hw.ask ho t
  | cancel n =>
    refine hw.step (s.tickets.settles_cancel n) rfl fun _ _ => ?_
    exact ⟨List.not_mem_nil, List.not_mem_nil⟩
  | press n => exact hw.keep rfl rfl rfl rfl
  | lift n => exact hw.keep rfl rfl rfl rfl
  | collect => exact hw.keep rfl rfl rfl rfl
  | close => exact hw.keep rfl rfl rfl rfl

/-- the machine is within its bounds, so that each of its states can be put together -/
structure Unbroken (w : World κ τ) : Prop where
  wellFormed : w.session.machine.state.WellFormed
  whole : ∀ n, ¬w.history.Broke n

omit [Time τ] [Clock κ τ] in
theorem Unbroken.step {w : World κ τ} (hw : w.Unbroken) {t : Session κ τ} {st : Stage τ}
    {ms : History} (ht : t.machine.state.WellFormed) (hms : ∀ n, ¬ms.Broke n) :
    Unbroken ⟨t, st, ms ++ w.history⟩ := by
  refine ⟨ht, fun n ⟨e, he⟩ => ?_⟩
  rcases List.mem_append.mp he with hnew | hold
  · exact hms n ⟨e, hnew⟩
  · exact hw.whole n ⟨e, hold⟩

theorem Unbroken.thread {w : World κ τ} (hw : w.Unbroken) {a : Advance κ τ}
    (ha : w.session.Advances w.stage a) : Unbroken ⟨a.session, a.stage, a.marks ++ w.history⟩ := by
  refine hw.step (ha.wellFormed hw.wellFormed) fun n ⟨e, he⟩ => ?_
  have hsaved : w.session.machine.snapshot = .ok w.session.machine.state.image :=
    State.encode_wellFormed hw.wellFormed
  obtain ⟨s, st, (h : History)⟩ := w
  cases ha with
  | obeysNot ht =>
    cases List.mem_singleton.mp he
    exact Session.doSnapshot_whole hsaved n (congrArg Prod.snd ht)
  | _ => simp at he

variable (c : Console) (clock : κ) (tickInterval : Option τ) (timerInterval : τ) (files : Files)

theorem run_requested (ms : List Move) :
    ((start c clock tickInterval timerInterval files).run ms).Requested := by
  have hstart : (start c clock tickInterval timerInterval files).Reached :=
    ⟨c, clock, tickInterval, timerInterval, files, [], rfl⟩
  exact hstart.run_invariant (fun _ _ _ ha hw => hw.thread ha)
    (fun _ a hr hw => hw.host hr.orderly a) ⟨.nil, nofun, nofun⟩ ms

theorem run_unbroken (hc : c.machine.state.WellFormed) (ms : List Move) :
    ((start c clock tickInterval timerInterval files).run ms).Unbroken := by
  refine run_invariant (fun _ _ ha hw => hw.thread ha) (fun w a hw => ?_) ⟨hc, nofun⟩ ms
  have hhosted := w.session.hosted a
  refine hw.step (hhosted.wellFormed hw.wellFormed) fun n ⟨e, he⟩ => ?_
  cases hhosted.marks _ he

end World

end ChipEight
