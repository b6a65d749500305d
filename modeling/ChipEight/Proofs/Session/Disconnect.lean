import ChipEight.Proofs.Session.Order

/-!
# Disconnection

A thread that finds no message asks, in a step of its own, whether the host has closed. What the
host sends between those two looks is not found by either.

* `World.Looks`          the two looks, with all that was sent before, between and after them;
* `disconnected_between` a thread that disconnects has heard what was sent before its first look,
  and nothing else; the host has closed;
* `save_unheard`         a file to be written is asked for between the looks, and never written.
-/

namespace ChipEight.World

variable {κ τ : Type}

/-- `h` up to when no message was found, by when all that was sent was heard, and then what the host
did in `between` -/
structure Silent (h between before : History) : Prop where
  eq : h = between ++ .silence :: before
  host : ∀ m ∈ between, m.isHost = true
  heard : before.heard = before.sent

structure Looks (w : World κ τ) : Prop where
  asking : ∀ b, w.stage = .asking b → ∃ between before, Silent w.history between before
  disconnected : .disconnected ∈ w.history → ∃ (after rest between before : History),
    w.history = after ++ .disconnected :: rest ∧ Silent rest between before ∧ after.sent = [] ∧
      w.session.link.toSession.closed = true

section
variable {s t : Session κ τ} {st st' : Stage τ} {h ms : History}

/-- a step in which the thread does not disconnect -/
theorem Looks.step (hw : Looks ⟨s, st, h⟩)
    (hst : ∀ b, st' = .asking b → ∃ between before, Silent (ms ++ h) between before)
    (hms : .disconnected ∉ ms) (hsent : ms.sent = [])
    (hc : t.link.toSession.closed = s.link.toSession.closed) : Looks ⟨t, st', ms ++ h⟩ := by
  refine ⟨hst, fun hd => ?_⟩
  have hold : .disconnected ∈ h := (List.mem_append.mp hd).resolve_left hms
  obtain ⟨after, rest, between, before, heq, hsilent, hafter, hclosed⟩ := hw.disconnected hold
  refine ⟨ms ++ after, rest, between, before, ?_, hsilent, ?_, hc.trans hclosed⟩
  · rw [List.append_assoc]
    exact congrArg (ms ++ ·) heq
  · rw [History.sent_append, hafter, hsent, List.append_nil]

theorem Looks.host {w : World κ τ} (hw : w.Looks) {r : Session κ τ × History}
    (hr : w.session.Hosted r) : Looks ⟨r.1, w.stage, r.2 ++ w.history⟩ := by
  refine ⟨fun b hb => ?_, fun hd => ?_⟩
  · obtain ⟨between, before, heq, hhost, hheard⟩ := hw.asking b hb
    refine ⟨r.2 ++ between, before, ?_, fun m hm => ?_, hheard⟩
    · rw [List.append_assoc]
      exact congrArg (r.2 ++ ·) heq
    · rcases List.mem_append.mp hm with hm | hm
      · exact hr.marks m hm
      · exact hhost m hm
  · have hold : .disconnected ∈ w.history := by
      refine (List.mem_append.mp hd).resolve_left fun hm => ?_
      cases hr.marks _ hm
    obtain ⟨after, rest, between, before, heq, hsilent, hafter, hclosed⟩ := hw.disconnected hold
    obtain ⟨hstill, hsent⟩ := hr.closed hclosed
    refine ⟨r.2 ++ after, rest, between, before, ?_, hsilent, ?_, hstill⟩
    · rw [List.append_assoc]
      exact congrArg (r.2 ++ ·) heq
    · rw [History.sent_append, hafter, hsent, List.append_nil]

end

variable [Time τ] [Clock κ τ]

theorem Looks.thread {w : World κ τ} (hw : w.Looks) (ho : w.Orderly) {a : Advance κ τ}
    (ha : w.session.Advances w.stage a) : Looks ⟨a.session, a.stage, a.marks ++ w.history⟩ := by
  have hsent := ha.sent
  have hclosed := ha.closed
  obtain ⟨s, st, (h : History)⟩ := w
  cases ha with
  | hearsNothing hq =>
    obtain ⟨-, hs, -, hn⟩ := ho
    dsimp only at hs hn
    rw [hn rfl, hq, List.append_nil, List.append_nil] at hs
    have hheard : History.heard (.began :: h) = History.sent (.began :: h) :=
      congrArg (· ++ []) hs.symm
    refine hw.step (fun _ _ => ⟨[], .began :: h, ?_⟩) (by simp) hsent hclosed
    exact ⟨rfl, List.forall_mem_nil _, hheard⟩
  | disconnects hc =>
    obtain ⟨between, before, hsilent⟩ := hw.asking _ rfl
    exact ⟨nofun, fun _ => ⟨[], h, between, before, rfl, hsilent, rfl, hc⟩⟩
  | _ => exact hw.step nofun (by simp) hsent hclosed

theorem Reached.looks {w : World κ τ} (hw : w.Reached) : w.Looks :=
  reached_invariant
    (fun _ _ _ _ _ => ⟨fun _ hb => (nomatch hb), fun hd => absurd hd List.not_mem_nil⟩)
    (fun _ _ hw ha hl => hl.thread hw.orderly ha) (fun w a _ hl => hl.host (w.session.hosted a)) hw

/-- a thread that disconnects has heard what was sent before it last looked for a message, and
nothing of what was sent between that look and the next, at which the host had closed -/
theorem disconnected_between {w : World κ τ} (hw : w.Reached) (hd : .disconnected ∈ w.history) :
    ∃ after between before : History,
      w.history = after ++ .disconnected :: (between ++ .silence :: before) ∧
      (∀ m ∈ between, m.isHost = true) ∧ w.session.link.toSession.closed = true ∧
      w.history.sent = before.sent ++ between.sent ∧ w.history.heard = before.sent ∧
      w.history.obeyed = before.sent := by
  obtain ⟨after, rest, between, before, heq, ⟨rfl, hhost, hheard⟩, hafter, hclosed⟩ :=
    hw.looks.disconnected hd
  obtain ⟨-, hnone, -⟩ := hw.trails.nothing_after heq rfl
  have hbetween : between.heard = [] :=
    History.messages_eq_nil fun m hm => Mark.hears_of_trails (Mark.trails_of_isHost (hhost m hm))
  have hpending : w.stage.pending = [] := by
    refine Stage.pending_of_bears (m := .disconnected) rfl (hw.trails.bears _ ?_)
    rw [heq]
    simp
  have hall : w.history.heard = before.sent := by
    rw [heq, History.heard, History.messages_split, History.messages_split]
    show before.heard ++ [] ++ between.heard ++ [] ++ after.heard = _
    rw [hbetween, hnone, hheard]
    simp
  refine ⟨after, between, before, heq, hhost, hclosed, ?_, hall, ?_⟩
  · rw [heq, History.sent, History.messages_split, History.messages_split]
    show before.sent ++ [] ++ between.sent ++ [] ++ after.sent = _
    rw [hafter]
    simp
  · have hobeyed := hw.orderly.heard
    rw [hpending, List.append_nil, hall] at hobeyed
    exact hobeyed.symm

/-! ## what is sent between the looks -/

/-- a fresh machine, by a clock that goes on by one at each reading -/
def freshStart : World (Ticker Rat) Rat :=
  start (.ofMachine (.fresh (.cycle #[]) false)) ⟨0, 1⟩ (some 0) 1 .empty

/-- the host asks for a file, shuts down and closes after the thread found no message -/
def hurried : List Move :=
  [.thread, .host (.tell (.save "q")), .host (.tell .shutdown), .host .close, .thread, .thread,
    .thread]

theorem reached_hurried : (freshStart.run hurried).Reached := ⟨_, _, _, _, _, hurried, rfl⟩

theorem history_hurried : (freshStart.run hurried).history =
    [.dropped [.save "q", .shutdown], .disconnected, .hungUp, .told .shutdown, .told (.save "q"),
      .silence, .began] := rfl

theorem disconnected_between_hurried :
    (freshStart.run hurried).Reached ∧ .disconnected ∈ (freshStart.run hurried).history ∧
      ∃ after between before : History,
        (freshStart.run hurried).history =
          after ++ .disconnected :: (between ++ .silence :: before) ∧
        (∀ m ∈ between, m.isHost = true) ∧
        (freshStart.run hurried).session.link.toSession.closed = true ∧
        (freshStart.run hurried).history.sent = before.sent ++ between.sent ∧
        (freshStart.run hurried).history.heard = before.sent ∧
        (freshStart.run hurried).history.obeyed = before.sent := by
  have hd : .disconnected ∈ (freshStart.run hurried).history := by
    rw [history_hurried]
    decide
  exact ⟨reached_hurried, hd, disconnected_between reached_hurried hd⟩

/-- a thread may disconnect, and end, without having heard what was sent before the host closed -/
theorem save_unheard :
    .disconnected ∈ (freshStart.run hurried).history ∧
      (∃ r, (freshStart.run hurried).stage = .stopped r) ∧
      (freshStart.run hurried).history.sent = [.save "q", .shutdown] ∧
      (freshStart.run hurried).history.heard = [] ∧
      ¬ ∀ ms, .disconnected ∈ (freshStart.run ms).history →
        (freshStart.run ms).history.heard = (freshStart.run ms).history.sent := by
  have hd : .disconnected ∈ (freshStart.run hurried).history := by
    rw [history_hurried]
    decide
  have hsent : (freshStart.run hurried).history.sent = [.save "q", .shutdown] := by
    rw [history_hurried]
    rfl
  have hheard : (freshStart.run hurried).history.heard = [] := by
    rw [history_hurried]
    rfl
  refine ⟨hd, ⟨none, rfl⟩, hsent, hheard, fun hall => ?_⟩
  have heq := hall hurried hd
  rw [hsent, hheard] at heq
  cases heq

end ChipEight.World
