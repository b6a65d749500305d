import ChipEight.Proofs.Session.KeyRelease

/-!
# Which steps post a picture

* `Instruction.paints`     the instruction clears the screen or draws on it;
* `Machine.paints`         the next tick executes such an instruction, without a fault;
* `paints_iff`             exactly these ticks tell that there is a new picture;
* `Console.OnlyPosts`      the pictures are posted, and nobody else watches;
* `Session.paints s st`    the next step of the thread is such a tick;
* `Advances.count_draw`    exactly these steps post a picture, and just one.
-/

namespace ChipEight

def Instruction.paints : Instruction → Bool
  | clear | draw .. => true
  | _ => false

def Stepped.paints (t : Stepped) : Bool := t.fetched.any (·.instruction.paints) && t.result.isOk

namespace State

theorem doDraw_isOk {s : State} {x y : Register} {n : Nat}
    (h : (s.doDraw x y n).result.isOk = true) : (s.doDraw x y n).result = .ok true := by
  unfold doDraw at h ⊢
  split at h
  · cases h
  · dsimp only at h ⊢
    split at h
    · rfl
    · cases h

theorem exec_unpainted {i : Instruction} (h : i.paints = false) (s : State) (roll : UInt8) :
    (s.exec i roll).result ≠ .ok true := by
  have hunless (t : State) (f : Option Fault) : (t.doneUnless f).result ≠ .ok true := by
    cases f <;> exact nofun
  cases i with
  | clear => cases h
  | draw x y n => cases h
  | ret =>
    show s.doReturn.result ≠ _
    unfold doReturn
    split
    · exact nofun
    · dsimp only
      split <;> exact nofun
  | call a =>
    show (s.doCall a).result ≠ _
    unfold doCall
    split <;> exact nofun
  | storeDecimal x => exact hunless _ _
  | store x => exact hunless _ _
  | load x => exact hunless _ _
  | _ => exact nofun

theorem exec_paints (s : State) (i : Instruction) (roll : UInt8) :
    i.paints = true ∧ (s.exec i roll).result.isOk = true ↔ (s.exec i roll).result = .ok true := by
  constructor
  · rintro ⟨hi, hok⟩
    cases i with
    | clear => rfl
    | draw x y n => exact doDraw_isOk hok
    | _ => cases hi
  · intro h
    refine ⟨eq_true_of_ne_false fun hi => exec_unpainted hi s roll h, ?_⟩
    rw [h]
    rfl

theorem step_paints (s : State) (roll : UInt8) :
    (s.step roll).paints = true ↔ (s.step roll).result = .ok true := by
  have hrun (t : State) : (t.run1 roll).paints = true ↔ (t.run1 roll).result = .ok true := by
    unfold run1
    split
    · exact ⟨nofun, nofun⟩
    · rw [Stepped.paints, Option.any_some, Bool.and_eq_true]
      exact exec_paints _ _ _
  unfold step
  dsimp only
  split
  · split
    · unfold answer
      split <;> exact ⟨nofun, nofun⟩
    · exact ⟨nofun, nofun⟩
  · exact hrun _

end State

def Machine.paints (m : Machine) : Bool := (m.state.step m.dice.next).paints

theorem Machine.paints_iff (m : Machine) : m.paints = true ↔ m.tick.result = .ok true := by
  rw [paints, State.step_paints, result_tick]

/-! ## what is posted -/

def Console.OnlyPosts (c : Console) : Prop := c.watchers = [("draw", .post)]

namespace Console

variable {c : Console}

theorem OnlyPosts.watching_draw (h : c.OnlyPosts) : c.watching .draw = [.post] := by
  rw [watching, h]
  rfl

theorem OnlyPosts.watching_timers (h : c.OnlyPosts) (delay sound : UInt8) :
    c.watching (.timers delay sound) = [] := by
  rw [watching, h]
  rfl

theorem OnlyPosts.outbox_tick (h : c.OnlyPosts) {out : Pipe Message} (ho : out.closed = false) :
    (c.tick out).outbox = out.drawn c.machine.paints.toNat := by
  obtain ⟨q, closed⟩ := out
  cases ho
  have hpainted : ({ c with machine := c.machine.tick.machine } : Console).OnlyPosts := h
  unfold tick
  dsimp only
  split
  · rename_i f hr
    rw [eq_false_of_ne_true fun hp => nomatch hr.symm.trans (c.machine.paints_iff.mp hp)]
    exact (Pipe.drawn_zero _).symm
  · rename_i hr
    rw [eq_false_of_ne_true fun hp => nomatch hr.symm.trans (c.machine.paints_iff.mp hp)]
    exact (Pipe.drawn_zero _).symm
  · rename_i hr
    rw [c.machine.paints_iff.mpr hr, tell, hpainted.watching_draw]
    rfl

theorem OnlyPosts.outbox_tick60 (h : c.OnlyPosts) (out : Pipe Message) :
    (c.tick60 out).outbox = out := by
  have hticked : (c.mapMachine Machine.tick60).OnlyPosts := h
  unfold tick60 tell
  dsimp only
  rw [hticked.watching_timers]
  rfl

end Console

theorem Pipe.count_drawn (p : Pipe Message) (n : Nat) :
    (p.drawn n).queue.count .draw = p.queue.count .draw + n := by
  rw [drawn, List.count_append, List.count_replicate_self]

namespace Session

variable {κ τ : Type} {s t : Session κ τ}

def paints (s : Session κ τ) : Stage τ → Bool
  | .stepping _ => s.machine.paints
  | _ => false

theorem count_draw_halt {e : Escape} {r : Except ChannelError Bool} (h : s.halt e = (t, r)) :
    t.link.toHost.queue.count .draw = s.link.toHost.queue.count .draw := by
  unfold halt at h
  dsimp only at h
  split at h
  · rename_i hsent
    cases h
    rw [Link.eq_of_send hsent]
    show (s.link.toHost.queue ++ [Message.fault e.toFault]).count .draw = _
    rw [List.count_append]
    rfl
  · cases h
    rfl

theorem toHost_act_tick (hw : s.console.OnlyPosts) (ho : s.link.toHost.closed = false)
    {r : Except Escape Bool} (h : s.act Console.tick = (t, r)) :
    t.link.toHost = s.link.toHost.drawn s.machine.paints.toNat := by
  obtain rfl := congrArg Prod.fst h
  exact hw.outbox_tick ho

variable [Time τ] [Clock κ τ]

theorem toHost_timerTick (hw : s.console.OnlyPosts) {r : Except Escape Bool}
    (h : s.timerTick = (t, r)) : t.link.toHost = s.link.toHost := by
  obtain ⟨timer, clock, rfl⟩ := timerTick_eq h
  exact hw.outbox_tick60 _

theorem Advances.count_draw {st : Stage τ} {a : Advance κ τ} (h : s.Advances st a)
    (hw : s.console.OnlyPosts) (ho : st.ended = false → s.link.toHost.closed = false) :
    a.session.link.toHost.queue.count .draw =
      s.link.toHost.queue.count .draw + (s.paints st).toNat := by
  cases h with
  | obeys ht hr => exact congrArg (·.toHost.queue.count .draw) (handles ht).link
  | quits ht hr => exact congrArg (·.toHost.queue.count .draw) (handles ht).link
  | obeysNot ht => exact congrArg (·.toHost.queue.count .draw) (handles ht).link
  | counts ht => exact congrArg (·.queue.count .draw) (toHost_timerTick hw ht)
  | countsNot ht => exact congrArg (·.queue.count .draw) (toHost_timerTick hw ht)
  | steps ht =>
    dsimp only
    rw [toHost_act_tick hw (ho rfl) ht]
    exact Pipe.count_drawn _ _
  | stepsNot ht =>
    dsimp only
    rw [toHost_act_tick hw (ho rfl) ht]
    exact Pipe.count_drawn _ _
  | halts ht => exact count_draw_halt ht
  | haltsUnheard ht => exact count_draw_halt ht
  | _ => rfl

end Session

end ChipEight
