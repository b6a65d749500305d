import ChipEight.Proofs.Session.Pictures
import ChipEight.Session.Host

/-!
# The host at its desk

A host polls and shuts down in small steps too, and the thread moves between any two of them.

* `Errand`               what the host is in the midst of;
* `Desk`                 both sides, and what the host knows;
* `Turn`, `Desk.turn`    what happens next: a step of the thread, or of the host;
* `Desk.Turns`           the same, case by case;
* `Desk.answer?`         what a poll is about to answer;
* `News`, `Desk.reports` the pictures that were posted and the answers of the polls, in turn;
* `run_poll`             with nobody in between, a poll is that of the host.
-/

namespace ChipEight

def Stage.over {τ : Type} : Stage τ → Bool
  | .stopped _ => true
  | _ => false

theorem Stage.over_iff {τ : Type} {st : Stage τ} : st.over = true ↔ ∃ r, st = .stopped r := by
  cases st with
  | stopped r => exact ⟨fun _ => ⟨r, rfl⟩, fun _ => rfl⟩
  | _ => exact ⟨nofun, nofun⟩

inductive Errand where
  | idle
  /-- the session was told to shut down, and the link is about to be closed -/
  | closing
  /-- the end of the session is waited for -/
  | joining
  /-- messages are taken, one by one; a shutdown ends with that -/
  | polling (got : List Message) (parting : Bool)

namespace Errand

def got : Errand → List Message
  | polling got _ => got
  | _ => []

def polls : Errand → Bool
  | polling _ _ => true
  | _ => false

/-- the shutdown is not done yet -/
def parts : Errand → Bool
  | idle => false
  | closing | joining => true
  | polling _ parting => parting

end Errand

/-- both sides, with the last fault that the host was told of, and whether it has shut the session
down -/
structure Desk (κ τ : Type) where
  world : World κ τ
  fault : Option SessionFault
  shutDown : Bool
  errand : Errand

inductive News where
  | painted
  | polled (answer : Bool)
  deriving DecidableEq

namespace Desk

variable {κ τ : Type}

def inbox (d : Desk κ τ) : List Message := d.world.session.link.toHost.queue

def host (d : Desk κ τ) : Host κ τ := ⟨d.world.session, d.fault, d.shutDown, !d.world.stage.over⟩

def collect (d : Desk κ τ) (x : Message) (p : Pipe Message) : World κ τ :=
  ⟨{ d.world.session with link := d.world.session.link.setInbound .host p }, d.world.stage,
    .collected [x] :: d.world.history⟩

def answer? (d : Desk κ τ) : Option Bool :=
  match d.errand, d.inbox with
  | .polling got _, [] => some (got.contains .draw)
  | _, _ => none

inductive Turn where
  | thread
  /-- an act of the host's other than to take messages -/
  | act (a : Act) (h : a ≠ .collect)
  | poll
  | shutdown
  | proceed

/-- what a turn adds to the news -/
def news (d : Desk κ τ) : Turn → List News
  | .thread => if d.world.session.paints d.world.stage then [.painted] else []
  | .proceed => (d.answer?.map News.polled).toList
  | _ => []

theorem answer?_eq_some {d : Desk κ τ} {b : Bool} (h : d.answer? = some b) :
    ∃ got parting, d.errand = .polling got parting ∧ d.inbox = [] := by
  unfold answer? at h
  split at h
  · rename_i got parting he hq
    exact ⟨got, parting, he, hq⟩
  · cases h

theorem news_answers {d : Desk κ τ} {got : List Message} {parting : Bool}
    (he : d.errand = .polling got parting) (hq : d.inbox = []) :
    d.news .proceed = [.polled (got.contains .draw)] := by
  rw [news, answer?, he, hq]
  rfl

theorem news_of_not_polls {d : Desk κ τ} (h : d.errand.polls = false) : d.news .proceed = [] := by
  rw [news, answer?]
  split
  · rename_i got parting he hq
    rw [he] at h
    cases h
  · rfl

theorem news_of_inbox {d : Desk κ τ} (h : d.inbox ≠ []) : d.news .proceed = [] := by
  rw [news, answer?]
  split
  · rename_i got parting he hq
    exact absurd hq h
  · rfl

variable [Time τ] [Clock κ τ]

def start (m : Machine) (clock : κ) (tickInterval : Option τ) (timerInterval : τ) (files : Files) :
    Desk κ τ :=
  ⟨.start (.ofMachine m) clock tickInterval timerInterval files, none, false, .idle⟩

def proceed (d : Desk κ τ) : Desk κ τ :=
  match d.errand with
  | .idle => d
  | .closing => { d with world := d.world.move (.host .close), errand := .joining }
  | .joining => if d.world.stage.over then { d with errand := .polling [] true } else d
  | .polling got parting =>
    match (d.world.session.link.inbound .host).take with
    | (some x, p) => { d with world := d.collect x p, errand := .polling (got ++ [x]) parting }
    | (none, _) => { d with fault := Host.lastFault d.fault got, errand := .idle }

/-- a host in the midst of something does not begin with something else -/
def turn (d : Desk κ τ) : Turn → Desk κ τ
  | .thread => { d with world := d.world.move .thread }
  | .act a _ => { d with world := d.world.move (.host a) }
  | .poll =>
    match d.errand with
    | .idle => { d with errand := .polling [] false }
    | _ => d
  | .shutdown =>
    match d.errand with
    | .idle =>
      if d.shutDown then d
      else
        { d with
          world := d.world.move (.host (.tell .shutdown))
          shutDown := true
          errand := .closing }
    | _ => d
  | .proceed => d.proceed

def run (d : Desk κ τ) (ts : List Turn) : Desk κ τ := ts.foldl turn d

def reports (d : Desk κ τ) : List Turn → List News
  | [] => []
  | t :: ts => d.news t ++ (d.turn t).reports ts

theorem run_cons (d : Desk κ τ) (t : Turn) (ts : List Turn) :
    d.run (t :: ts) = (d.turn t).run ts := rfl

/-! ## case by case -/

inductive Turns (d : Desk κ τ) : Turn → Desk κ τ → Prop where
  | thread : Turns d .thread { d with world := d.world.move .thread }
  | act {a : Act} (ha : a ≠ .collect) :
      Turns d (.act a ha) { d with world := d.world.move (.host a) }
  | polls (he : d.errand = .idle) : Turns d .poll { d with errand := .polling [] false }
  | tells (he : d.errand = .idle) (hs : d.shutDown = false) :
      Turns d .shutdown
        { d with
          world := d.world.move (.host (.tell .shutdown))
          shutDown := true
          errand := .closing }
  | hangsUp (he : d.errand = .closing) :
      Turns d .proceed { d with world := d.world.move (.host .close), errand := .joining }
  | joins (he : d.errand = .joining) (ho : d.world.stage.over = true) :
      Turns d .proceed { d with errand := .polling [] true }
  | takes {got : List Message} {parting : Bool} {x : Message} {rest : List Message} {c : Bool}
      (he : d.errand = .polling got parting) (hq : d.world.session.link.toHost = ⟨x :: rest, c⟩) :
      Turns d .proceed
        { d with world := d.collect x ⟨rest, c⟩, errand := .polling (got ++ [x]) parting }
  | answers {got : List Message} {parting : Bool} (he : d.errand = .polling got parting)
      (hq : d.inbox = []) :
      Turns d .proceed { d with fault := Host.lastFault d.fault got, errand := .idle }
  | stays {t : Turn} (ht : t ≠ .thread) (hn : d.news t = []) : Turns d t d

theorem turns (d : Desk κ τ) (t : Turn) : d.Turns t (d.turn t) := by
  cases t with
  | thread => exact .thread
  | act a ha => exact .act ha
  | poll =>
    rw [turn]
    cases he : d.errand with
    | idle => exact .polls he
    | _ => exact .stays nofun rfl
  | shutdown =>
    rw [turn]
    cases he : d.errand with
    | idle =>
      cases hs : d.shutDown with
      | false => exact .tells he hs
      | true => exact .stays nofun rfl
    | _ => exact .stays nofun rfl
  | proceed =>
    rw [turn, proceed]
    cases he : d.errand with
    | idle => exact .stays nofun (news_of_not_polls (congrArg Errand.polls he))
    | closing => exact .hangsUp he
    | joining =>
      cases ho : d.world.stage.over with
      | true => exact .joins he ho
      | false => exact .stays nofun (news_of_not_polls (congrArg Errand.polls he))
    | polling got parting =>
      rw [Link.inbound]
      rcases hq : d.world.session.link.toHost with ⟨_ | ⟨x, rest⟩, c⟩
      · exact .answers he (congrArg Pipe.queue hq)
      · exact .takes he hq

theorem turn_answers {d : Desk κ τ} {got : List Message} {parting : Bool}
    (he : d.errand = .polling got parting) (hq : d.inbox = []) :
    d.turn .proceed = { d with fault := Host.lastFault d.fault got, errand := .idle } := by
  rw [turn, proceed, he]
  dsimp only
  rw [Pipe.take, show (d.world.session.link.inbound .host).queue = [] from hq]

/-! ## nobody in between -/

omit [Time τ] [Clock κ τ] in
theorem host_drained {d : Desk κ τ} (hq : d.inbox = []) :
    (d.world.session.link.drain .host).2 = d.world.session.link := by
  show { d.world.session.link with toHost := { d.world.session.link.toHost with queue := [] } } = _
  rw [← show d.world.session.link.toHost.queue = [] from hq]

/-- the host takes all that is there, one by one -/
theorem run_polling {d : Desk κ τ} {got : List Message} {parting : Bool}
    (he : d.errand = .polling got parting) :
    (d.run (List.replicate (d.inbox.length + 1) .proceed)).host =
        { d.host with
          session := { d.world.session with link := (d.world.session.link.drain .host).2 }
          fault := Host.lastFault d.fault (got ++ d.inbox) } ∧
      d.reports (List.replicate (d.inbox.length + 1) .proceed) =
        [.polled ((got ++ d.inbox).contains .draw)] := by
  generalize hms : d.inbox = ms
  induction ms generalizing d got with
  | nil =>
    rw [List.append_nil, host_drained hms]
    refine ⟨?_, ?_⟩
    · show (d.turn .proceed).host = _
      rw [turn_answers he hms]
      rfl
    · show d.news .proceed ++ [] = _
      rw [news_answers he hms]
      rfl
  | cons x ms ih =>
    have hturn : d.turn .proceed =
        { d with
          world := d.collect x ⟨ms, d.world.session.link.toHost.closed⟩
          errand := .polling (got ++ [x]) parting } := by
      rw [turn, proceed, he]
      dsimp only
      rw [Pipe.take, show (d.world.session.link.inbound .host).queue = x :: ms from hms]
      rfl
    have hnews : d.news .proceed = [] := by
      refine news_of_inbox ?_
      rw [hms]
      exact List.cons_ne_nil x ms
    have herrand : (d.turn .proceed).errand = .polling (got ++ [x]) parting := by rw [hturn]
    have hinbox : (d.turn .proceed).inbox = ms := by
      rw [hturn]
      rfl
    obtain ⟨hhost, hreports⟩ := ih herrand hinbox
    have hsame : got ++ [x] ++ ms = got ++ x :: ms := List.append_assoc got [x] ms
    refine ⟨?_, ?_⟩
    · show ((d.turn .proceed).run (List.replicate (ms.length + 1) .proceed)).host = _
      rw [hhost, hturn, hsame]
      rfl
    · show d.news .proceed ++
        (d.turn .proceed).reports (List.replicate (ms.length + 1) .proceed) = _
      rw [hnews, hreports, hsame, List.nil_append]

theorem run_poll {d : Desk κ τ} (he : d.errand = .idle) :
    (d.run (.poll :: List.replicate (d.inbox.length + 1) .proceed)).host = d.host.poll.2 ∧
      d.reports (.poll :: List.replicate (d.inbox.length + 1) .proceed) =
        [.polled d.host.poll.1] := by
  have hturn : d.turn .poll = { d with errand := .polling [] false } := by rw [turn, he]
  obtain ⟨hhost, hreports⟩ := run_polling (d := d.turn .poll) (by rw [hturn])
  rw [hturn] at hhost hreports
  rw [run_cons, reports, hturn]
  exact ⟨hhost, hreports⟩

end Desk

end ChipEight
