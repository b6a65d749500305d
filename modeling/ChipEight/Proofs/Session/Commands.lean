import ChipEight.Proofs.Session.Disconnect
import ChipEight.Proofs.Session.FaultPolicy
import ChipEight.Proofs.Session.Requests

/-!
# Commands

A session obeys its host's messages one by one, in the order in which they were sent, until it is
told to stop.

* `History.iterations`   the marks of each iteration;
* `World.Paced`          an iteration hears at most one message, and obeys it; one that hears the
  shutdown executes nothing;
* `Paced.length_busy_le`   how many iterations heard a message and executed an instruction;
* `heard_until_shutdown`   the shutdown is the last message that is heard;
* `World.Atomic`         moves in which the host waits while the thread looks for a message;
* `World.Drained`        under such moves, the thread disconnects only when everything was heard;
* `commands_obeyed`      all of this for every run, and what becomes of the requests.
-/

namespace ChipEight

/-! ## iterations -/

namespace Mark

def isStep : Mark → Bool
  | stepped _ => true
  | _ => false

theorem isStep_of_trails {m : Mark} (h : m.trails = true) : m.isStep = false := by
  cases m <;> first | rfl | cases h

/-- besides what escapes, and the shutdown, only a disconnection ends the loop -/
theorem eq_disconnected {m : Mark} (he : m.ends = true) (hesc : m.escape = none)
    (hm : m ≠ .obeyed .shutdown none) : m = .disconnected := by
  cases m with
  | disconnected => rfl
  | obeyed x e =>
    obtain rfl : e = none := hesc
    cases x with
    | shutdown => exact absurd rfl hm
    | _ => cases he
  | counted e =>
    obtain rfl : e = none := hesc
    cases he
  | stepped e =>
    obtain rfl : e = none := hesc
    cases he
  | _ => cases he

/-- a mark begins an iteration, or belongs to the one that was begun last -/
def join (m : Mark) (is : List History) : List History :=
  if m = .began then [] :: is else is.modifyHead (m :: ·)

end Mark

namespace History

/-- the marks of each iteration, the last one first; what was done before the first is left out -/
def iterations : History → List History
  | [] => []
  | m :: h => m.join (iterations h)

def steps (h : History) : Bool := h.any Mark.isStep

theorem steps_append (a b : History) : steps (a ++ b) = (a.steps || b.steps) := List.any_append

def isBusy (h : History) : Bool := !h.heard.isEmpty && h.steps

theorem iterations_began (h : History) : iterations (.began :: h) = [] :: h.iterations := rfl

theorem iterations_cons {m : Mark} (hm : m ≠ .began) (h : History) :
    iterations (m :: h) = h.iterations.modifyHead (m :: ·) := if_neg hm

theorem iterations_begin {m : Mark} (hm : m ≠ .began) (h : History) :
    iterations (m :: .began :: h) = [m] :: h.iterations := by
  rw [iterations_cons hm, iterations_began]
  rfl

theorem iterations_append {ms h i : History} {is : List History} (hms : .began ∉ ms)
    (hi : h.iterations = i :: is) : iterations (ms ++ h) = (ms ++ i) :: is := by
  induction ms with
  | nil => exact hi
  | cons m ms ih =>
    obtain ⟨hm, hrest⟩ := List.ne_and_not_mem_of_not_mem_cons hms
    rw [List.cons_append, iterations_cons hm.symm, ih hrest]
    rfl

theorem length_iterations_append {ms : History} (hms : .began ∉ ms) (h : History) :
    (iterations (ms ++ h)).length = h.iterations.length := by
  induction ms with
  | nil => rfl
  | cons m ms ih =>
    obtain ⟨hm, hrest⟩ := List.ne_and_not_mem_of_not_mem_cons hms
    rw [List.cons_append, iterations_cons hm.symm, List.length_modifyHead, ih hrest]

theorem length_iterations_le (ms h : History) :
    h.iterations.length ≤ (iterations (ms ++ h)).length := by
  induction ms with
  | nil => exact Nat.le_refl _
  | cons m ms ih =>
    by_cases hm : m = .began
    · subst hm
      rw [List.cons_append, iterations_began, List.length_cons]
      omega
    · rw [List.cons_append, iterations_cons hm, List.length_modifyHead]
      exact ih

theorem mem_of_mem_iterations {h i : History} (hi : i ∈ h.iterations) {m : Mark} (hm : m ∈ i) :
    m ∈ h := by
  induction h generalizing i with
  | nil => cases hi
  | cons k h ih =>
    by_cases hk : k = .began
    · subst hk
      rw [iterations_began] at hi
      rcases List.mem_cons.mp hi with rfl | hi
      · cases hm
      · exact List.mem_cons_of_mem _ (ih hi hm)
    · rw [iterations_cons hk] at hi
      cases his : iterations h with
      | nil =>
        rw [his] at hi
        cases hi
      | cons j js =>
        rw [his] at hi ih
        rcases List.mem_cons.mp hi with rfl | hi
        · rcases List.mem_cons.mp hm with rfl | hm
          · exact List.mem_cons_self
          · exact List.mem_cons_of_mem _ (ih List.mem_cons_self hm)
        · exact List.mem_cons_of_mem _ (ih (List.mem_cons_of_mem _ hi) hm)

theorem countP_iterations_le (p : Message → Bool) (h : History) :
    ((h.iterations.map fun i => i.heard.countP p).sum) ≤ h.heard.countP p := by
  induction h with
  | nil => exact Nat.le_refl 0
  | cons m h ih =>
    have hheard : History.heard (m :: h) = History.heard h ++ m.hears := rfl
    by_cases hm : m = .began
    · subst hm
      rw [iterations_began, hheard]
      simpa [History.heard, History.messages_nil, Mark.hears] using ih
    · rw [iterations_cons hm, hheard, List.countP_append]
      cases his : History.iterations h with
      | nil => exact Nat.zero_le _
      | cons i is =>
        rw [his, List.map_cons, List.sum_cons] at ih
        have hjoined : History.heard (m :: i) = i.heard ++ m.hears := rfl
        rw [List.modifyHead_cons, List.map_cons, List.sum_cons, hjoined, List.countP_append]
        omega

theorem heard_split {h : History} {x : Message} {xs zs : List Message}
    (hs : h.heard = xs ++ x :: zs) :
    ∃ after before : History, h = after ++ .heard x :: before ∧ after.heard = zs := by
  induction h generalizing zs with
  | nil => simp [heard, messages_nil] at hs
  | cons m h ih =>
    have hcons : History.heard (m :: h) = History.heard h ++ m.hears := rfl
    rw [hcons] at hs
    by_cases hm : ∃ y, m = .heard y
    · obtain ⟨y, rfl⟩ := hm
      rcases List.eq_nil_or_concat zs with rfl | ⟨zs, z, rfl⟩
      · obtain ⟨-, hxy⟩ := List.append_inj' hs rfl
        cases hxy
        exact ⟨[], h, rfl, rfl⟩
      · rw [List.concat_eq_append, ← List.cons_append, ← List.append_assoc] at hs
        obtain ⟨hrest, hyz⟩ := List.append_inj' hs rfl
        cases hyz
        obtain ⟨after, before, rfl, rfl⟩ := ih hrest
        exact ⟨.heard y :: after, before, rfl, List.concat_eq_append.symm⟩
    · have hnone : m.hears = [] := by
        cases m <;> first | rfl | exact absurd ⟨_, rfl⟩ hm
      rw [hnone, List.append_nil] at hs
      obtain ⟨after, before, rfl, rfl⟩ := ih hs
      refine ⟨m :: after, before, rfl, ?_⟩
      show after.heard ++ m.hears = after.heard
      rw [hnone, List.append_nil]

end History

namespace World

variable {κ τ : Type}

structure Paced (w : World κ τ) : Prop where
  each : ∀ i ∈ w.history.iterations,
    i.heard.length ≤ 1 ∧ (i.steps = true → .shutdown ∉ i.heard)
  obeyed : ∀ i is, w.history.iterations = i :: is →
    i.heard = i.obeyed ++ w.stage.pending ∧ ∀ j ∈ is, j.heard = j.obeyed

section
variable {s t : Session κ τ} {st st' : Stage τ} {h ms : History}

theorem Paced.add (hw : Paced ⟨s, st, h⟩) {m : Mark} (hm : m ≠ .began) (hh : m.hears = [])
    (hstep : m.isStep = true → .shutdown ∉ h.heard) (hp : st.pending = m.obeys ++ st'.pending) :
    Paced ⟨t, st', m :: h⟩ := by
  obtain ⟨heach, hobeyed⟩ := hw
  dsimp only at heach hobeyed
  cases his : h.iterations with
  | nil =>
    have hnone : History.iterations (m :: h) = [] := by
      rw [History.iterations_cons hm, his]
      rfl
    refine ⟨fun i hi => ?_, fun i is hi => ?_⟩ <;> dsimp only at hi <;> rw [hnone] at hi
    · cases hi
    · cases hi
  | cons j js =>
    have hjoined : History.iterations (m :: h) = (m :: j) :: js := by
      rw [History.iterations_cons hm, his, List.modifyHead_cons]
    obtain ⟨hj, hjs⟩ := hobeyed j js his
    have hsame : History.heard (m :: j) = j.heard := by
      show j.heard ++ m.hears = _
      rw [hh, List.append_nil]
    refine ⟨fun i hi => ?_, fun i is hi => ?_⟩ <;> dsimp only at hi <;> rw [hjoined] at hi
    · rcases List.mem_cons.mp hi with rfl | hi
      · have hmem : j ∈ h.iterations := by
          rw [his]
          exact List.mem_cons_self
        obtain ⟨hone, hno⟩ := heach j hmem
        rw [hsame]
        refine ⟨hone, fun hsteps hshut => ?_⟩
        rcases Bool.or_eq_true_iff.mp hsteps with hnew | hold
        · refine hstep hnew (History.mem_heard.mpr ?_)
          exact History.mem_of_mem_iterations hmem (History.mem_heard.mp hshut)
        · exact hno hold hshut
      · exact heach i (by rw [his]; exact List.mem_cons_of_mem _ hi)
    · cases hi
      refine ⟨?_, hjs⟩
      rw [hsame, hj]
      show _ = j.obeyed ++ m.obeys ++ st'.pending
      rw [hp, List.append_assoc]

theorem Paced.begin {m : Mark} (hw : Paced ⟨s, st, h⟩) (hst : st.pending = []) (hm : m ≠ .began)
    (hp : m.hears = st'.pending) (hone : m.hears.length ≤ 1) (ho : m.obeys = [])
    (hstep : m.isStep = false) : Paced ⟨t, st', m :: .began :: h⟩ := by
  obtain ⟨heach, hobeyed⟩ := hw
  dsimp only at heach hobeyed
  have hjoined := History.iterations_begin hm h
  refine ⟨fun i hi => ?_, fun i is hi => ?_⟩ <;> dsimp only at hi <;> rw [hjoined] at hi
  · rcases List.mem_cons.mp hi with rfl | hi
    · refine ⟨hone, fun hsteps => ?_⟩
      rw [History.steps, List.any_cons, hstep] at hsteps
      cases hsteps
    · exact heach i hi
  · cases hi
    refine ⟨?_, fun j hj => ?_⟩
    · show [] ++ m.hears = [] ++ m.obeys ++ st'.pending
      rw [ho, hp]
      rfl
    · cases his : h.iterations with
      | nil =>
        rw [his] at hj
        cases hj
      | cons k ks =>
        obtain ⟨hk, hks⟩ := hobeyed k ks his
        rw [hst, List.append_nil] at hk
        rw [his] at hj
        rcases List.mem_cons.mp hj with rfl | hj
        · exact hk
        · exact hks j hj

theorem Paced.trail (hw : Paced ⟨s, st, h⟩) (hms : ∀ m ∈ ms, m.trails = true)
    (hp : st'.pending = st.pending) : Paced ⟨t, st', ms ++ h⟩ := by
  induction ms with
  | nil =>
    obtain ⟨heach, hobeyed⟩ := hw
    refine ⟨heach, fun i is hi => ?_⟩
    dsimp only
    rw [hp]
    exact hobeyed i is hi
  | cons m ms ih =>
    have hm : m.trails = true := hms m List.mem_cons_self
    refine Paced.add (ih fun k hk => hms k (List.mem_cons_of_mem _ hk)) ?_
      (Mark.hears_of_trails hm) ?_ ?_
    · rintro rfl
      cases hm
    · rw [Mark.isStep_of_trails hm]
      nofun
    · rw [Mark.obeys_of_trails hm]
      rfl

theorem Paced.host {w : World κ τ} (hw : w.Paced) {r : Session κ τ × History}
    (hr : w.session.Hosted r) : Paced ⟨r.1, w.stage, r.2 ++ w.history⟩ :=
  Paced.trail hw (fun m hm => Mark.trails_of_isHost (hr.marks m hm)) rfl

end

variable [Time τ] [Clock κ τ]

theorem Paced.thread {w : World κ τ} (hw : w.Paced) (ht : w.Trails) {a : Advance κ τ}
    (ha : w.session.Advances w.stage a) : Paced ⟨a.session, a.stage, a.marks ++ w.history⟩ := by
  obtain ⟨s, st, (h : History)⟩ := w
  cases ha with
  | hears hq => exact hw.begin rfl nofun rfl (Nat.le_refl 1) rfl rfl
  | hearsNothing hq => exact hw.begin rfl nofun rfl (Nat.zero_le 1) rfl rfl
  | disconnects hc => exact hw.add nofun rfl nofun rfl
  | obeys hx hr => exact hw.add nofun rfl nofun rfl
  | quits hx hr => exact hw.add nofun rfl nofun rfl
  | obeysNot hx => exact hw.add nofun rfl nofun rfl
  | counts hs => exact hw.add nofun rfl nofun rfl
  | countsNot hs => exact hw.add nofun rfl nofun rfl
  | steps hs =>
    exact hw.add nofun rfl (fun _ hshut => nomatch ht.bears _ (History.mem_heard.mp hshut)) rfl
  | stepsNot hs =>
    exact hw.add nofun rfl (fun _ hshut => nomatch ht.bears _ (History.mem_heard.mp hshut)) rfl
  | drops => exact hw.add nofun rfl nofun rfl
  | _ => exact hw.trail (List.forall_mem_nil _) rfl

theorem Reached.paced {w : World κ τ} (hw : w.Reached) : w.Paced :=
  reached_invariant (fun _ _ _ _ _ => ⟨List.forall_mem_nil _, nofun⟩)
    (fun _ _ hw ha hp => hp.thread hw.trails ha) (fun w a _ hp => hp.host (w.session.hosted a)) hw

omit [Time τ] [Clock κ τ] in
/-- an iteration obeys at most one message -/
theorem Paced.obeyed_le {w : World κ τ} (hw : w.Paced) {i : History}
    (hi : i ∈ w.history.iterations) : i.obeyed.length ≤ 1 := by
  have hone := (hw.each i hi).1
  cases his : w.history.iterations with
  | nil =>
    rw [his] at hi
    cases hi
  | cons j js =>
    obtain ⟨hj, hjs⟩ := hw.obeyed j js his
    rw [his] at hi
    rcases List.mem_cons.mp hi with rfl | hi
    · rw [hj, List.length_append] at hone
      exact Nat.le_of_add_right_le hone
    · rw [← hjs i hi]
      exact hone

/-! ## iterations that hear and execute -/

omit [Time τ] [Clock κ τ] in
theorem Paced.length_busy_le {w : World κ τ} (hw : w.Paced) :
    (w.history.iterations.filter History.isBusy).length ≤
      w.history.heard.countP (· != .shutdown) := by
  refine Nat.le_trans ?_ (History.countP_iterations_le _ _)
  have heach := hw.each
  generalize w.history.iterations = is at heach
  induction is with
  | nil => exact Nat.le_refl 0
  | cons i is ih =>
    have hrest := ih fun j hj => heach j (List.mem_cons_of_mem _ hj)
    obtain ⟨-, hno⟩ := heach i List.mem_cons_self
    rw [List.map_cons, List.sum_cons, List.filter_cons]
    split
    · rename_i hbusy
      have hpos : 0 < i.heard.countP (· != .shutdown) := by
        rw [History.isBusy, Bool.and_eq_true, Bool.not_eq_true', List.isEmpty_eq_false_iff] at hbusy
        obtain ⟨x, hx⟩ := List.exists_mem_of_ne_nil _ hbusy.1
        refine List.countP_pos_iff.mpr ⟨x, hx, bne_iff_ne.mpr ?_⟩
        rintro rfl
        exact hno hbusy.2 hx
      rw [List.length_cons]
      omega
    · omega

/-! ## the shutdown -/

omit [Time τ] [Clock κ τ] in
/-- the shutdown is the last message that is heard -/
theorem Trails.heard_shutdown {w : World κ τ} (hw : w.Trails) {xs zs : List Message}
    (hs : w.history.heard = xs ++ .shutdown :: zs) : zs = [] := by
  obtain ⟨after, before, hsplit, rfl⟩ := History.heard_split hs
  refine History.messages_eq_nil fun n hn => ?_
  rcases Mark.trails_or_obeyed_of_allows (hw.after hsplit n hn) with htrails | rfl
  · exact Mark.hears_of_trails htrails
  · rfl

omit [Time τ] [Clock κ τ] in
theorem heard_until_shutdown {w : World κ τ} (ho : w.Orderly) (ht : w.Trails) {xs ys : List Message}
    (hs : w.history.sent = xs ++ .shutdown :: ys) :
    w.history.heard <+: xs ++ [.shutdown] ∧
      w.history.heard.countP (· != .shutdown) ≤ xs.length := by
  have hsent := ho.sent
  rw [hs, List.append_assoc] at hsent
  rcases List.append_eq_append_iff.mp hsent with ⟨zs, hheard, hrest⟩ | ⟨zs, hxs, -⟩
  · cases zs with
    | nil =>
      rw [hheard, List.append_nil]
      exact ⟨List.prefix_append xs _, List.countP_le_length⟩
    | cons z zs =>
      obtain ⟨rfl, -⟩ := List.cons.inj hrest
      obtain rfl := ht.heard_shutdown hheard
      rw [hheard, List.countP_append]
      exact ⟨List.prefix_rfl, List.countP_le_length⟩
  · rw [hxs, List.append_assoc, List.length_append]
    exact ⟨List.prefix_append _ _, Nat.le_trans List.countP_le_length (Nat.le_add_right _ _)⟩

end World

/-! ## a host that closes -/

namespace Stage

variable {τ : Type}

def isAsking : Stage τ → Bool
  | .asking _ => true
  | _ => false

def result : Stage τ → Option (Option RunError)
  | .leaving r | .closing r | .stopped r => some r
  | _ => none

end Stage

namespace World

variable {κ τ : Type} [Time τ] [Clock κ τ]

def Atomic : World κ τ → List Move → Prop
  | _, [] => True
  | w, m :: ms => (w.stage.isAsking = true → m = .thread) ∧ Atomic (w.move m) ms

/-- a loop is left for a mark in the history, or because there was no interval to wait for -/
theorem Reached.cause {w : World κ τ} (hw : w.Reached) : ∀ r, w.stage.result = some r →
    (r = none ∧ ∃ m ∈ w.history, m.ends = true) ∨
      (r = some .noInterval ∧ w.session.tickInterval = none) := by
  refine reached_invariant (P := fun w => ∀ r, w.stage.result = some r →
    (r = none ∧ ∃ m ∈ w.history, m.ends = true) ∨
      (r = some .noInterval ∧ w.session.tickInterval = none)) ?_ ?_ ?_ hw
  · intro c clock tickInterval timerInterval files r hr
    cases hr
  · intro w a hw ha hcause r hr
    have hpoliced := hw.policed
    have htrails := hw.trails
    have horderly := hw.orderly
    obtain ⟨s, st, (h : History)⟩ := w
    cases ha with
    | disconnects hc =>
      cases hr
      exact .inl ⟨rfl, _, List.mem_cons_self, rfl⟩
    | @quits b x t hx hrun =>
      cases hr
      rcases Session.handle_cases hx with ⟨rfl, -, -⟩ | ⟨-, hdraws⟩
      · exact .inl ⟨rfl, _, List.mem_cons_self, rfl⟩
      · rw [hdraws.running, horderly.running rfl] at hrun
        cases hrun
    | halts hs =>
      cases hr
      obtain ⟨m, hm, he⟩ := hpoliced.halting _ rfl
      exact .inl ⟨rfl, m, hm, Mark.ends_of_escape he⟩
    | haltsUnheard hs => cases (hpoliced.halt htrails hs).1
    | waitsNot hi =>
      cases hr
      exact .inr ⟨rfl, hi⟩
    | drops =>
      refine (hcause r hr).imp_left fun ⟨hnone, m, hm, he⟩ => ?_
      exact ⟨hnone, m, List.mem_cons_of_mem _ hm, he⟩
    | closes => exact hcause r hr
    | stays => exact hcause r hr
    | _ => cases hr
  · intro w a hw hcause r hr
    have hsame : (w.move (.host a)).session.tickInterval = w.session.tickInterval :=
      (w.session.hosted a).tickInterval
    rw [hsame]
    refine (hcause r hr).imp_left fun ⟨hnone, m, hm, he⟩ => ?_
    exact ⟨hnone, m, List.mem_append_right _ hm, he⟩

structure Drained (w : World κ τ) : Prop where
  asking : w.stage.isAsking = true → w.session.link.toSession.queue = []
  disconnected : .disconnected ∈ w.history → w.session.link.toSession = ⟨[], true⟩ ∧
    w.history.dropped = []

section
omit [Time τ] [Clock κ τ]
variable {s t : Session κ τ} {st st' : Stage τ} {h ms : History}

theorem Drained.step (hw : Drained ⟨s, st, h⟩) (hq : t.link.toSession = s.link.toSession)
    (hst : st'.isAsking = true → s.link.toSession.queue = []) (hms : .disconnected ∉ ms)
    (hd : ms.dropped = []) : Drained ⟨t, st', ms ++ h⟩ := by
  refine ⟨fun hasking => ?_, fun hmem => ?_⟩
  · show t.link.toSession.queue = []
    rw [hq]
    exact hst hasking
  · obtain ⟨hempty, hdropped⟩ := hw.disconnected ((List.mem_append.mp hmem).resolve_left hms)
    refine ⟨hq.trans hempty, ?_⟩
    show History.dropped (ms ++ h) = []
    rw [History.dropped_append, hd, List.append_nil]
    exact hdropped

end

theorem Drained.thread {w : World κ τ} (hw : w.Drained) (hr : w.Reached) {a : Advance κ τ}
    (ha : w.session.Advances w.stage a) : Drained ⟨a.session, a.stage, a.marks ++ w.history⟩ := by
  have horderly := hr.orderly
  have htrails := hr.trails
  obtain ⟨s, st, (h : History)⟩ := w
  cases ha with
  | hears hq =>
    refine ⟨nofun, fun hmem => ?_⟩
    have hold : .disconnected ∈ h := by simpa using hmem
    cases htrails.bears _ hold
  | hearsNothing hq => exact hw.step rfl (fun _ => hq) (by simp) rfl
  | @disconnects b hc =>
    have hempty : s.link.toSession.queue = [] := hw.asking rfl
    refine ⟨nofun, fun _ => ⟨?_, ?_⟩⟩
    · show s.link.toSession = ⟨[], true⟩
      rw [← hempty, ← hc]
    · show History.dropped (.disconnected :: h) = []
      exact (List.append_nil _).trans (horderly.dropped rfl)
  | obeys hx hr => exact hw.step (Session.inbox_handle hx) nofun (by simp) rfl
  | quits hx hr => exact hw.step (Session.inbox_handle hx) nofun (by simp) rfl
  | obeysNot hx => exact hw.step (Session.inbox_handle hx) nofun (by simp) rfl
  | counts hs => exact hw.step (Session.Draws.timerTick hs).inbox nofun (by simp) rfl
  | countsNot hs => exact hw.step (Session.Draws.timerTick hs).inbox nofun (by simp) rfl
  | steps hs => exact hw.step (Session.Draws.act_tick hs).inbox nofun (by simp) rfl
  | stepsNot hs => exact hw.step (Session.Draws.act_tick hs).inbox nofun (by simp) rfl
  | halts hs => exact hw.step (Session.halt_stays hs).1 nofun (by simp) rfl
  | haltsUnheard hs => exact hw.step (Session.halt_stays hs).1 nofun (by simp) rfl
  | drops =>
    refine ⟨nofun, fun hmem => ?_⟩
    have hold : .disconnected ∈ h := by simpa using hmem
    obtain ⟨hempty, hdropped⟩ := hw.disconnected hold
    dsimp only at hempty hdropped
    refine ⟨?_, ?_⟩
    · show Pipe.mk [] s.link.toSession.closed = _
      rw [hempty]
    · show History.dropped h ++ s.link.toSession.queue = []
      rw [hempty, hdropped]
      rfl
  | _ => exact hw.step rfl nofun (by simp) rfl

omit [Time τ] [Clock κ τ] in
theorem Drained.host {w : World κ τ} (hw : w.Drained) (hst : w.stage.isAsking = false)
    {r : Session κ τ × History} (hr : w.session.Hosted r) :
    Drained ⟨r.1, w.stage, r.2 ++ w.history⟩ := by
  refine ⟨fun hasking => absurd hasking (ne_true_of_eq_false hst), fun hmem => ?_⟩
  have hold : .disconnected ∈ w.history :=
    (List.mem_append.mp hmem).resolve_left fun hnew => nomatch hr.marks _ hnew
  obtain ⟨hempty, hdropped⟩ := hw.disconnected hold
  obtain ⟨hclosed, hsent⟩ := hr.closed (congrArg Pipe.closed hempty)
  have hqueue := hr.queue
  rw [hsent, hempty] at hqueue
  refine ⟨?_, ?_⟩
  · show r.1.link.toSession = _
    rw [← hclosed]
    exact congrArg (Pipe.mk · r.1.link.toSession.closed) hqueue
  · show History.dropped (r.2 ++ w.history) = []
    rw [History.dropped_append, hr.dropped, hdropped]
    rfl

theorem run_drained {w : World κ τ} (hw : w.Reached) (hd : w.Drained) {ms : List Move}
    (hms : w.Atomic ms) : (w.run ms).Drained := by
  induction ms generalizing w with
  | nil => exact hd
  | cons m ms ih =>
    obtain ⟨hfirst, hrest⟩ := hms
    refine ih (hw.move m) ?_ hrest
    cases m with
    | thread => exact hd.thread hw (w.session.advances w.stage)
    | host a =>
      have hst : w.stage.isAsking = false := eq_false_of_ne_true fun hasking =>
        nomatch hfirst hasking
      exact hd.host hst (w.session.hosted a)

/-- with the two looks in one, a session that is over without a fault, and was not told to stop, has
obeyed all that was sent; or it had no interval to wait for -/
theorem Drained.obeyed_all {w : World κ τ} (hd : w.Drained) (hw : w.Reached) {r : Option RunError}
    (hr : w.stage = .stopped r) (hf : w.session.fault = none) (hs : .shutdown ∉ w.history.sent) :
    (w.session.link.toSession.closed = true ∧ w.history.obeyed = w.history.sent) ∨
      (r = some .noInterval ∧ w.session.tickInterval = none) := by
  obtain ⟨-, hsent, hheard, -⟩ := hw.orderly
  rw [hr] at hheard
  have hresult : w.stage.result = some r := by
    rw [hr]
    rfl
  have hended : w.stage.ended = true := by
    rw [hr]
    rfl
  refine (hw.cause r hresult).imp_left fun ⟨_, m, hm, he⟩ => ?_
  have hcalm : m.escape = none := by
    by_contra hne
    obtain ⟨e, hesc⟩ := Option.ne_none_iff_exists'.mp hne
    have hfault := (hw.policed.told hended e.toFault).mpr ⟨e, ⟨m, hm, hesc⟩, rfl⟩
    rw [hf] at hfault
    cases hfault
  have hunshut : m ≠ .obeyed .shutdown none := by
    rintro rfl
    refine hs ?_
    rw [hsent, hheard]
    have hobeyed : .shutdown ∈ w.history.obeyed :=
      History.mem_messages.mpr ⟨_, hm, List.mem_singleton_self _⟩
    simp [hobeyed]
  obtain rfl := Mark.eq_disconnected he hcalm hunshut
  obtain ⟨hempty, hdropped⟩ := hd.disconnected hm
  refine ⟨congrArg Pipe.closed hempty, ?_⟩
  rw [hsent, hdropped, hempty, hheard]
  simp [Stage.pending]

/-! ## all of it -/

section
omit [Time τ] [Clock κ τ]
variable {w : World κ τ} {n : Nat}

theorem Requested.over (hw : w.Requested) (hasked : .asked n .pending ∈ w.history)
    (hn : .snapshot n ∈ w.history.obeyed ∨ .snapshot n ∈ w.history.dropped) :
    ∃ t, w.session.tickets.get? n = some t ∧
      (t.isSettled = true ∨ t = .running ∧ w.history.Broke n) := by
  obtain ⟨t, ht, hover | ⟨-, hobeyed, hdropped⟩⟩ := hw.asked n hasked
  · exact ⟨t, ht, hover⟩
  · rcases hn with hn | hn
    · exact absurd hn hobeyed
    · exact absurd hn hdropped

theorem Unbroken.settled (hu : w.Unbroken) (hw : w.Requested)
    (hasked : .asked n .pending ∈ w.history)
    (hn : .snapshot n ∈ w.history.obeyed ∨ .snapshot n ∈ w.history.dropped) :
    w.session.tickets.get? n = some .cancelled ∨ w.session.tickets.get? n = some .notified ∨
      ∃ bytes, w.session.tickets.get? n = some (.answered bytes) := by
  obtain ⟨t, ht, hsettled | ⟨-, hbroke⟩⟩ := hw.over hasked hn
  · cases t with
    | cancelled => exact .inl ht
    | notified => exact .inr (.inl ht)
    | answered bytes => exact .inr (.inr ⟨bytes, ht⟩)
    | _ => cases hsettled
  · exact absurd hbroke (hu.whole n)

end

/-- messages are obeyed one in an iteration, in the order of sending, until the shutdown; after it
is heard nothing is executed. A host that closes instead, while nobody moves between the two looks,
has had all its messages obeyed by the end, unless something escaped. No ticket is left open whose
request was obeyed or dropped, and none is left half answered but by a state that could not be put
together; machines that were started fresh or restored, whatever was done to them since, have no
such state. -/
theorem commands_obeyed {c : Console} {clock : κ} {tickInterval : Option τ} {timerInterval : τ}
    {files : Files} {ms : List Move} {w : World κ τ}
    (hw : w = (start c clock tickInterval timerInterval files).run ms) :
    (w.history.obeyed <+: w.history.heard ∧ w.history.heard <+: w.history.sent ∧
      ∀ i ∈ w.history.iterations, i.heard.length ≤ 1 ∧ i.obeyed.length ≤ 1) ∧
    (∀ xs ys, w.history.sent = xs ++ .shutdown :: ys → w.history.heard <+: xs ++ [.shutdown] ∧
      (w.history.iterations.filter History.isBusy).length ≤ xs.length) ∧
    (∀ after before : History, w.history = after ++ .heard .shutdown :: before →
      ∀ n ∈ after, n.trails = true ∨ n = .obeyed .shutdown none) ∧
    ((start c clock tickInterval timerInterval files).Atomic ms → ∀ r, w.stage = .stopped r →
      w.session.fault = none → .shutdown ∉ w.history.sent →
      (w.session.link.toSession.closed = true ∧ w.history.obeyed = w.history.sent) ∨
        (r = some .noInterval ∧ w.session.tickInterval = none)) ∧
    (∀ n, .asked n .pending ∈ w.history →
      .snapshot n ∈ w.history.obeyed ∨ .snapshot n ∈ w.history.dropped →
      ∃ t, w.session.tickets.get? n = some t ∧ t ≠ .pending ∧
        (t = .running → ∃ e, .obeyed (.snapshot n) (some (.cause (.unpackable e))) ∈ w.history)) ∧
    (∀ first ops, Machine.Started first → c.machine = first.run ops →
      ∀ n, .asked n .pending ∈ w.history →
        .snapshot n ∈ w.history.obeyed ∨ .snapshot n ∈ w.history.dropped →
        w.session.tickets.get? n = some .cancelled ∨ w.session.tickets.get? n = some .notified ∨
          ∃ bytes, w.session.tickets.get? n = some (.answered bytes)) := by
  have hstart : (start c clock tickInterval timerInterval files).Reached :=
    ⟨c, clock, tickInterval, timerInterval, files, [], rfl⟩
  have hreached : w.Reached := ⟨c, clock, tickInterval, timerInterval, files, ms, hw⟩
  have horderly := hreached.orderly
  have hpaced := hreached.paced
  have hrequested : w.Requested := by
    rw [hw]
    exact run_requested c clock tickInterval timerInterval files ms
  refine ⟨⟨?_, ?_, fun i hi => ⟨(hpaced.each i hi).1, hpaced.obeyed_le hi⟩⟩,
    fun xs ys hs => ?_, fun after before hsplit n hn => ?_, fun hatomic r hr hf hs => ?_,
    fun n hasked hn => ?_, fun first ops hfirst hc n hasked hn => ?_⟩
  · rw [horderly.heard]
    exact List.prefix_append _ _
  · rw [horderly.sent, List.append_assoc]
    exact List.prefix_append _ _
  · obtain ⟨hpre, hcount⟩ := heard_until_shutdown horderly hreached.trails hs
    exact ⟨hpre, hpaced.length_busy_le.trans hcount⟩
  · exact Mark.trails_or_obeyed_of_allows (hreached.trails.after hsplit n hn)
  · have hdrained : w.Drained := by
      rw [hw]
      exact run_drained hstart ⟨nofun, nofun⟩ hatomic
    exact hdrained.obeyed_all hreached hr hf hs
  · obtain ⟨t, ht, hsettled | ⟨rfl, hbroke⟩⟩ := hrequested.over hasked hn
    · refine ⟨t, ht, ?_, ?_⟩
      · rintro rfl
        cases hsettled
      · rintro rfl
        cases hsettled
    · exact ⟨.running, ht, nofun, fun _ => hbroke⟩
  · have hunbroken : w.Unbroken := by
      rw [hw]
      exact run_unbroken c clock tickInterval timerInterval files
        (hc ▸ Machine.run_wellFormed hfirst.wellFormed ops) ms
    exact hunbroken.settled hrequested hasked hn

theorem atomic_thread (w : World κ τ) (n : Nat) : w.Atomic (List.replicate n .thread) := by
  induction n generalizing w with
  | zero => trivial
  | succ n ih => exact ⟨fun _ => rfl, ih _⟩

/-- the host pauses the machine, asks for a saved state and closes; then the thread runs -/
def closing : List Move :=
  .host (.tell .pause) :: .host (.ask .pending) :: .host .close :: List.replicate 10 .thread

theorem commands_obeyed_closing :
    freshStart.session.machine.Started ∧ freshStart.Atomic closing ∧
      (freshStart.run closing).stage = .stopped none ∧
      (freshStart.run closing).history.sent = [.pause, .snapshot 0] ∧
      (freshStart.run closing).history.obeyed = (freshStart.run closing).history.sent ∧
      ((freshStart.run closing).session.tickets.get? 0 = some .cancelled ∨
        (freshStart.run closing).session.tickets.get? 0 = some .notified ∨
        ∃ bytes, (freshStart.run closing).session.tickets.get? 0 = some (.answered bytes)) := by
  have hatomic : freshStart.Atomic closing := ⟨nofun, nofun, nofun, atomic_thread _ 10⟩
  have hsent : (freshStart.run closing).history.sent = [.pause, .snapshot 0] := rfl
  have hshut : .shutdown ∉ (freshStart.run closing).history.sent := by
    rw [hsent]
    decide
  have hasked : .asked 0 .pending ∈ (freshStart.run closing).history := by
    refine List.mem_of_elem_eq_true ?_
    rfl
  obtain ⟨-, -, -, hclosed, -, hsettled⟩ := commands_obeyed (w := freshStart.run closing) rfl
  obtain ⟨-, hobeyed⟩ | ⟨hnone, -⟩ := hclosed hatomic none rfl rfl hshut
  · have hfirst : freshStart.session.machine.Started := .fresh (.cycle #[]) false
    refine ⟨hfirst, hatomic, rfl, hsent, hobeyed, hsettled _ [] hfirst rfl 0 hasked (.inl ?_)⟩
    rw [hobeyed, hsent]
    decide
  · cases hnone

end World

end ChipEight
