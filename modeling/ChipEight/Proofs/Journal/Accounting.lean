import ChipEight.Journal
import ChipEight.Proofs.Files.Refusals

/-!
# Every entry is written or held

* `Systemic k`            a sink that fails only as the system does;
* `sifted taken k`        of some things those whose lines a sink takes, one after another, or those
                          whose lines it refuses;
* `writeAll_eq`           so entries are written, and those that are not are what is refused;
* `emitTo_eq`             an emission tries what is held and then the new entry, in one go;
* `noting k`              the sink, with a note of every line that it takes;
* `Emission`, `emitAll`   many emissions, and what happens to the world before each;
* `Accounted`             each entry is written once or held once, and those that are held in order;
* `nothing_lost`          so it is after any emissions, whatever the sink refuses;
* `logFile_in_order`      and in a log file the entries stand in order, before those that are held.

Entries are told apart by the numbers of their emissions, since two of them may read the same.
-/

namespace ChipEight.Journal

variable {ω α : Type}

/-! ## one attempt after another -/

def Systemic (k : Sink ω) : Prop := ∀ w line why, (k w line).2 = some why → why.ofSystem = true

def sifted (taken : Bool) (k : Sink ω) (text : α → String) (w : ω) : List α → List α
  | [] => []
  | a :: as =>
    if (k w (text a)).2.isNone = taken then a :: sifted taken k text (k w (text a)).1 as
    else sifted taken k text (k w (text a)).1 as

def outcomes (k : Sink ω) (w : ω) : List String → List Bool
  | [] => []
  | line :: lines => (k w line).2.isNone :: outcomes k (k w line).1 lines

/-- all lines are taken, or all are refused -/
def Alike (k : Sink ω) (w : ω) (lines : List String) : Prop :=
  ∀ a ∈ outcomes k w lines, ∀ b ∈ outcomes k w lines, a = b

variable {k : Sink ω} {text : α → String} {w : ω}

theorem sifted_sublist (taken : Bool) (as : List α) :
    (sifted taken k text w as).Sublist as := by
  induction as generalizing w with
  | nil => exact .slnil
  | cons a as ih =>
    rw [sifted]
    split
    · exact ih.cons_cons a
    · exact ih.cons a

theorem sifted_perm (as : List α) :
    (sifted true k text w as ++ sifted false k text w as).Perm as := by
  induction as generalizing w with
  | nil => exact .nil
  | cons a as ih =>
    cases hfirst : (k w (text a)).2.isNone with
    | true => simpa [sifted, hfirst] using ih
    | false =>
      have hmiddle : (sifted true k text (k w (text a)).1 as ++
          a :: sifted false k text (k w (text a)).1 as).Perm (a :: as) :=
        List.perm_middle.trans (ih.cons a)
      simpa [sifted, hfirst] using hmiddle

theorem sifted_eq_nil {taken : Bool} {as : List α}
    (h : ∀ t ∈ outcomes k w (as.map text), t ≠ taken) : sifted taken k text w as = [] := by
  induction as generalizing w with
  | nil => rfl
  | cons a as ih =>
    have hfirst : (k w (text a)).2.isNone ≠ taken := h _ (List.mem_cons_self ..)
    rw [sifted, if_neg hfirst]
    exact ih fun t ht => h t (List.mem_cons_of_mem _ ht)

theorem sifted_append {as : List α} (h : Alike k w (as.map text)) :
    sifted true k text w as ++ sifted false k text w as = as := by
  induction as generalizing w with
  | nil => rfl
  | cons a as ih =>
    have hrest : sifted true k text (k w (text a)).1 as ++ sifted false k text (k w (text a)).1 as =
        as := by
      apply ih
      intro t ht u hu
      exact h t (List.mem_cons_of_mem _ ht) u (List.mem_cons_of_mem _ hu)
    cases hfirst : (k w (text a)).2.isNone with
    | true => simp [sifted, hfirst, hrest]
    | false =>
      have hnone : sifted true k text (k w (text a)).1 as = [] := by
        apply sifted_eq_nil
        intro t ht
        have hsame := h t (List.mem_cons_of_mem _ ht) _ (List.mem_cons_self ..)
        rw [hsame, hfirst]
        exact Bool.false_ne_true
      rw [hnone, List.nil_append] at hrest
      simp [sifted, hfirst, hnone, hrest]

/-! ## one emission -/

theorem writeAll_eq (hk : Systemic k) (f : α → LogEntry) (as : List α) :
    (writeAll k w (as.map f)).refused.map (·.entry) =
        (sifted false k (fun a => line (f a)) w as).map f ∧
      (writeAll k w (as.map f)).escape = none := by
  induction as generalizing w with
  | nil => exact ⟨rfl, rfl⟩
  | cons a as ih =>
    obtain ⟨hrefused, hescape⟩ := ih (w := (k w (line (f a))).1)
    rw [List.map_cons, writeAll, sifted]
    cases hline : k w (line (f a)) with
    | mk w' r =>
      rw [hline] at hrefused hescape
      cases r with
      | none => exact ⟨hrefused, hescape⟩
      | some why =>
        have hsystem : why.ofSystem = true := hk w (line (f a)) why (by rw [hline])
        dsimp only
        rw [if_pos hsystem]
        refine ⟨?_, hescape⟩
        rw [List.map_cons, hrefused]
        rfl

theorem writeAll_append (hk : Systemic k) (w : ω) (es more : List LogEntry) :
    writeAll k w (es ++ more) =
      let first := writeAll k w es
      let rest := writeAll k first.world more
      ⟨rest.world, first.refused ++ rest.refused, rest.escape⟩ := by
  induction es generalizing w with
  | nil => rfl
  | cons e es ih =>
    rw [List.cons_append, writeAll, writeAll]
    cases hline : k w (line e) with
    | mk w' r =>
      cases r with
      | none => exact ih w'
      | some why =>
        have hsystem : why.ofSystem = true := hk w (line e) why (by rw [hline])
        dsimp only
        rw [if_pos hsystem, if_pos hsystem, ih w']
        rfl

theorem emitTo_eq (hk : Systemic k) (j : Journal) (w : ω) (e : LogEntry) :
    j.emitTo k w e =
      let all := writeAll k w (j.held.map (·.entry) ++ [e])
      ⟨{ j with held := all.refused }, all.world, none⟩ := by
  have hold : (writeAll k w (j.held.map (·.entry))).escape = none :=
    (writeAll_eq hk Held.entry j.held).2
  have hnew : (writeAll k (writeAll k w (j.held.map (·.entry))).world [e]).escape = none :=
    (writeAll_eq hk id [e]).2
  rw [emitTo, writeAll_append hk]
  dsimp only
  rw [hold, hnew]

/-! ## a sink with notes -/

def noting (k : Sink ω) : Sink (ω × List String) := fun w line =>
  match k w.1 line with
  | (w', none) => ((w', w.2 ++ [line]), none)
  | (w', some why) => ((w', w.2), some why)

theorem noting_eq (k : Sink ω) (w : ω × List String) (line : String) :
    noting k w line =
      (((k w.1 line).1, if (k w.1 line).2.isNone then w.2 ++ [line] else w.2),
        (k w.1 line).2) := by
  unfold noting
  cases k w.1 line with
  | mk w' r => cases r <;> rfl

theorem systemic_noting (hk : Systemic k) : Systemic (noting k) := by
  intro w line why h
  rw [noting_eq] at h
  exact hk w.1 line why h

theorem outcomes_noting (w : ω × List String) (lines : List String) :
    outcomes (noting k) w lines = outcomes k w.1 lines := by
  induction lines generalizing w with
  | nil => rfl
  | cons line lines ih => rw [outcomes, outcomes, ih, noting_eq]

theorem writeAll_noting (hk : Systemic k) (w : ω × List String) (f : α → LogEntry) (as : List α) :
    writeAll (noting k) w (as.map f) =
      let plain := writeAll k w.1 (as.map f)
      ⟨(plain.world,
        w.2 ++ (sifted true (noting k) (fun a => line (f a)) w as).map fun a => line (f a)),
        plain.refused, none⟩ := by
  induction as generalizing w with
  | nil => simp [writeAll, sifted]
  | cons a as ih =>
    rw [List.map_cons, writeAll, writeAll, sifted, noting_eq]
    cases hline : k w.1 (line (f a)) with
    | mk w' r =>
      cases r with
      | none => simp [ih]
      | some why =>
        have hsystem : why.ofSystem = true := hk w.1 (line (f a)) why (by rw [hline])
        simp [hsystem, ih]

theorem emitTo_noting (hk : Systemic k) (j : Journal) (w : ω × List String) (e : LogEntry) :
    (j.emitTo (noting k) w e).journal = (j.emitTo k w.1 e).journal ∧
      (j.emitTo (noting k) w e).world.1 = (j.emitTo k w.1 e).world := by
  have hplain := writeAll_noting hk w id (j.held.map (·.entry) ++ [e])
  rw [List.map_id] at hplain
  rw [emitTo_eq hk, emitTo_eq (systemic_noting hk), hplain]
  exact ⟨rfl, rfl⟩

/-! ## accounts -/

/-- numbered entries, each of which was written once or is held once; those that are held are in
order, and if `ordered` holds, then so are all of them, the written ones first -/
def Accounted (ordered : Prop) (numbered : List (LogEntry × Nat)) (lines : List String)
    (held : List Held) : Prop :=
  ∃ written kept : List (LogEntry × Nat),
    lines = written.map (fun p => line p.1) ∧ held.map (·.entry) = kept.map (·.1) ∧
    (written ++ kept).Perm numbered ∧ kept.Sublist numbered ∧
    (ordered → written ++ kept = numbered)

theorem Accounted.imp {P Q : Prop} {numbered : List (LogEntry × Nat)} {lines : List String}
    {held : List Held} (h : Accounted P numbered lines held) (hQP : Q → P) :
    Accounted Q numbered lines held := by
  obtain ⟨written, kept, hlines, hheld, hperm, hsublist, hordered⟩ := h
  exact ⟨written, kept, hlines, hheld, hperm, hsublist, fun hQ => hordered (hQP hQ)⟩

/-- the lines that are tried when an entry is emitted -/
def attempts (j : Journal) (e : LogEntry) : List String :=
  (j.held.map (·.entry) ++ [e]).map line

theorem Accounted.emitTo (hk : Systemic k) {P : Prop} {past : List (LogEntry × Nat)}
    {lines : List String} {j : Journal} (h : Accounted P past lines j.held) (w : ω)
    (e : LogEntry) (n : Nat) :
    Accounted (P ∧ Alike k w (j.attempts e)) (past ++ [(e, n)])
      (j.emitTo (noting k) (w, lines) e).world.2
      (j.emitTo (noting k) (w, lines) e).journal.held := by
  obtain ⟨written, kept, hlines, hheld, hperm, hsublist, hordered⟩ := h
  have htried : j.held.map (·.entry) ++ [e] = (kept ++ [(e, n)]).map (·.1) := by
    rw [hheld, List.map_append]
    rfl
  rw [emitTo_eq (systemic_noting hk), htried]
  dsimp only
  have hrefused := (writeAll_eq (systemic_noting hk) (w := (w, lines)) Prod.fst
    (kept ++ [(e, n)])).1
  rw [writeAll_noting hk] at hrefused ⊢
  dsimp only at hrefused ⊢
  refine ⟨written ++ sifted true (noting k) (fun p => line p.1) (w, lines) (kept ++ [(e, n)]),
    sifted false (noting k) (fun p => line p.1) (w, lines) (kept ++ [(e, n)]), ?_, hrefused, ?_, ?_,
    ?_⟩
  · rw [hlines, List.map_append]
  · rw [List.append_assoc]
    refine ((sifted_perm _).append_left written).trans ?_
    rw [← List.append_assoc]
    exact hperm.append_right _
  · exact (sifted_sublist false _).trans (hsublist.append_right _)
  · rintro ⟨hP, halike⟩
    have hsame : Alike (noting k) (w, lines) ((kept ++ [(e, n)]).map fun p => line p.1) := by
      unfold Alike
      rw [outcomes_noting]
      rw [attempts, htried, List.map_map] at halike
      exact halike
    rw [List.append_assoc, sifted_append hsame, ← List.append_assoc, hordered hP]

/-! ## many emissions -/

structure Emission (ω : Type) where
  /-- what happens to the world before -/
  before : ω → ω
  entry : LogEntry

def emitAll (k : Sink ω) (j : Journal) (w : ω) : List (Emission ω) → Journal × ω
  | [] => (j, w)
  | m :: ms =>
    let r := j.emitTo k (m.before w) m.entry
    emitAll k r.journal r.world ms

def Emission.noted (m : Emission ω) : Emission (ω × List String) :=
  ⟨fun w => (m.before w.1, w.2), m.entry⟩

/-- within each emission the lines are all taken or all refused -/
def Steady (k : Sink ω) (j : Journal) (w : ω) : List (Emission ω) → Prop
  | [] => True
  | m :: ms =>
    Alike k (m.before w) (j.attempts m.entry) ∧
      Steady k (j.emitTo k (m.before w) m.entry).journal
        (j.emitTo k (m.before w) m.entry).world ms

theorem emitAll_noting (hk : Systemic k) (j : Journal) (w : ω × List String)
    (ms : List (Emission ω)) :
    (emitAll (noting k) j w (ms.map Emission.noted)).1 = (emitAll k j w.1 ms).1 ∧
      (emitAll (noting k) j w (ms.map Emission.noted)).2.1 = (emitAll k j w.1 ms).2 := by
  induction ms generalizing j w with
  | nil => exact ⟨rfl, rfl⟩
  | cons m ms ih =>
    obtain ⟨hjournal, hworld⟩ := emitTo_noting hk j (m.before w.1, w.2) m.entry
    rw [List.map_cons, emitAll, emitAll]
    dsimp only [Emission.noted]
    rw [← hjournal, ← hworld]
    exact ih _ _

theorem Accounted.emitAll (hk : Systemic k) {P : Prop} {past : List (LogEntry × Nat)}
    {lines : List String} {j : Journal} (h : Accounted P past lines j.held) (w : ω)
    (ms : List (Emission ω)) :
    Accounted (P ∧ Steady k j w ms) (past ++ (ms.map (·.entry)).zipIdx past.length)
      (Journal.emitAll (noting k) j (w, lines) (ms.map Emission.noted)).2.2
      (Journal.emitAll (noting k) j (w, lines) (ms.map Emission.noted)).1.held := by
  induction ms generalizing P past lines j w with
  | nil =>
    rw [List.map_nil, List.zipIdx_nil, List.append_nil]
    exact h.imp And.left
  | cons m ms ih =>
    obtain ⟨hjournal, hworld⟩ := emitTo_noting hk j (m.before w, lines) m.entry
    have hfirst := h.emitTo hk (m.before w) m.entry past.length
    have hrest := ih hfirst (j.emitTo (noting k) (m.before w, lines) m.entry).world.1
    rw [List.append_assoc, List.length_append, List.length_singleton] at hrest
    rw [List.map_cons, List.zipIdx_cons]
    refine hrest.imp ?_
    rintro ⟨hP, halike, hsteady⟩
    rw [hjournal, hworld]
    exact ⟨⟨hP, halike⟩, hsteady⟩

/-- whatever the system refuses of what is written, and whatever happens to the world in between,
after any emissions each entry was written once or is held once, and the journal is as it is without
the notes; and no emission breaks off -/
theorem nothing_lost (hk : Systemic k) (file : String) (w : ω) (ms : List (Emission ω)) :
    ∃ j w' lines,
      emitAll (noting k) (ofFile file) (w, []) (ms.map Emission.noted) = (j, w', lines) ∧
      emitAll k (ofFile file) w ms = (j, w') ∧
      Accounted (Steady k (ofFile file) w ms) (ms.map (·.entry)).zipIdx lines j.held ∧
      ∀ e, (j.emitTo k w' e).escape = none := by
  have hempty : Accounted True [] [] (ofFile file).held :=
    ⟨[], [], rfl, rfl, .nil, .slnil, fun _ => rfl⟩
  have hall := hempty.emitAll hk w ms
  obtain ⟨hjournal, hworld⟩ := emitAll_noting hk (ofFile file) (w, []) ms
  refine ⟨_, _, _, rfl, ?_, hall.imp fun h => ⟨trivial, h⟩, ?_⟩
  · rw [hjournal, hworld]
  · intro e
    rw [emitTo_eq hk]

/-- refuses the first and the third line that it is given -/
def flaky : Sink Nat := fun n _ =>
  if n = 0 ∨ n = 2 then (n + 1, some .missing) else (n + 1, none)

theorem systemic_flaky : Systemic flaky := by
  intro n line why h
  unfold flaky at h
  split at h
  · cases h
    rfl
  · cases h

theorem nothing_lost_flaky :
    ∃ j w' lines,
      emitAll (noting flaky) (ofFile "log") (0, [])
        ([⟨id, .info "a"⟩, ⟨id, .info "b"⟩].map Emission.noted) = (j, w', lines) ∧
      lines = ["[INFO] Chip8: a\n"] ∧ j.held = [⟨.info "b", .missing⟩] ∧
      Accounted (Steady flaky (ofFile "log") 0 [⟨id, .info "a"⟩, ⟨id, .info "b"⟩])
        [(.info "a", 0), (.info "b", 1)] lines j.held := by
  obtain ⟨j, w', lines, hrun, -, haccount, -⟩ :=
    nothing_lost systemic_flaky "log" 0 [⟨id, .info "a"⟩, ⟨id, .info "b"⟩]
  refine ⟨j, w', lines, hrun, ?_, ?_, haccount⟩
  · cases hrun
    decide +kernel
  · cases hrun
    decide +kernel

/-! ## log files -/

variable {file : String}

theorem systemic_sink (h : '\x00' ∉ file.toList) : Systemic (Files.sink file) := by
  intro fs line why hwhy
  unfold Files.sink at hwhy
  cases happend : fs.append file line.toUTF8.toList with
  | ok fs' =>
    rw [happend] at hwhy
    cases hwhy
  | error e =>
    rw [happend] at hwhy
    cases hwhy
    cases why with
    | embeddedNul => exact absurd (Files.append_nul_iff.mp happend) h
    | _ => rfl

theorem isNone_sink (fs : Files) (line : String) :
    (Files.sink file fs line).2.isNone = (fs.append file []).isOk := by
  rw [Files.append_alike fs file [] line.toUTF8.toList, Files.sink]
  cases fs.append file line.toUTF8.toList <;> rfl

theorem append_sink (fs : Files) (line : String) :
    ((Files.sink file fs line).1.append file []).isOk = (fs.append file []).isOk := by
  rw [Files.append_alike fs file [] line.toUTF8.toList, Files.sink]
  cases happend : fs.append file line.toUTF8.toList with
  | ok fs' => exact Files.append_again happend []
  | error e =>
    show (fs.append file []).isOk = _
    rw [Files.append_alike fs file [] line.toUTF8.toList, happend]

/-- nothing but what happens in between decides whether lines are taken -/
theorem outcomes_sink (fs : Files) (lines : List String) :
    ∀ t ∈ outcomes (Files.sink file) fs lines, t = (fs.append file []).isOk := by
  induction lines generalizing fs with
  | nil => nofun
  | cons line lines ih =>
    rw [outcomes, List.forall_mem_cons]
    refine ⟨isNone_sink fs line, ?_⟩
    rw [← append_sink fs line]
    exact ih (Files.sink file fs line).1

theorem steady_sink (j : Journal) (fs : Files) (ms : List (Emission Files)) :
    Steady (Files.sink file) j fs ms := by
  induction ms generalizing j fs with
  | nil => trivial
  | cons m ms ih =>
    refine ⟨?_, ih _ _⟩
    intro a ha b hb
    rw [outcomes_sink _ _ a ha, outcomes_sink _ _ b hb]

def emitMany (j : Journal) (fs : Files) : List (Emission Files) → Journal × Files
  | [] => (j, fs)
  | m :: ms =>
    let r := j.emit (m.before fs) m.entry
    emitMany r.journal r.world ms

theorem file_emitTo (k : Sink ω) (j : Journal) (w : ω) (e : LogEntry) :
    (j.emitTo k w e).journal.file = j.file := by
  unfold emitTo
  dsimp only
  split <;> rfl

theorem emitMany_eq (j : Journal) (fs : Files) (ms : List (Emission Files)) :
    j.emitMany fs ms = emitAll (Files.sink j.file) j fs ms := by
  induction ms generalizing j fs with
  | nil => rfl
  | cons m ms ih =>
    rw [emitMany, emitAll, ih, emit, file_emitTo]

/-- whatever happens to the files in between, the lines that were written and those of the entries
that are held are those of all entries, in order -/
theorem logFile_in_order (h : '\x00' ∉ file.toList) (fs : Files) (ms : List (Emission Files)) :
    ∃ j fs' lines,
      (ofFile file).emitMany fs ms = (j, fs') ∧
      emitAll (noting (Files.sink (Path.normal file))) (ofFile file) (fs, [])
        (ms.map Emission.noted) = (j, fs', lines) ∧
      lines ++ j.held.map (fun x => line x.entry) = ms.map fun m => line m.entry := by
  have hsystemic := systemic_sink (mt (Path.normal_nul_iff file).mp h)
  obtain ⟨j, fs', lines, hnoted, hplain, ⟨written, kept, hlines, hheld, -, -, hordered⟩, -⟩ :=
    nothing_lost hsystemic file fs ms
  have hall : written ++ kept = (ms.map (·.entry)).zipIdx :=
    hordered (steady_sink (ofFile file) fs ms)
  refine ⟨j, fs', lines, (emitMany_eq (ofFile file) fs ms).trans hplain, hnoted, ?_⟩
  have hheldLines : j.held.map (fun x => line x.entry) = kept.map fun p => line p.1 := by
    have hmapped := congrArg (List.map line) hheld
    rwa [List.map_map, List.map_map] at hmapped
  rw [hlines, hheldLines, ← List.map_append, hall]
  have hfirst := congrArg (List.map line) (List.zipIdx_map_fst 0 (ms.map (·.entry)))
  rwa [List.map_map, List.map_map] at hfirst

end ChipEight.Journal
