import ChipEight.Proofs.Keyboard.LastWins
import ChipEight.Proofs.Settings.Loading
import ChipEight.Proofs.Settings.Merging

/-!
# Keyboard overrides

* `Keyboard.reading? e`   the key and the code that an entry binds, if it names both;
* `bindEntries_read`      entries that can all be read are bound one after another;
* `bound_iff`             what an entry binds stays bound if nothing after it has the same code;
* `override_bound_iff`    an entry of a file is bound in the end unless a default that follows its
  place, and that the file does not change, has the same code;
* `override_lost`         so there are entries that are not.
-/

namespace ChipEight

namespace Keyboard

def reading? (e : String × Value) : Option (Key × Int) :=
  match Key.ofName e.1, e.2 with
  | .ok k, .str physical =>
    match physicalCode physical with
    | .ok c => some (k, c)
    | .error _ => none
  | _, _ => none

variable {e : String × Value} {k : Key} {c : Int}

theorem reading?_eq_some_iff :
    reading? e = some (k, c) ↔
      Key.ofName e.1 = .ok k ∧ ∃ physical, e.2 = .str physical ∧ physicalCode physical = .ok c := by
  unfold reading?
  constructor
  · intro h
    split at h
    · rename_i hkey hvalue
      split at h
      · rename_i hcode
        cases h
        exact ⟨hkey, _, hvalue, hcode⟩
      · cases h
    · cases h
  · rintro ⟨hkey, physical, hvalue, hcode⟩
    rw [hkey, hvalue]
    dsimp only
    rw [hcode]

/-! ## the usual entries -/

theorem usual_read : ∀ e ∈ Settings.Section.keyboard.usual, (reading? e).isSome := by
  decide +kernel

theorem usual_distinct : Settings.Section.keyboard.usual.Distinct := by
  unfold Table.Distinct
  decide +kernel

theorem usual_keys_apart :
    (Settings.Section.keyboard.usual.filterMap reading?).Pairwise fun p q => p.1 ≠ q.1 := by
  decide +kernel

end Keyboard

open Keyboard

namespace Bindings

variable {b : Bindings} {e : String × Value} {k : Key} {c : Int} {entries : List (String × Value)}

theorem bindEntry_read (h : reading? e = some (k, c)) :
    b.bindEntry e.1 e.2 = (.ok (b.bind k c), []) := by
  obtain ⟨hkey, physical, hvalue, hcode⟩ := reading?_eq_some_iff.1 h
  rw [bindEntry, hkey, hvalue]
  dsimp only
  rw [hcode]

theorem bindEntries_read (h : ∀ e ∈ entries, (reading? e).isSome) :
    b.bindEntries entries = (.ok (b.bindAll (entries.filterMap reading?)), []) := by
  induction entries generalizing b with
  | nil => rfl
  | cons e rest ih =>
    obtain ⟨he, hrest⟩ := List.forall_mem_cons.1 h
    obtain ⟨⟨k, c⟩, hread⟩ := Option.isSome_iff_exists.1 he
    obtain ⟨name, v⟩ := e
    rw [bindEntries, bindEntry_read hread, List.filterMap_cons_some hread]
    dsimp only
    rw [ih hrest]
    rfl

theorem bound_iff (hb : b.OneToOne) (before : List (Key × Int)) {after : List (Key × Int)}
    (hkey : ∀ p ∈ after, p.1 ≠ k) :
    ((b.bindAll (before ++ (k, c) :: after)).codeOf? k = some c ∧
      (b.bindAll (before ++ (k, c) :: after)).keyOf? c = some k) ↔ ∀ p ∈ after, p.2 ≠ c := by
  have hdone : (b.bindAll (before ++ (k, c) :: after)).OneToOne := hb.bindAll _
  rw [codeOf?_eq_some_iff hdone, keyOf?_eq_some_iff hdone, and_self, bindAll_append, bindAll,
    mem_bindAll]
  constructor
  · rintro (⟨before', after', rfl, -⟩ | ⟨-, hafter⟩)
    · exact absurd rfl (hkey (k, c) (List.mem_append_right _ List.mem_cons_self))
    · exact fun p hp => (hafter p hp).2
  · exact fun hcode => .inr ⟨mem_bind.2 (.inl rfl), fun p hp => ⟨hkey p hp, hcode p hp⟩⟩

end Bindings

namespace Settings

variable {fs : Files} {path : String} {o t : Table} {entries : Table} {k k' : Key} {c c' : Int}

/-! ## entries of a file -/

theorem isTable_of_read {e : String × Value} (h : (reading? e).isSome) : e.2.isTable = false := by
  obtain ⟨⟨k, c⟩, hread⟩ := Option.isSome_iff_exists.1 h
  obtain ⟨-, physical, hvalue, -⟩ := reading?_eq_some_iff.1 hread
  rw [hvalue]
  rfl

theorem distinct_of_keys_apart (hread : ∀ e ∈ entries, (reading? e).isSome)
    (hapart : (entries.filterMap reading?).Pairwise fun p q => p.1 ≠ q.1) : entries.Distinct := by
  rw [List.pairwise_filterMap] at hapart
  refine List.pairwise_map.2 (hapart.imp_of_mem fun {e f} he hf h heq => ?_)
  obtain ⟨⟨k, c⟩, hreadE⟩ := Option.isSome_iff_exists.1 (hread e he)
  obtain ⟨⟨k', c'⟩, hreadF⟩ := Option.isSome_iff_exists.1 (hread f hf)
  have hk := (reading?_eq_some_iff.1 hreadE).1
  have hk' := (reading?_eq_some_iff.1 hreadF).1
  rw [heq, hk'] at hk
  cases hk
  exact h _ hreadE _ hreadF rfl

theorem reading_apart
    (hapart : (entries.filterMap reading?).Pairwise fun p q => p.1 ≠ q.1 ∧ p.2 ≠ q.2)
    {e f : String × Value} (he : e ∈ entries) (hf : f ∈ entries) (hne : f.1 ≠ e.1)
    (hread : reading? e = some (k, c)) (hread' : reading? f = some (k', c')) :
    k' ≠ k ∧ c' ≠ c := by
  rw [List.pairwise_filterMap] at hapart
  have hsymm : Std.Symm fun e f : String × Value => ∀ p, reading? e = some p →
      ∀ q, reading? f = some q → p.1 ≠ q.1 ∧ p.2 ≠ q.2 :=
    ⟨fun _ _ h p hp q hq => ⟨(h q hq p hp).1.symm, (h q hq p hp).2.symm⟩⟩
  exact hapart.forall hf he (fun heq => hne (heq ▸ rfl)) _ hread' _ hread

theorem usual_later_key {name : String} {d : String × Value}
    (hd : d ∈ Section.keyboard.usual.later name) (hname : Key.ofName name = .ok k)
    (hread : reading? d = some (k', c')) : k' ≠ k := by
  have hapart := usual_keys_apart
  rw [List.pairwise_filterMap] at hapart
  by_cases hkey : name ∈ Section.keyboard.usual.keys
  · obtain ⟨before, w, heq⟩ := Table.eq_append_later hkey
    have hmem : (name, w) ∈ Section.keyboard.usual :=
      heq ▸ List.mem_append_right _ List.mem_cons_self
    obtain ⟨⟨k'', c''⟩, hreadName⟩ := Option.isSome_iff_exists.1 (usual_read _ hmem)
    have hk := (reading?_eq_some_iff.1 hreadName).1
    rw [hname] at hk
    cases hk
    rw [heq] at hapart
    have hafter := List.rel_of_pairwise_cons (List.pairwise_append.1 hapart).2.1 hd
    exact (hafter _ hreadName _ hread).symm
  · rw [Table.later_of_not_mem hkey] at hd
    cases hd

theorem look_keyboard (hdoc : document? fs path = some o)
    (hentries : o.get? "keyboard" = some (.table entries)) (hload : load fs path = .ok (t, [])) :
    look (.table t) "keyboard" = .ok (.table (Section.keyboard.usual.merge entries)) := by
  have hlook := look_merge (document?_distinct hdoc) .keyboard
  have hgiven : Section.keyboard.given o = .table (Section.keyboard.usual.merge entries) := by
    rw [Section.given, Section.name, hentries]
    exact Value.over_table _ _
  obtain ⟨-, hlog⟩ | ⟨-, rfl, -⟩ := load_document_eq_ok hdoc hload
  · exact absurd rfl hlog
  · rw [← hgiven]
    exact hlook

/-- An entry of a file takes effect just if no usual entry that follows its own place, and that the
file leaves alone, has the same code. -/
theorem override_bound_iff (hdoc : document? fs path = some o)
    (hentries : o.get? "keyboard" = some (.table entries))
    (hread : ∀ e ∈ entries, (reading? e).isSome)
    (hapart : (entries.filterMap reading?).Pairwise fun p q => p.1 ≠ q.1 ∧ p.2 ≠ q.2)
    (hload : load fs path = .ok (t, [])) :
    ∃ keyboard b, look (.table t) "keyboard" = .ok (.table keyboard) ∧
      Bindings.ofEntries keyboard = (.ok b, []) ∧
      ∀ e ∈ entries, ∀ k c, reading? e = some (k, c) →
        ((b.codeOf? k = some c ∧ b.keyOf? c = some k) ↔
          ∀ d ∈ Section.keyboard.usual.later e.1,
            d.1 ∈ entries.keys ∨ (reading? d).map Prod.snd ≠ some c) := by
  have hdistinct := distinct_of_keys_apart hread (hapart.imp And.left)
  have hplain : ∀ e ∈ entries, e.2.isTable = false := fun e he => isTable_of_read (hread e he)
  have hall : ∀ e ∈ Section.keyboard.usual.merge entries, (reading? e).isSome := fun e he =>
    (Table.mem_of_mem_merge usual_distinct hdistinct hplain he).elim (usual_read e) (hread e)
  refine ⟨_, _, look_keyboard hdoc hentries hload, Bindings.bindEntries_read hall, ?_⟩
  intro e he k c hbinds
  obtain ⟨before, after, hmerge, hafter, hlater⟩ :=
    Table.merge_eq_append usual_distinct hdistinct hplain he
  have hkey : ∀ p ∈ after.filterMap reading?, p.1 ≠ k := by
    intro p hp
    obtain ⟨d, hd, hreads⟩ := List.mem_filterMap.1 hp
    rcases hafter d hd with ⟨hmem, hne⟩ | ⟨hmem, -⟩
    · exact (reading_apart hapart he hmem hne hbinds hreads).1
    · exact usual_later_key hmem (reading?_eq_some_iff.1 hbinds).1 hreads
  rw [hmerge, List.filterMap_append, List.filterMap_cons_some hbinds,
    Bindings.bound_iff Bindings.usual_oneToOne _ hkey]
  constructor
  · intro h d hd
    by_cases hchanged : d.1 ∈ entries.keys
    · exact .inl hchanged
    · refine .inr fun hcode => ?_
      obtain ⟨p, hp, hc⟩ := Option.map_eq_some_iff.1 hcode
      exact h p (List.mem_filterMap.2 ⟨d, hlater d hd hchanged, hp⟩) hc
  · intro h p hp hc
    obtain ⟨d, hd, hreads⟩ := List.mem_filterMap.1 hp
    rcases hafter d hd with ⟨hmem, hne⟩ | ⟨hmem, hunchanged⟩
    · exact (reading_apart hapart he hmem hne hbinds hreads).2 hc
    · refine ((h d hmem).resolve_left hunchanged) ?_
      rw [hreads, ← hc]
      rfl

/-! ## a file that binds one key in vain -/

def ofStrings (l : List (String × String)) : Table := l.map fun p => (p.1, .str p.2)

def strings? : Table → Option (List (String × String))
  | [] => some []
  | (key, .str s) :: rest => (strings? rest).map ((key, s) :: ·)
  | _ => none

theorem eq_of_strings? {l : List (String × String)} (h : strings? t = some l) :
    t = ofStrings l := by
  induction t generalizing l with
  | nil =>
    cases h
    rfl
  | cons e rest ih =>
    obtain ⟨key, v⟩ := e
    cases v with
    | str s =>
      obtain ⟨l', hrest, rfl⟩ := Option.map_eq_some_iff.1 h
      rw [ih hrest]
      rfl
    | _ => cases h

/-- the keyboard of a document, if it holds strings only -/
def keyboard? (o : Table) : Option (List (String × String)) :=
  match o.get? "keyboard" with
  | some (.table entries) => strings? entries
  | _ => none

theorem get?_of_keyboard? {l : List (String × String)} (h : keyboard? o = some l) :
    o.get? "keyboard" = some (.table (ofStrings l)) := by
  unfold keyboard? at h
  split at h
  · rename_i entries hentries
    rw [hentries, eq_of_strings? h]
  · cases h

/-- key 1 gets a code of key 4, and key F one that no key has -/
def oneIsQ : Files :=
  ⟨[(["c.toml"], .file "[keyboard]\n1 = \"q\"\nF = \"p\"\n".toUTF8.toList)]⟩

theorem document_oneIsQ :
    ∃ o, document? oneIsQ "c.toml" = some o ∧
      o.get? "keyboard" = some (.table (ofStrings [("1", "q"), ("F", "p")])) := by
  have h : (document? oneIsQ "c.toml").bind keyboard? = some [("1", "q"), ("F", "p")] := by
    decide +kernel
  obtain ⟨o, hdoc, hkeyboard⟩ := Option.bind_eq_some_iff.1 h
  exact ⟨o, hdoc, get?_of_keyboard? hkeyboard⟩

theorem load_oneIsQ : ∃ t, load oneIsQ "c.toml" = .ok (t, []) := by
  have h : (load oneIsQ "c.toml").toOption.any (·.2.isEmpty) = true := by decide +kernel
  cases hload : load oneIsQ "c.toml" with
  | error e =>
    rw [hload] at h
    cases h
  | ok r =>
    obtain ⟨t, log⟩ := r
    rw [hload] at h
    cases List.isEmpty_iff.1 h
    exact ⟨t, rfl⟩

theorem override_bound_iff_oneIsQ :
    ∃ t keyboard b, load oneIsQ "c.toml" = .ok (t, []) ∧
      look (.table t) "keyboard" = .ok (.table keyboard) ∧
      Bindings.ofEntries keyboard = (.ok b, []) ∧
      (b.codeOf? 0xF = some 112 ∧ b.keyOf? 112 = some 0xF) ∧
      ¬(b.codeOf? 1 = some 113 ∧ b.keyOf? 113 = some 1) := by
  obtain ⟨o, hdoc, hentries⟩ := document_oneIsQ
  obtain ⟨t, hload⟩ := load_oneIsQ
  obtain ⟨keyboard, b, hlook, hbind, hiff⟩ :=
    override_bound_iff hdoc hentries (by decide +kernel) (by decide +kernel) hload
  refine ⟨t, keyboard, b, hload, hlook, hbind, ?_, ?_⟩
  · exact (hiff ("F", .str "p") (.tail _ (.head _)) 0xF 112 (by decide +kernel)).2
      (by decide +kernel)
  · exact mt (hiff ("1", .str "q") (.head _) 1 113 (by decide +kernel)).1 (by decide +kernel)

theorem override_lost :
    ¬∀ (fs : Files) (path : String) (o entries t keyboard : Table) (b : Bindings),
      document? fs path = some o → o.get? "keyboard" = some (.table entries) →
      (∀ e ∈ entries, (reading? e).isSome) →
      ((entries.filterMap reading?).Pairwise fun p q => p.1 ≠ q.1 ∧ p.2 ≠ q.2) →
      load fs path = .ok (t, []) → look (.table t) "keyboard" = .ok (.table keyboard) →
      Bindings.ofEntries keyboard = (.ok b, []) →
      ∀ e ∈ entries, ∀ k c, reading? e = some (k, c) → b.codeOf? k = some c := by
  intro h
  obtain ⟨o, hdoc, hentries⟩ := document_oneIsQ
  obtain ⟨t, hload⟩ := load_oneIsQ
  have hread : ∀ e ∈ Section.keyboard.usual.merge (ofStrings [("1", "q"), ("F", "p")]),
      (reading? e).isSome := by decide +kernel
  have hcode := h _ _ _ _ _ _ _ hdoc hentries (by decide +kernel) (by decide +kernel) hload
    (look_keyboard hdoc hentries hload) (Bindings.bindEntries_read (b := .usual) hread)
    ("1", .str "q") (.head _) 1 113 (by decide +kernel)
  revert hcode
  decide +kernel

end Settings

end ChipEight
