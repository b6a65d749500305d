import Mathlib.Data.Fintype.Card
import ChipEight.Keyboard.TwoWay
import ChipEight.Proofs.Keyboard.LastWins

/-!
# Both sides hold the same bindings

* `unlink_swap`        what is taken out of two dictionaries that are each other's reverse leaves
                       two that are, and everything to be taken out is there;
* `bind_ofBindings`    so bindings kept from both sides are bound as those kept in one list are;
* `Move`, `run`        bindings, resets and tables of entries, one after another;
* `run_ofBindings`     as long as one likes;
* `sides_agree`        what can be looked up then, and what the next binding changes.
-/

namespace ChipEight

/-! ## dictionaries -/

namespace Dict

variable {α β : Type} {d : Dict α β} {a : α} {b : β}

def OneToOne (d : Dict α β) : Prop := d.Pairwise fun p q => p.1 ≠ q.1 ∧ p.2 ≠ q.2

theorem OneToOne.swap (h : d.OneToOne) : Dict.OneToOne (d.map Prod.swap) := by
  refine List.pairwise_map.mpr (h.imp ?_)
  intro p q hpq
  exact ⟨hpq.2, hpq.1⟩

theorem OneToOne.keys (h : d.OneToOne) : (d.map Prod.fst).Nodup :=
  List.pairwise_map.mpr (h.imp And.left)

theorem map_swap_swap (d : Dict α β) : (d.map Prod.swap).map Prod.swap = d := by
  induction d with
  | nil => rfl
  | cons p rest ih => rw [List.map_cons, List.map_cons, ih, Prod.swap_swap]

theorem swap_filter_swap (d : Dict α β) (f : β × α → Bool) :
    ((d.map Prod.swap).filter f).map Prod.swap = d.filter (f ∘ Prod.swap) := by
  rw [List.filter_map, map_swap_swap]

variable [DecidableEq α]

theorem get?_eq_none_iff : d.get? a = none ↔ ∀ p ∈ d, p.1 ≠ a := by
  rw [get?, Option.map_eq_none_iff, List.find?_eq_none]
  simp only [beq_iff_eq, ne_eq]

theorem mem_of_get? (h : d.get? a = some b) : (a, b) ∈ d := by
  obtain ⟨p, hfind, rfl⟩ := Option.map_eq_some_iff.mp h
  have ha : (p.1 == a) = true := List.find?_some (p := fun q : α × β => q.1 == a) hfind
  rw [← beq_iff_eq.mp ha]
  exact List.mem_of_find?_eq_some hfind

theorem isSome_get? (h : (a, b) ∈ d) : (d.get? a).isSome := by
  cases hget : d.get? a with
  | none => exact absurd rfl (get?_eq_none_iff.mp hget (a, b) h)
  | some b => rfl

theorem without_of_none (h : d.get? a = none) : d.without a = d := by
  refine List.filter_eq_self.mpr ?_
  intro p hp
  exact bne_iff_ne.mpr (get?_eq_none_iff.mp h p hp)

theorem set_of_none (h : d.get? a = none) (b : β) : d.set a b = d ++ [(a, b)] := by
  rw [set, h]
  rfl

theorem get?_without (d : Dict α β) (a : α) : (d.without a).get? a = none := by
  refine get?_eq_none_iff.mpr ?_
  intro p hp
  exact bne_iff_ne.mp (List.mem_filter.mp hp).2

theorem OneToOne.without (h : d.OneToOne) (a : α) : Dict.OneToOne (d.without a) := h.filter _

theorem without_swap [DecidableEq β] (h : d.OneToOne) (hab : (a, b) ∈ d) :
    Dict.without (d.map Prod.swap) b = (d.without a).map Prod.swap := by
  have hside : ∀ p ∈ d, (p.2 != b) = (p.1 != a) := by
    intro p hp
    by_cases heq : p = (a, b)
    · rw [heq, bne_self_eq_false, bne_self_eq_false]
    · have hsymm : Std.Symm fun p q : α × β => p.1 ≠ q.1 ∧ p.2 ≠ q.2 :=
        ⟨fun _ _ hpq => ⟨hpq.1.symm, hpq.2.symm⟩⟩
      obtain ⟨ha, hb⟩ := h.forall hp hab heq
      rw [bne_iff_ne.mpr ha, bne_iff_ne.mpr hb]
  show (d.map Prod.swap).filter (fun p => p.1 != b) = (d.filter fun p => p.1 != a).map Prod.swap
  rw [List.filter_map, ← List.filter_congr hside]
  rfl

end Dict

namespace TwoWay

open Dict

/-! ## one binding -/

theorem unlink_swap {α β : Type} [DecidableEq α] [DecidableEq β] {d : Dict α β}
    (h : d.OneToOne) (a : α) :
    unlink d (d.map Prod.swap) a = .ok (d.without a, (d.without a).map Prod.swap) := by
  unfold unlink
  cases hget : d.get? a with
  | none => rw [without_of_none hget]
  | some b =>
    have hab : (a, b) ∈ d := mem_of_get? hget
    have hba : (b, a) ∈ d.map Prod.swap := List.mem_map.mpr ⟨(a, b), hab, rfl⟩
    show (Dict.delete (d.map Prod.swap) b).map _ = _
    rw [delete, if_pos (isSome_get? hba), without_swap h hab]
    rfl

theorem usual_eq : usual = ofBindings .usual := by decide +kernel

theorem bind_ofBindings {b : Bindings} (hb : b.OneToOne) (k : Key) (c : Int) :
    (ofBindings b).bind k c = .ok (ofBindings (b.bind k c)) := by
  have hkeys : Dict.OneToOne (b.pairs.map Prod.swap) := Dict.OneToOne.swap hb
  have hfirst := unlink_swap hkeys k
  have hsecond := unlink_swap (hkeys.without k).swap c
  rw [map_swap_swap] at hfirst hsecond
  have hleft : Dict.without ((Dict.without (b.pairs.map Prod.swap) k).map Prod.swap) c =
      b.pairs.filter fun p => p.1 != c && p.2 != k := by
    show (((b.pairs.map Prod.swap).filter _).map Prod.swap).filter _ = _
    rw [swap_filter_swap, List.filter_filter]
    rfl
  have hcode : Dict.get? (b.pairs.filter fun p => p.1 != c && p.2 != k) c = none := by
    rw [← hleft]
    exact get?_without _ c
  have hkey :
      Dict.get? ((b.pairs.filter fun p => p.1 != c && p.2 != k).map Prod.swap) k = none := by
    refine get?_eq_none_iff.mpr ?_
    intro p hp
    obtain ⟨q, hq, rfl⟩ := List.mem_map.mp hp
    have hkept := (List.mem_filter.mp hq).2
    simp only [Bool.and_eq_true, bne_iff_ne] at hkept
    exact hkept.2
  show (unlink (b.pairs.map Prod.swap) b.pairs k >>= _) = _
  rw [hfirst]
  show (unlink _ _ c >>= _) = _
  rw [hsecond, hleft]
  show Except.ok (TwoWay.mk (Dict.set _ c k) (Dict.set _ k c)) = _
  rw [set_of_none hcode, set_of_none hkey, ofBindings, Bindings.pairs_bind, List.map_append]
  rfl

/-! ## entries -/

theorem bindEntry_eq (b : Bindings) (name : String) (v : Value) :
    b.bindEntry name v =
      match demand name v with
      | .error e => (.error e, [])
      | .ok (.error warning) => (.ok b, [warning])
      | .ok (.ok (k, c)) => (.ok (b.bind k c), []) := by
  unfold Bindings.bindEntry demand
  cases Key.ofName name with
  | error e => rfl
  | ok k =>
    cases v with
    | str physical =>
      dsimp only
      cases Keyboard.physicalCode physical <;> rfl
    | _ => rfl

def ofResult (r : Except Bindings.EntryError Bindings × List LogEntry) :
    Except Failure TwoWay × List LogEntry :=
  match r with
  | (.ok b, log) => (.ok (ofBindings b), log)
  | (.error e, log) => (.error (.entry e), log)

theorem bindEntry_ofBindings {b : Bindings} (hb : b.OneToOne) (name : String) (v : Value) :
    (ofBindings b).bindEntry name v = ofResult (b.bindEntry name v) := by
  rw [bindEntry_eq, bindEntry]
  cases demand name v with
  | error e => rfl
  | ok asked =>
    cases asked with
    | error warning => rfl
    | ok pair =>
      obtain ⟨k, c⟩ := pair
      dsimp only
      rw [bind_ofBindings hb]
      rfl

theorem oneToOne_bindEntry {b u : Bindings} {name : String} {v : Value} {log : List LogEntry}
    (hb : b.OneToOne) (h : b.bindEntry name v = (.ok u, log)) : u.OneToOne := by
  rw [bindEntry_eq] at h
  split at h
  · cases h
  · cases h
    exact hb
  · cases h
    exact hb.bind _ _

theorem bindEntries_ofBindings {b : Bindings} (hb : b.OneToOne)
    (entries : List (String × Value)) :
    (ofBindings b).bindEntries entries = ofResult (b.bindEntries entries) := by
  induction entries generalizing b with
  | nil => rfl
  | cons e rest ih =>
    obtain ⟨name, v⟩ := e
    rw [bindEntries, Bindings.bindEntries, bindEntry_ofBindings hb]
    cases hentry : b.bindEntry name v with
    | mk r log =>
      cases r with
      | error e => rfl
      | ok u =>
        have hrest := ih (oneToOne_bindEntry hb hentry)
        simp only [ofResult, hrest]
        cases u.bindEntries rest with
        | mk r later => cases r <;> rfl

theorem oneToOne_bindEntries {b u : Bindings} {entries : List (String × Value)}
    {log : List LogEntry} (hb : b.OneToOne) (h : b.bindEntries entries = (.ok u, log)) :
    u.OneToOne := by
  induction entries generalizing b log with
  | nil =>
    cases h
    exact hb
  | cons e rest ih =>
    obtain ⟨name, v⟩ := e
    rw [Bindings.bindEntries] at h
    cases hentry : b.bindEntry name v with
    | mk r earlier =>
      rw [hentry] at h
      cases r with
      | error e => cases h
      | ok w =>
        cases hrest : w.bindEntries rest with
        | mk r later =>
          simp only [hrest] at h
          cases h
          exact ih (oneToOne_bindEntry hb hentry) hrest

/-! ## many operations -/

inductive Move where
  | bind (k : Key) (code : Int)
  | reset
  /-- bindings made anew from the entries of a table -/
  | adopt (entries : List (String × Value))

/-- entries that make no bindings leave those there are -/
def perform (t : TwoWay) : Move → Except Dict.Failure TwoWay
  | .bind k code => t.bind k code
  | .reset => .ok usual
  | .adopt entries =>
    match (ofEntries entries).1 with
    | .ok u => .ok u
    | .error (.entry _) => .ok t
    | .error .missing => .error .missing

def run (t : TwoWay) (moves : List Move) : Except Dict.Failure TwoWay := moves.foldlM perform t

def performOne (b : Bindings) : Move → Bindings
  | .bind k code => b.bind k code
  | .reset => .usual
  | .adopt entries =>
    match (Bindings.ofEntries entries).1 with
    | .ok u => u
    | .error _ => b

theorem perform_ofBindings {b : Bindings} (hb : b.OneToOne) (m : Move) :
    (ofBindings b).perform m = .ok (ofBindings (performOne b m)) ∧ (performOne b m).OneToOne := by
  cases m with
  | bind k c => exact ⟨bind_ofBindings hb k c, hb.bind k c⟩
  | reset => exact ⟨congrArg Except.ok usual_eq, Bindings.usual_oneToOne⟩
  | adopt entries =>
    have hentries := bindEntries_ofBindings Bindings.usual_oneToOne entries
    rw [perform, performOne, ofEntries, usual_eq, hentries, Bindings.ofEntries]
    cases hread : Bindings.usual.bindEntries entries with
    | mk r log =>
      cases r with
      | error e => exact ⟨rfl, hb⟩
      | ok u => exact ⟨rfl, oneToOne_bindEntries Bindings.usual_oneToOne hread⟩

theorem run_ofBindings {b : Bindings} (hb : b.OneToOne) (moves : List Move) :
    (ofBindings b).run moves = .ok (ofBindings (moves.foldl performOne b)) ∧
      (moves.foldl performOne b).OneToOne := by
  induction moves generalizing b with
  | nil => exact ⟨rfl, hb⟩
  | cons m moves ih =>
    obtain ⟨hfirst, hone⟩ := perform_ofBindings hb m
    obtain ⟨hrest, hall⟩ := ih hone
    refine ⟨?_, hall⟩
    show (ofBindings b).perform m >>= (fun t => t.run moves) = _
    rw [hfirst]
    exact hrest

/-! ## what can be looked up -/

theorem keyOf?_ofBindings (b : Bindings) (c : Int) : (ofBindings b).keyOf? c = b.keyOf? c := rfl

theorem codeOf?_ofBindings (b : Bindings) (k : Key) : (ofBindings b).codeOf? k = b.codeOf? k := by
  show ((b.pairs.map Prod.swap).find? fun p => p.1 == k).map _ = _
  rw [List.find?_map, Option.map_map]
  rfl

/-- the dictionaries are each other's reverse -/
structure Paired (t : TwoWay) : Prop where
  inverse : ∀ c k, t.keyOf? c = some k ↔ t.codeOf? k = some c
  codes : (t.forward.map Prod.fst).Nodup
  keys : (t.reverse.map Prod.fst).Nodup
  codeOnce : ∀ k c c', t.keyOf? c = some k → t.keyOf? c' = some k → c = c'
  sizes : t.reverse.length = t.size
  atMost : t.size ≤ 16

theorem paired_ofBindings {b : Bindings} (hb : b.OneToOne) : (ofBindings b).Paired where
  inverse c k := by
    rw [keyOf?_ofBindings, codeOf?_ofBindings, Bindings.keyOf?_eq_some_iff hb,
      Bindings.codeOf?_eq_some_iff hb]
  codes := Dict.OneToOne.keys (α := Int) hb
  keys := (Dict.OneToOne.swap (α := Int) hb).keys
  codeOnce k c c' h h' := by
    rw [keyOf?_ofBindings, Bindings.keyOf?_eq_some_iff hb] at h h'
    exact congrArg Prod.fst (hb.eq h h' (.inr rfl))
  sizes := List.length_map ..
  atMost := by
    have hkeys := (Dict.OneToOne.swap (α := Int) hb).keys.length_le_card
    rwa [List.length_map, List.length_map, Fintype.card_fin] at hkeys

/-- after any operations the two dictionaries hold the same pairs, no key and no code in two of
them; and binding a key to a code always succeeds, adds this pair, and takes out no others than
those of the key and of the code -/
theorem sides_agree (moves : List Move) :
    ∃ t, usual.run moves = .ok t ∧ t.Paired ∧
      ∀ k c, ∃ u, t.bind k c = .ok u ∧ u.Paired ∧
        ∀ c' k', u.keyOf? c' = some k' ↔
          (c' = c ∧ k' = k) ∨ (t.keyOf? c' = some k' ∧ c' ≠ c ∧ k' ≠ k) := by
  obtain ⟨hrun, hone⟩ := run_ofBindings Bindings.usual_oneToOne moves
  rw [← usual_eq] at hrun
  refine ⟨_, hrun, paired_ofBindings hone, ?_⟩
  intro k c
  refine ⟨_, bind_ofBindings hone k c, paired_ofBindings (hone.bind k c), ?_⟩
  intro c' k'
  rw [keyOf?_ofBindings, keyOf?_ofBindings, Bindings.keyOf?_eq_some_iff (hone.bind k c),
    Bindings.keyOf?_eq_some_iff hone, Bindings.mem_bind, Prod.mk.injEq]

end TwoWay

end ChipEight
