import ChipEight.Proofs.Keyboard.BothSides
import ChipEight.Proofs.Keyboard.Overrides

/-!
# Tables of names

Entries of a table that holds strings only.

* `Keyboard.asked? e`       the key and the code that an entry names, if it names both;
* `Keyboard.objection? e`   the warning that an entry gets which does not;
* `bindEntries_strings`     entries are bound one after another, those that name no key or no code
  left out with a warning each;
* `LastSay l k c`           `k` comes with `c` in a list of pairs, and after this neither comes with
  anything else;
* `mem_bindAll_iff`         these are the pairs that stay bound;
* `ofEntries_lastSay`       so it is with the usual pairs and those of a table after them.
-/

namespace ChipEight

/-! ## entries -/

namespace Keyboard

def asked? (e : String × String) : Option (Key × Int) := reading? (e.1, .str e.2)

/-- a name that means no key is objected to before one that means no code -/
def objection? (e : String × String) : Option LogEntry :=
  match Key.ofName e.1, physicalCode e.2 with
  | .error error, _ => some (Bindings.warning e.1 (.str e.2) error)
  | .ok _, .error error => some (Bindings.warning e.1 (.str e.2) error)
  | .ok _, .ok _ => none

variable {e : String × String} {k : Key} {c : Int}

theorem asked?_eq_some_iff :
    asked? e = some (k, c) ↔ Key.ofName e.1 = .ok k ∧ physicalCode e.2 = .ok c := by
  rw [asked?, reading?_eq_some_iff]
  constructor
  · rintro ⟨hkey, physical, hvalue, hcode⟩
    cases hvalue
    exact ⟨hkey, hcode⟩
  · rintro ⟨hkey, hcode⟩
    exact ⟨hkey, e.2, rfl, hcode⟩

/-- an entry either asks for a pair or is objected to -/
theorem objection?_eq_none_iff : objection? e = none ↔ (asked? e).isSome := by
  unfold objection? asked? reading?
  cases Key.ofName e.1 with
  | error error => exact ⟨nofun, nofun⟩
  | ok k =>
    dsimp only
    cases physicalCode e.2 with
    | error error => exact ⟨nofun, nofun⟩
    | ok c => exact ⟨fun _ => rfl, fun _ => rfl⟩

theorem filterMap_asked?_filter (entries : List (String × String)) :
    (entries.filter fun e => (asked? e).isSome).filterMap asked? = entries.filterMap asked? := by
  rw [List.filterMap_filter]
  refine List.filterMap_congr ?_
  intro e _
  cases asked? e <;> rfl

theorem filterMap_objection?_filter (entries : List (String × String)) :
    (entries.filter fun e => (asked? e).isSome).filterMap objection? = [] := by
  refine List.filterMap_eq_nil_iff.2 ?_
  intro e he
  exact objection?_eq_none_iff.2 (List.mem_filter.1 he).2

end Keyboard

open Keyboard

namespace Bindings

variable {k : Key} {c : Int} {l after : List (Key × Int)}

theorem bindEntry_string (b : Bindings) (e : String × String) :
    b.bindEntry e.1 (.str e.2) =
      (.ok (b.bindAll (asked? e).toList), (objection? e).toList) := by
  unfold bindEntry objection? asked? reading?
  cases Key.ofName e.1 with
  | error error => rfl
  | ok k =>
    dsimp only
    cases physicalCode e.2 <;> rfl

theorem bindEntries_strings (b : Bindings) (entries : List (String × String)) :
    b.bindEntries (Settings.ofStrings entries) =
      (.ok (b.bindAll (entries.filterMap asked?)), entries.filterMap objection?) := by
  induction entries generalizing b with
  | nil => rfl
  | cons e rest ih =>
    obtain ⟨name, value⟩ := e
    show b.bindEntries ((name, .str value) :: Settings.ofStrings rest) = _
    rw [bindEntries, bindEntry_string b (name, value)]
    dsimp only
    rw [ih, ← bindAll_append, List.filterMap_cons, List.filterMap_cons]
    cases asked? (name, value) <;> cases objection? (name, value) <;> rfl

/-! ## the last say -/

def LastSay (l : List (Key × Int)) (k : Key) (c : Int) : Prop :=
  ∃ before after, l = before ++ (k, c) :: after ∧
    ∀ p ∈ after, p ≠ (k, c) → p.1 ≠ k ∧ p.2 ≠ c

theorem untouched_of_others (h : ∀ p ∈ after, p ≠ (k, c) → p.1 ≠ k ∧ p.2 ≠ c) :
    ∃ earlier later, (k, c) :: after = earlier ++ (k, c) :: later ∧ Untouched k c later := by
  induction after with
  | nil => exact ⟨[], [], rfl, nofun⟩
  | cons p rest ih =>
    obtain ⟨hp, hrest⟩ := List.forall_mem_cons.1 h
    obtain ⟨earlier, later, heq, huntouched⟩ := ih hrest
    by_cases hpair : p = (k, c)
    · refine ⟨p :: earlier, later, ?_, huntouched⟩
      rw [hpair, heq]
      rfl
    · cases earlier with
      | nil =>
        cases heq
        exact ⟨[], p :: rest, rfl, List.forall_mem_cons.2 ⟨hp hpair, huntouched⟩⟩
      | cons q earlier =>
        cases heq
        exact ⟨(k, c) :: p :: earlier, later, rfl, huntouched⟩

theorem mem_bindAll_iff : (c, k) ∈ ((⟨[]⟩ : Bindings).bindAll l).pairs ↔ LastSay l k c := by
  rw [mem_bindAll]
  constructor
  · rintro (⟨before, after, hl, huntouched⟩ | ⟨hmem, -⟩)
    · exact ⟨before, after, hl, fun p hp _ => huntouched p hp⟩
    · cases hmem
  · rintro ⟨before, after, rfl, hothers⟩
    obtain ⟨earlier, later, heq, huntouched⟩ := untouched_of_others hothers
    refine .inl ⟨before ++ earlier, later, ?_, huntouched⟩
    rw [heq, List.append_assoc]

def usualPairs : List (Key × Int) := usual.pairs.map Prod.swap

theorem bindAll_usualPairs : (⟨[]⟩ : Bindings).bindAll usualPairs = usual := by decide +kernel

end Bindings

namespace TwoWay

open Bindings

theorem ofEntries_strings (entries : List (String × String)) :
    ofEntries (Settings.ofStrings entries) =
      (.ok (ofBindings (Bindings.usual.bindAll (entries.filterMap asked?))),
        entries.filterMap objection?) := by
  rw [ofEntries, usual_eq, bindEntries_ofBindings usual_oneToOne, bindEntries_strings]
  rfl

/-- Any table of strings makes bindings. A key and a code are bound to each other just if they have
the last say among the usual pairs and, after these, the pairs that the entries name. An entry
whose names do not mean a key and a code gets one warning, and makes no other difference. -/
theorem ofEntries_lastSay (entries : List (String × String)) :
    ∃ t, ofEntries (Settings.ofStrings entries) = (.ok t, entries.filterMap objection?) ∧
      (∀ k c, t.keyOf? c = some k ↔ LastSay (usualPairs ++ entries.filterMap asked?) k c) ∧
      (∀ k c, t.codeOf? k = some c ↔ LastSay (usualPairs ++ entries.filterMap asked?) k c) ∧
      (∀ e k c, asked? e = some (k, c) ↔ Key.ofName e.1 = .ok k ∧ physicalCode e.2 = .ok c) ∧
      (∀ e, objection? e = none ↔ (asked? e).isSome) ∧
      ofEntries (Settings.ofStrings (entries.filter fun e => (asked? e).isSome)) = (.ok t, []) := by
  have hone := usual_oneToOne.bindAll (entries.filterMap asked?)
  have hbound : ∀ k c, (c, k) ∈ (Bindings.usual.bindAll (entries.filterMap asked?)).pairs ↔
      LastSay (usualPairs ++ entries.filterMap asked?) k c := by
    intro k c
    rw [← mem_bindAll_iff, bindAll_append, bindAll_usualPairs]
  refine ⟨_, ofEntries_strings entries, ?_, ?_, fun e k c => asked?_eq_some_iff,
    fun e => objection?_eq_none_iff, ?_⟩
  · intro k c
    rw [keyOf?_ofBindings, keyOf?_eq_some_iff hone, hbound]
  · intro k c
    rw [codeOf?_ofBindings, codeOf?_eq_some_iff hone, hbound]
  · rw [ofEntries_strings, filterMap_asked?_filter, filterMap_objection?_filter]

/-- one entry can take away two bindings: that of its key and that of its code -/
example :
    (ofEntries (Settings.ofStrings [("k1", " Q "), ("g", "w")])).1.toOption.map
      (fun t => (t.size, t.keyOf? 113, t.codeOf? 4, t.keyOf? 49)) =
    some (15, some 1, none, none) := by decide +kernel

end TwoWay

end ChipEight
