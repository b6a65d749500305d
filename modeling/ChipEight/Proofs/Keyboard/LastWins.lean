import Mathlib.Data.List.Pairwise
import ChipEight.Keyboard.Bindings

/-!
# The last binding wins

* `Bindings.OneToOne`     no key and no code is bound twice;
* `mem_bind`              what one binding leaves of those before;
* `codeOf?_eq_some_iff`, `keyOf?_eq_some_iff`   both ways to look a binding up find the same pairs;
* `bindAll`               keys bound to codes one after another;
* `mem_bindAll`           what is bound in the end: what no later binding of either side replaced.
-/

namespace ChipEight.Bindings

variable {b : Bindings} {k : Key} {c : Int}

/-! ## one binding -/

/-- two pairs that share no side -/
def Apart (p q : Int × Key) : Prop := p.1 ≠ q.1 ∧ p.2 ≠ q.2

instance : Std.Symm Apart := ⟨fun _ _ h => ⟨h.1.symm, h.2.symm⟩⟩

instance : DecidableRel Apart := fun p q => inferInstanceAs (Decidable (p.1 ≠ q.1 ∧ p.2 ≠ q.2))

def OneToOne (b : Bindings) : Prop := b.pairs.Pairwise Apart

theorem usual_oneToOne : usual.OneToOne := by
  unfold OneToOne
  decide

theorem mem_bind {p : Int × Key} :
    p ∈ (b.bind k c).pairs ↔ p = (c, k) ∨ (p ∈ b.pairs ∧ p.1 ≠ c ∧ p.2 ≠ k) := by
  rw [pairs_bind, List.mem_append, List.mem_filter, List.mem_singleton, or_comm, Bool.and_eq_true,
    bne_iff_ne, bne_iff_ne]

theorem OneToOne.bind (hb : b.OneToOne) (k : Key) (c : Int) : (b.bind k c).OneToOne := by
  rw [OneToOne, pairs_bind]
  refine List.pairwise_append.2 ⟨hb.filter _, List.pairwise_singleton .., fun p hp q hq => ?_⟩
  have hkept := (List.mem_filter.1 hp).2
  rw [Bool.and_eq_true, bne_iff_ne, bne_iff_ne] at hkept
  rwa [List.mem_singleton.1 hq]

/-! ## looking up -/

/-- the two sides of a pair determine each other -/
theorem OneToOne.eq (hb : b.OneToOne) {p q : Int × Key} (hp : p ∈ b.pairs) (hq : q ∈ b.pairs)
    (h : p.1 = q.1 ∨ p.2 = q.2) : p = q := by
  refine Classical.byContradiction fun hne => ?_
  have hapart := hb.forall hp hq hne
  exact h.elim hapart.1 hapart.2

theorem find?_of_mem {l : List (Int × Key)} {f : Int × Key → Bool} {p : Int × Key} (hp : p ∈ l)
    (hf : f p = true) (honly : ∀ q ∈ l, f q = true → q = p) : l.find? f = some p := by
  cases hfind : l.find? f with
  | none => exact absurd hf (List.find?_eq_none.1 hfind p hp)
  | some q => rw [honly q (List.mem_of_find?_eq_some hfind) (List.find?_some hfind)]

theorem codeOf?_eq_some_iff (hb : b.OneToOne) : b.codeOf? k = some c ↔ (c, k) ∈ b.pairs := by
  rw [codeOf?, Option.map_eq_some_iff]
  constructor
  · rintro ⟨p, hfind, rfl⟩
    have hk := List.find?_some (p := fun q : Int × Key => q.2 == k) hfind
    exact beq_iff_eq.1 hk ▸ List.mem_of_find?_eq_some hfind
  · intro hmem
    exact ⟨_, find?_of_mem hmem (beq_self_eq_true k) fun q hq hk =>
      hb.eq hq hmem (.inr (beq_iff_eq.1 hk)), rfl⟩

theorem keyOf?_eq_some_iff (hb : b.OneToOne) : b.keyOf? c = some k ↔ (c, k) ∈ b.pairs := by
  rw [keyOf?, Option.map_eq_some_iff]
  constructor
  · rintro ⟨p, hfind, rfl⟩
    have hc := List.find?_some (p := fun q : Int × Key => q.1 == c) hfind
    exact beq_iff_eq.1 hc ▸ List.mem_of_find?_eq_some hfind
  · intro hmem
    exact ⟨_, find?_of_mem hmem (beq_self_eq_true c) fun q hq hc =>
      hb.eq hq hmem (.inl (beq_iff_eq.1 hc)), rfl⟩

/-! ## many bindings -/

def bindAll (b : Bindings) : List (Key × Int) → Bindings
  | [] => b
  | (k, c) :: rest => (b.bind k c).bindAll rest

/-- neither side of a pair is in the list -/
def Untouched (k : Key) (c : Int) (l : List (Key × Int)) : Prop := ∀ p ∈ l, p.1 ≠ k ∧ p.2 ≠ c

variable {l before after : List (Key × Int)}

theorem bindAll_append (b : Bindings) (before after : List (Key × Int)) :
    b.bindAll (before ++ after) = (b.bindAll before).bindAll after := by
  induction before generalizing b with
  | nil => rfl
  | cons p rest ih => exact ih (b.bind p.1 p.2)

theorem OneToOne.bindAll (hb : b.OneToOne) (l : List (Key × Int)) : (b.bindAll l).OneToOne := by
  induction l generalizing b with
  | nil => exact hb
  | cons p rest ih => exact ih (hb.bind p.1 p.2)

/-- a pair is bound in the end if it was bound, by the list or before, and not touched again -/
theorem mem_bindAll :
    (c, k) ∈ (b.bindAll l).pairs ↔
      (∃ before after, l = before ++ (k, c) :: after ∧ Untouched k c after) ∨
      ((c, k) ∈ b.pairs ∧ Untouched k c l) := by
  induction l generalizing b with
  | nil =>
    refine ⟨fun h => .inr ⟨h, nofun⟩, fun h => h.elim ?_ And.left⟩
    rintro ⟨before, after, h, -⟩
    cases before <;> cases h
  | cons p rest ih =>
    obtain ⟨k', c'⟩ := p
    rw [bindAll, ih, mem_bind]
    constructor
    · rintro (⟨before, after, rfl, hafter⟩ | ⟨heq | ⟨hmem, hc, hk⟩, hrest⟩)
      · exact .inl ⟨(k', c') :: before, after, rfl, hafter⟩
      · cases heq
        exact .inl ⟨[], rest, rfl, hrest⟩
      · exact .inr ⟨hmem, List.forall_mem_cons.2 ⟨⟨Ne.symm hk, Ne.symm hc⟩, hrest⟩⟩
    · rintro (⟨before, after, hl, hafter⟩ | ⟨hmem, hall⟩)
      · cases before with
        | nil =>
          cases hl
          exact .inr ⟨.inl rfl, hafter⟩
        | cons q before =>
          cases hl
          exact .inl ⟨before, after, rfl, hafter⟩
      · obtain ⟨⟨hk, hc⟩, hrest⟩ := List.forall_mem_cons.1 hall
        exact .inr ⟨.inr ⟨hmem, Ne.symm hc, Ne.symm hk⟩, hrest⟩

end ChipEight.Bindings
