import ChipEight.Proofs.Drawing.Bounds

/-!
# Patterns xored over a screen

A drawing goes over its pixels one by one, in two nested loops that can both be cut off at an edge.
What is left on the screen does not show that: it is the old screen xored with one pattern.

* `Pattern`             a bit for every pixel;
* `Drawing.Xored d p e` drawing `e` is `d` with `p` xored over it; its flag tells whether a pixel
                        was turned off;
* `Xored.trans`         two patterns that have no pixel in common, one after the other;
* `foldlM_xored`        many of them: what a loop draws, if each of its rounds draws a pattern;
* `Pattern.sprite`      the bits of a sprite at their places;
* `rows_xored`          a sprite is drawn as its pattern.
-/

namespace ChipEight

abbrev Pattern := Fin 64 → Fin 32 → Bool

namespace Pattern

/-- one pixel -/
def single (x y : Nat) (on : Bool) : Pattern := fun cx cy => decide (cx = x ∧ cy = y) && on

/-- the bits of a byte from column `x` of row `y` on, the highest bit leftmost -/
def row (x y : Nat) (b : UInt8) : Pattern := fun cx cy =>
  decide (x ≤ cx ∧ cx < x + 8 ∧ cy = y) && b.toNat.testBit (7 - (cx - x))

/-- `n` such rows below each other, `byte k` in the row that is `k` below `y` -/
def sprite (x y n : Nat) (byte : Nat → UInt8) : Pattern := fun cx cy =>
  decide (x ≤ cx ∧ cx < x + 8 ∧ y ≤ cy ∧ cy < y + n) &&
    (byte (cy - y)).toNat.testBit (7 - (cx - x))

def Apart (p q : Pattern) : Prop := ∀ x y, p x y = true → q x y = false

theorem single_apart {x x' : Nat} (h : x ≠ x') (y : Nat) (on on' : Bool) :
    (single x y on).Apart (single x' y on') := by
  intro cx cy hon
  simp only [single, Bool.and_eq_true_iff, decide_eq_true_eq] at hon
  have hne : cx.val ≠ x' := by omega
  simp [single, hne]

theorem row_apart {y y' : Nat} (h : y ≠ y') (x : Nat) (b b' : UInt8) :
    (row x y b).Apart (row x y' b') := by
  intro cx cy hon
  simp only [row, Bool.and_eq_true_iff, decide_eq_true_eq] at hon
  have hne : cy.val ≠ y' := by omega
  simp [row, hne]

end Pattern

namespace Drawing

structure Xored (d : Drawing) (p : Pattern) (e : Drawing) : Prop where
  pixel : ∀ x y, e.screen.pixel x y = (d.screen.pixel x y ^^ p x y)
  hit : e.hit = true ↔ d.hit = true ∨ ∃ x y, d.screen.pixel x y = true ∧ p x y = true

theorem Xored.congr {d e : Drawing} {p q : Pattern} (h : d.Xored p e)
    (hpq : ∀ x y, p x y = q x y) : d.Xored q e := by
  have hfun : p = q := by
    funext x y
    exact hpq x y
  rwa [hfun] at h

theorem xored_nothing (d : Drawing) : d.Xored (fun _ _ => false) d where
  pixel x y := (Bool.xor_false _).symm
  hit := by simp

/-- the second pattern meets the pixels that it turns off as the first drawing had them -/
theorem Xored.trans {d e f : Drawing} {p q : Pattern} (h : d.Xored p e) (h' : e.Xored q f)
    (hpq : p.Apart q) : d.Xored (fun x y => p x y || q x y) f where
  pixel x y := by
    rw [h'.pixel, h.pixel]
    cases hp : p x y with
    | true => simp [hpq x y hp]
    | false => simp
  hit := by
    have hold : ∀ x y, q x y = true → e.screen.pixel x y = d.screen.pixel x y := by
      intro x y hq
      have hp : p x y = false := by
        cases hp : p x y with
        | true => rw [hpq x y hp] at hq; cases hq
        | false => rfl
      rw [h.pixel, hp, Bool.xor_false]
    rw [h'.hit, h.hit, or_assoc]
    refine or_congr_right ?_
    constructor
    · rintro (⟨x, y, hd, hp⟩ | ⟨x, y, he, hq⟩)
      · exact ⟨x, y, hd, by simp [hp]⟩
      · exact ⟨x, y, by rwa [← hold x y hq], by simp [hq]⟩
    · rintro ⟨x, y, hd, hpq'⟩
      rcases Bool.or_eq_true_iff.mp hpq' with hp | hq
      · exact .inl ⟨x, y, hd, hp⟩
      · exact .inr ⟨x, y, by rwa [hold x y hq], hq⟩

theorem Xored.hit_iff_off {d e : Drawing} {p : Pattern} (h : d.Xored p e) (hd : d.hit = false) :
    e.hit = true ↔ ∃ x y, d.screen.pixel x y = true ∧ e.screen.pixel x y = false := by
  rw [h.hit, hd]
  constructor
  · rintro (hfalse | ⟨x, y, hon, hp⟩)
    · cases hfalse
    · exact ⟨x, y, hon, by rw [h.pixel, hon, hp]; rfl⟩
  · rintro ⟨x, y, hon, hoff⟩
    rw [h.pixel, hon, Bool.true_xor, Bool.not_eq_false'] at hoff
    exact .inr ⟨x, y, hon, hoff⟩

/-! ## loops -/

/-- a loop whose rounds draw patterns apart from each other draws all of them -/
theorem foldlM_xored {step : Drawing → Nat → Drawn} {p : Nat → Pattern} {places : List Nat}
    (hstep : ∀ c ∈ places, ∀ d, ∃ e, step d c = .ok e ∧ d.Xored (p c) e)
    (hapart : places.Pairwise fun a b => (p a).Apart (p b)) (d : Drawing) :
    ∃ e, places.foldlM step d = .ok e ∧ d.Xored (fun x y => places.any fun c => p c x y) e := by
  induction places generalizing d with
  | nil => exact ⟨d, rfl, xored_nothing d⟩
  | cons c places ih =>
    obtain ⟨hc, hplaces⟩ := List.pairwise_cons.mp hapart
    obtain ⟨e, he, hfirst⟩ := hstep c (List.mem_cons_self ..) d
    obtain ⟨f, hf, hrest⟩ := ih (fun a ha => hstep a (List.mem_cons_of_mem _ ha)) hplaces e
    refine ⟨f, by rw [List.foldlM_cons, he]; exact hf, hfirst.trans hrest ?_⟩
    intro x y hx
    rw [List.any_eq_false]
    intro a ha
    simp [hc a ha x y hx]

theorem pairwise_span (a n edge : Nat) : (span a n edge).Pairwise (· < ·) := List.pairwise_lt_range'

/-! ## pixels, rows and sprites -/

theorem getMsbD_single (x : Nat) (c : Fin 64) :
    (Screen.single x).getMsbD c = decide (c = x) := by
  rw [Screen.single, BitVec.getMsbD_ushiftRight, BitVec.getMsbD_twoPow]
  grind

theorem pixel_xored (d : Drawing) {x y : Nat} (hx : x < 64) (hy : y < 32) (on : Bool) :
    ∃ e, d.pixel x y on = .ok e ∧ d.Xored (.single x y on) e := by
  refine ⟨_, pixel_of_lt d hx hy on, fun cx cy => ?_, ?_⟩
  · cases on with
    | false => simp [Pattern.single]
    | true =>
      simp only [Pattern.single, if_true, Screen.pixel_xorRow, getMsbD_single]
      by_cases hcy : cy.val = y
      · have : (⟨y, hy⟩ : Fin 32) = cy := Fin.ext hcy.symm
        simp [this, hcy]
      · have : (⟨y, hy⟩ : Fin 32) ≠ cy := fun h => hcy (congrArg Fin.val h).symm
        simp [this, hcy]
  · rw [Bool.or_eq_true_iff, Bool.and_eq_true_iff]
    apply or_congr_right
    constructor
    · rintro ⟨hd, hon⟩
      exact ⟨⟨x, hx⟩, ⟨y, hy⟩, hd, by simp [Pattern.single, hon]⟩
    · rintro ⟨cx, cy, hd, hp⟩
      simp only [Pattern.single, Bool.and_eq_true_iff, decide_eq_true_eq] at hp
      obtain ⟨⟨rfl, rfl⟩, hon⟩ := hp
      exact ⟨hd, hon⟩

theorem row_xored (d : Drawing) (x : Nat) {y : Nat} (hy : y < 32) (b : UInt8) :
    ∃ e, d.row x y b = .ok e ∧ d.Xored (.row x y b) e := by
  have hapart : (span x 8 64).Pairwise fun a c =>
      (Pattern.single a y (b.toNat.testBit (7 - (a - x)))).Apart
        (.single c y (b.toNat.testBit (7 - (c - x)))) :=
    (pairwise_span x 8 64).imp fun hlt => Pattern.single_apart (Nat.ne_of_lt hlt) y _ _
  obtain ⟨e, he, hxored⟩ := foldlM_xored
    (fun c hc d => pixel_xored d (mem_span.mp hc).2.2 hy (b.toNat.testBit (7 - (c - x)))) hapart d
  refine ⟨e, he, hxored.congr fun cx cy => ?_⟩
  rw [Bool.eq_iff_iff, List.any_eq_true]
  simp only [Pattern.single, Pattern.row, Bool.and_eq_true_iff, decide_eq_true_eq, mem_span]
  constructor
  · rintro ⟨c, ⟨hx, hlt, -⟩, ⟨rfl, hcy⟩, hbit⟩
    exact ⟨⟨hx, hlt, hcy⟩, hbit⟩
  · rintro ⟨⟨hx, hlt, hcy⟩, hbit⟩
    exact ⟨cx, ⟨hx, hlt, cx.isLt⟩, ⟨rfl, hcy⟩, hbit⟩

theorem rows_xored (d : Drawing) (x y : Nat) (sprite : List UInt8) :
    ∃ e, d.rows x y sprite.length sprite = .ok e ∧
      d.Xored (.sprite x y sprite.length fun k => sprite[k]?.getD 0) e := by
  have hapart : (span y sprite.length 32).Pairwise fun a c =>
      (Pattern.row x a (sprite[a - y]?.getD 0)).Apart (.row x c (sprite[c - y]?.getD 0)) :=
    (pairwise_span y sprite.length 32).imp fun hlt => Pattern.row_apart (Nat.ne_of_lt hlt) x _ _
  obtain ⟨e, he, hxored⟩ : ∃ e, d.rows x y sprite.length sprite = .ok e ∧
      d.Xored (fun cx cy => (span y sprite.length 32).any fun c =>
        Pattern.row x c (sprite[c - y]?.getD 0) cx cy) e := by
    refine foldlM_xored ?_ hapart d
    intro c hc d
    obtain ⟨hy, hn, hedge⟩ := mem_span.mp hc
    have hrow : c - y < sprite.length := by omega
    rw [List.getElem?_eq_getElem hrow]
    exact row_xored d x hedge _
  refine ⟨e, he, hxored.congr fun cx cy => ?_⟩
  rw [Bool.eq_iff_iff, List.any_eq_true]
  simp only [Pattern.row, Pattern.sprite, Bool.and_eq_true_iff, decide_eq_true_eq, mem_span]
  constructor
  · rintro ⟨c, ⟨hy, hn, -⟩, ⟨hx, hlt, rfl⟩, hbit⟩
    exact ⟨⟨hx, hlt, hy, hn⟩, hbit⟩
  · rintro ⟨⟨hx, hlt, hy, hn⟩, hbit⟩
    exact ⟨cy, ⟨hy, hn, cy.isLt⟩, ⟨hx, hlt, rfl⟩, hbit⟩

end Drawing

end ChipEight
