import ChipEight.Machine.Sprite

/-!
# A sprite stays on the screen

Nothing breaks a drawing off: every place that is drawn lies before the edges, and every row that
is looked up is one of the sprite's.

* `foldlM_ok`   a fold whose steps succeed succeeds;
* `row_ok`      a row is drawn, whatever its column;
* `rows_ok`     a sprite is drawn, wherever it lies.
-/

namespace ChipEight

theorem foldlM_ok {α β ε : Type} {f : β → α → Except ε β} {l : List α}
    (h : ∀ a ∈ l, ∀ b, ∃ c, f b a = .ok c) (b : β) : ∃ c, l.foldlM f b = .ok c := by
  induction l generalizing b with
  | nil => exact ⟨b, rfl⟩
  | cons a l ih =>
    obtain ⟨c, hc⟩ := h a (List.mem_cons_self ..) b
    rw [List.foldlM_cons, hc]
    exact ih (fun a' ha' => h a' (List.mem_cons_of_mem _ ha')) c

namespace Drawing

theorem row_ok (d : Drawing) (x : Nat) {y : Nat} (hy : y < 32) (b : UInt8) :
    ∃ e, d.row x y b = .ok e := by
  apply foldlM_ok
  intro c hc d
  exact ⟨_, pixel_of_lt d (mem_span.mp hc).2.2 hy _⟩

theorem rows_ok (d : Drawing) (x y : Nat) {n : Nat} {sprite : List UInt8}
    (h : sprite.length = n) : ∃ e, d.rows x y n sprite = .ok e := by
  apply foldlM_ok
  intro c hc d
  obtain ⟨hy, hn, hedge⟩ := mem_span.mp hc
  have hrow : c - y < sprite.length := by omega
  rw [List.getElem?_eq_getElem hrow]
  exact row_ok d x hedge _

end Drawing

end ChipEight
