import ChipEight.Machine.Screen

/-!
# Sprites

* `Drawing`         a screen that is drawn on, and whether that turned a pixel off so far;
* `Drawn`           the drawing when it is done, or what there was of it when it broke off;
* `Drawing.span`    the places from one on, up to the edge;
* `Drawing.pixel`   one pixel xored over the screen;
* `Drawing.row`     the eight pixels of a sprite's row, the highest bit leftmost;
* `Drawing.rows`    the rows of a sprite.

A sprite is cut off at the right and lower edges; nothing wraps round. A place that is not on the
screen, or a row that the sprite does not have, would break the drawing off.
-/

namespace ChipEight

structure Drawing where
  screen : Screen
  hit : Bool

abbrev Drawn := Except (Fault × Drawing) Drawing

namespace Drawing

def span (a n edge : Nat) : List Nat := List.range' a (min (a + n) edge - a)

theorem mem_span {a n edge c : Nat} : c ∈ span a n edge ↔ a ≤ c ∧ c < a + n ∧ c < edge := by
  rw [span, List.mem_range'_1]
  omega

def pixel (d : Drawing) (x y : Nat) (on : Bool) : Drawn :=
  match d.screen.flip? x y on with
  | some (s, off) => .ok ⟨s, d.hit || off⟩
  | none => .error (.noPixel x y, d)

theorem pixel_of_lt (d : Drawing) {x y : Nat} (hx : x < 64) (hy : y < 32) (on : Bool) :
    d.pixel x y on =
      .ok ⟨if on then d.screen.xorRow ⟨y, hy⟩ (Screen.single x) else d.screen,
        d.hit || (d.screen.pixel ⟨x, hx⟩ ⟨y, hy⟩ && on)⟩ := by
  rw [pixel, Screen.flip?_of_lt d.screen hx hy]

def row (d : Drawing) (x y : Nat) (b : UInt8) : Drawn :=
  (span x 8 64).foldlM (fun d c => d.pixel c y (b.toNat.testBit (7 - (c - x)))) d

def rows (d : Drawing) (x y n : Nat) (sprite : List UInt8) : Drawn :=
  (span y n 32).foldlM
    (fun d c =>
      match sprite[c - y]? with
      | some b => d.row x c b
      | none => .error (.noSpriteRow, d)) d

end Drawing

end ChipEight
