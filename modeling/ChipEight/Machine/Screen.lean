import ChipEight.Machine.Fault

/-!
# The screen

* `Screen`             32 rows of 64 pixels; a row's highest bit is its leftmost pixel;
* `Screen.pixel`       the pixel in column `x` of row `y`;
* `Screen.pixel?`      the same for integers, negative ones counted from the end;
* `Screen.flip?`       a pixel xored with a value, and whether that turned it off;
* `Screen.ofBits`      the screen given by exactly 2048 pixels, row by row.
-/

namespace ChipEight

abbrev Screen := Vector (BitVec 64) 32

namespace Screen

def blank : Screen := Vector.replicate 32 0

def pixel (s : Screen) (x : Fin 64) (y : Fin 32) : Bool := (s.get y).getMsbD x

/-- a place among `n`; a negative one counts from the end -/
def place? : (n : Nat) → Int → Option (Fin n)
  | n, .ofNat i => if h : i < n then some ⟨i, h⟩ else none
  | n, .negSucc i => if h : i < n then some ⟨n - 1 - i, by omega⟩ else none

def pixel? (s : Screen) (x y : Int) : Option Bool := do
  let y ← place? 32 y
  let x ← place? 64 x
  return s.pixel x y

theorem place?_of_lt {n i : Nat} (h : i < n) : place? n i = some ⟨i, h⟩ := dif_pos h

def single (x : Nat) : BitVec 64 := BitVec.twoPow 64 63 >>> x

def xorRow (s : Screen) (y : Fin 32) (pattern : BitVec 64) : Screen :=
  s.set y.val (s.get y ^^^ pattern)

theorem get_xorRow (s : Screen) (y z : Fin 32) (pattern : BitVec 64) :
    (s.xorRow y pattern).get z = if y = z then s.get z ^^^ pattern else s.get z := by
  change (s.xorRow y pattern)[z.val] = _
  by_cases h : y = z
  · subst h; simp [xorRow]
  · simp [xorRow, h, Vector.getElem_set_ne, Fin.val_ne_of_ne h]; rfl

theorem pixel_xorRow (s : Screen) (x : Fin 64) (y z : Fin 32) (pattern : BitVec 64) :
    (s.xorRow y pattern).pixel x z =
      if y = z then (s.pixel x z ^^ pattern.getMsbD x) else s.pixel x z := by
  rw [pixel, get_xorRow]
  split <;> simp [pixel]

def flip? (s : Screen) (x y : Int) (value : Bool) : Option (Screen × Bool) := do
  let y ← place? 32 y
  let x ← place? 64 x
  return (if value then s.xorRow y (single x) else s, s.pixel x y && value)

theorem flip?_of_lt (s : Screen) {x y : Nat} (hx : x < 64) (hy : y < 32) (value : Bool) :
    s.flip? x y value =
      some (if value then s.xorRow ⟨y, hy⟩ (single x) else s, s.pixel ⟨x, hx⟩ ⟨y, hy⟩ && value) := by
  rw [flip?, place?_of_lt hy, place?_of_lt hx]
  rfl

def rowBits (row : BitVec 64) : List Bool := (List.finRange 64).map fun x : Fin 64 => row.getMsbD x

def litCount (s : Screen) : Nat := (s.toList.flatMap rowBits).count true

def rowOfBits (bits : List Bool) : BitVec 64 :=
  bits.foldl (fun row b => (row <<< 1) ||| (BitVec.ofBool b).setWidth 64) 0

def ofBits (bits : List Bool) : Except WrongSize Screen :=
  if bits.length = 2048 then
    .ok (Vector.ofFn fun y => rowOfBits ((bits.drop (64 * y.val)).take 64))
  else .error ⟨.screen, bits.length⟩

def description (s : Screen) : String := "<FrameBuffer 64x32 lit=" ++ toString s.litCount ++ ">"

end Screen

end ChipEight
