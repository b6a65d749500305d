/-!
# Hexadecimal text

* `Hex.digit n`      the upper-case digit of `n < 16`;
* `Hex.fixed w n`    the `w` lowest digits of `n`, zeros in front;
* `Hex.digits n`     all digits of `n`, none in front;
* `Hex.padded w n`   `n` with at least `w` digits;
* `Hex.signed w n`   the same for an integer: the sign counts as one of the `w` places.

On a number that fits, `padded` and `fixed` agree; a listing uses `fixed` for operands, whose
width is known, and `padded` for registers, which may have grown past theirs.
-/

namespace ChipEight.Hex

def digit (n : Nat) : Char :=
  let d := n % 16
  if d < 10 then Char.ofNat (48 + d) else Char.ofNat (55 + d)

def fixed : Nat → Nat → List Char
  | 0, _ => []
  | w + 1, n => fixed w (n / 16) ++ [digit n]

theorem fixed_succ (w n : Nat) : fixed (w + 1) n = fixed w (n / 16) ++ [digit n] := rfl

def width (n : Nat) : Nat := if n < 16 then 1 else width (n / 16) + 1

def digits (n : Nat) : List Char := fixed (width n) n

def padded (w n : Nat) : List Char := fixed (max w (width n)) n

def signed (w : Nat) : Int → List Char
  | .ofNat n => padded w n
  | .negSucc n => '-' :: padded (w - 1) (n + 1)

end ChipEight.Hex
