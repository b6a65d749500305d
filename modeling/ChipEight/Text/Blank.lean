/-!
# Blank characters

* `isBlank c`      white space and separators, and the four information separators;
* `stripList cs`   `cs` without the blanks at both ends.

No-break and ideographic spaces are blank; zero-width spaces and the byte order mark are not.
-/

namespace ChipEight.Text

/-- the runs of blank characters, as first and last code point -/
def blankRuns : List (Nat × Nat) :=
  [(0x09, 0x0D), (0x1C, 0x20), (0x85, 0x85), (0xA0, 0xA0), (0x1680, 0x1680), (0x2000, 0x200A),
   (0x2028, 0x2029), (0x202F, 0x202F), (0x205F, 0x205F), (0x3000, 0x3000)]

def isBlank (c : Char) : Bool := blankRuns.any fun r => r.1 ≤ c.toNat && c.toNat ≤ r.2

def stripList (cs : List Char) : List Char :=
  ((cs.dropWhile isBlank).reverse.dropWhile isBlank).reverse

end ChipEight.Text
