import ChipEight.Text.Blank
import ChipEight.Text.UpperCase.Table

/-!
# Upper and lower case

* `capital c`      the characters that `c` becomes in upper case: one, two or three;
* `upperList cs`   the capitals of all characters of `cs`;
* `lowerAscii c`   lower case of `A`–`Z`, and of the Kelvin sign, which is a letter `k`; the
  lower-case letters `a`–`z` are reached from no other character.
-/

namespace ChipEight.Text

def shifted (c : Char) : Char :=
  match capitalRanges.find? (·.holds c.toNat) with
  | some r => Char.ofNat (c.toNat + r.shift).toNat
  | none => c

def capital (c : Char) : List Char :=
  match capitalRuns.lookup c.toNat with
  | some run => run.map Char.ofNat
  | none => [shifted c]

def upperList (cs : List Char) : List Char := cs.flatMap capital

theorem upperList_nil : upperList [] = [] := rfl
theorem upperList_cons (c : Char) (cs : List Char) :
    upperList (c :: cs) = capital c ++ upperList cs := rfl

def lowerAscii (c : Char) : Char :=
  if c.toNat = 0x212A then 'k' else c.toLower

example : capital 'q' = ['Q'] ∧ capital 'ß' = ['S', 'S'] ∧ capital 'ſ' = ['S'] := by decide +kernel

end ChipEight.Text
