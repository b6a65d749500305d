import ChipEight.Instruction.Listing
import ChipEight.Machine.State
import ChipEight.Proofs.Instruction.Encoding

/-!
# Reading listings

A line of a listing can be read back: without its commas it is a list of words, the operation
first, and each further word is an operand, whose first characters and length tell what kind it is.

* `Instruction.ofListing?_listing`   the line of an instruction reads as that instruction;
* `Instruction.text_injective`       so no two instructions look the same;
* `Instruction.decoding_exact`       integers, instructions and their texts together.
-/

namespace ChipEight

namespace Hex

theorem digit_mod (n : Nat) : digit n = digit (n % 16) := by simp only [digit, Nat.mod_mod]

def digitValue (c : Char) : Nat := if c.toNat < 65 then c.toNat - 48 else c.toNat - 55

theorem digitValue_digit (n : Nat) : digitValue (digit n) = n % 16 := by
  have hdigits : ∀ d : Fin 16, digitValue (digit d) = d := by decide
  rw [digit_mod]
  exact hdigits ⟨n % 16, Nat.mod_lt _ (by decide)⟩

def value (cs : List Char) : Nat := cs.foldl (fun n c => 16 * n + digitValue c) 0

theorem value_append_digit (cs : List Char) (c : Char) :
    value (cs ++ [c]) = 16 * value cs + digitValue c := by
  simp only [value, List.foldl_append, List.foldl_cons, List.foldl_nil]

theorem value_fixed (w n : Nat) : value (fixed w n) = n % Nat.pow 16 w := by
  induction w generalizing n with
  | zero => exact (Nat.mod_one n).symm
  | succ w ih =>
    rw [fixed_succ, value_append_digit, ih, digitValue_digit, Nat.pow_eq, Nat.pow_eq,
      Nat.pow_succ', Nat.mod_mul, Nat.add_comm]

end Hex

namespace Instruction

/-- an operand as a line shows it -/
inductive Operand where
  | register (x : Register)
  | byte (b : UInt8)
  | address (a : Address)
  | word (w : UInt16)
  | rows (n : Fin 16)
  | index
  | atIndex
  | glyph
  | decimal
  | key
  | delay
  | sound
  deriving DecidableEq

/-- without spaces and commas -/
def Plain (cs : List Char) : Prop := ∀ c ∈ cs, c ≠ ' ' ∧ c ≠ ','

-- named, so that no search finds an instance that goes through all characters
instance (cs : List Char) : Decidable (Plain cs) :=
  List.decidableBAll (fun c => c ≠ ' ' ∧ c ≠ ',') cs

theorem Plain.filter {cs : List Char} (h : Plain cs) : cs.filter (· != ',') = cs :=
  List.filter_eq_self.2 fun c hc => bne_iff_ne.2 (h c hc).2

theorem plain_cons {c : Char} {cs : List Char} : Plain (c :: cs) ↔ (c ≠ ' ' ∧ c ≠ ',') ∧ Plain cs :=
  List.forall_mem_cons

theorem digit_plain (n : Nat) : Plain [Hex.digit n] := by
  have hdigits : ∀ d : Fin 16, Plain [Hex.digit d] := by decide
  rw [Hex.digit_mod]
  exact hdigits ⟨n % 16, Nat.mod_lt _ (by decide)⟩

theorem fixed_plain (w n : Nat) : Plain (Hex.fixed w n) := by
  induction w generalizing n with
  | zero => exact List.forall_mem_nil _
  | succ w ih => exact List.forall_mem_append.2 ⟨ih _, digit_plain n⟩

namespace Operand

def text : Operand → List Char
  | register x => registerName x
  | byte b => hexOperand 2 b.toNat
  | address a => hexOperand 3 a
  | word w => hexOperand 4 w.toNat
  | rows n => Nat.toDigits 10 n
  | index => ['I']
  | atIndex => ['[', 'I', ']']
  | glyph => ['F']
  | decimal => ['B']
  | key => ['K']
  | delay => ['D', 'T']
  | sound => ['S', 'T']

theorem text_plain (o : Operand) : Plain o.text := by
  cases o with
  | register x => exact plain_cons.2 ⟨by decide, digit_plain x⟩
  | byte b => exact plain_cons.2 ⟨by decide, plain_cons.2 ⟨by decide, fixed_plain 2 b.toNat⟩⟩
  | address a => exact plain_cons.2 ⟨by decide, plain_cons.2 ⟨by decide, fixed_plain 3 a⟩⟩
  | word w => exact plain_cons.2 ⟨by decide, plain_cons.2 ⟨by decide, fixed_plain 4 w.toNat⟩⟩
  | rows n =>
    have hrows : ∀ n : Fin 16, Plain (Nat.toDigits 10 n) := by decide
    exact hrows n
  | _ => decide

/-- the operand that a text stands for; a hexadecimal one is a byte, an address or a word by its
number of digits -/
def ofText : List Char → Operand
  | ['V', x] => register ⟨Hex.digitValue x % 16, Nat.mod_lt _ (Nat.zero_lt_succ 15)⟩
  | ['0', 'x', a, b] => byte (.ofNat (Hex.value [a, b]))
  | ['0', 'x', a, b, c] => address ⟨Hex.value [a, b, c] % 4096, Nat.mod_lt _ (Nat.zero_lt_succ 4095)⟩
  | ['0', 'x', a, b, c, d] => word (.ofNat (Hex.value [a, b, c, d]))
  | ['I'] => index
  | ['[', 'I', ']'] => atIndex
  | ['F'] => glyph
  | ['B'] => decimal
  | ['K'] => key
  | ['D', 'T'] => delay
  | ['S', 'T'] => sound
  | cs => rows ⟨Nat.ofDigitChars 10 cs 0 % 16, Nat.mod_lt _ (Nat.zero_lt_succ 15)⟩

theorem ofText_text (o : Operand) : ofText o.text = o := by
  cases o with
  | register x =>
    refine congrArg register (Fin.ext ?_)
    show Hex.digitValue (Hex.digit x) % 16 = x
    rw [Hex.digitValue_digit]
    omega
  | byte b =>
    refine congrArg byte (UInt8.toNat.inj ?_)
    show (UInt8.ofNat (Hex.value (Hex.fixed 2 b.toNat))).toNat = b.toNat
    rw [Hex.value_fixed]
    simp
  | address a =>
    refine congrArg address (Fin.ext ?_)
    show Hex.value (Hex.fixed 3 a) % 4096 = a
    rw [Hex.value_fixed]
    simp
  | word w =>
    refine congrArg word (UInt16.toNat.inj ?_)
    show (UInt16.ofNat (Hex.value (Hex.fixed 4 w.toNat))).toNat = w.toNat
    rw [Hex.value_fixed]
    simp
  | rows n =>
    have hrows : ∀ n : Fin 16, ofText (Nat.toDigits 10 n) = rows n := by decide
    exact hrows n
  | _ => rfl

end Operand

/-! ## operations and operands -/

def parts : Instruction → List Char × List Operand
  | clear => (['C', 'L', 'S'], [])
  | ret => (['R', 'E', 'T'], [])
  | jump a => (['J', 'P'], [.address a])
  | jumpFrom a => (['J', 'P'], [.register State.first, .address a])
  | call a => (['C', 'A', 'L', 'L'], [.address a])
  | skipIfByte x b => (['S', 'E'], [.register x, .byte b])
  | skipUnlessByte x b => (['S', 'N', 'E'], [.register x, .byte b])
  | skipIfEqual x y => (['S', 'E'], [.register x, .register y])
  | skipUnlessEqual x y => (['S', 'N', 'E'], [.register x, .register y])
  | skipIfPressed x => (['S', 'K', 'P'], [.register x])
  | skipUnlessPressed x => (['S', 'K', 'N', 'P'], [.register x])
  | loadByte x b => (['L', 'D'], [.register x, .byte b])
  | addByte x b => (['A', 'D', 'D'], [.register x, .byte b])
  | copy x y => (['L', 'D'], [.register x, .register y])
  | or x y => (['O', 'R'], [.register x, .register y])
  | and x y => (['A', 'N', 'D'], [.register x, .register y])
  | xor x y => (['X', 'O', 'R'], [.register x, .register y])
  | add x y => (['A', 'D', 'D'], [.register x, .register y])
  | sub x y => (['S', 'U', 'B'], [.register x, .register y])
  | subFrom x y => (['S', 'U', 'B', 'N'], [.register x, .register y])
  | shiftRight x => (['S', 'H', 'R'], [.register x])
  | shiftLeft x => (['S', 'H', 'L'], [.register x])
  | random x b => (['R', 'N', 'D'], [.register x, .byte b])
  | loadIndex a => (['L', 'D'], [.index, .address a])
  | addIndex x => (['A', 'D', 'D'], [.index, .register x])
  | glyph x => (['L', 'D'], [.glyph, .register x])
  | storeDecimal x => (['L', 'D'], [.decimal, .register x])
  | store x => (['L', 'D'], [.atIndex, .register x])
  | load x => (['L', 'D'], [.register x, .atIndex])
  | readDelay x => (['L', 'D'], [.register x, .delay])
  | setDelay x => (['L', 'D'], [.delay, .register x])
  | setSound x => (['L', 'D'], [.sound, .register x])
  | awaitKey x => (['L', 'D'], [.register x, .key])
  | draw x y n => (['D', 'R', 'W'], [.register x, .register y, .rows n])
  | unknown w => (['?', '?', '?'], [.word w])

/-- the instruction with that operation and those operands -/
def ofParts? : List Char → List Operand → Option Instruction
  | ['C', 'L', 'S'], [] => some clear
  | ['R', 'E', 'T'], [] => some ret
  | ['J', 'P'], [.address a] => some (jump a)
  | ['J', 'P'], [.register 0, .address a] => some (jumpFrom a)
  | ['C', 'A', 'L', 'L'], [.address a] => some (call a)
  | ['S', 'E'], [.register x, .byte b] => some (skipIfByte x b)
  | ['S', 'N', 'E'], [.register x, .byte b] => some (skipUnlessByte x b)
  | ['S', 'E'], [.register x, .register y] => some (skipIfEqual x y)
  | ['S', 'N', 'E'], [.register x, .register y] => some (skipUnlessEqual x y)
  | ['S', 'K', 'P'], [.register x] => some (skipIfPressed x)
  | ['S', 'K', 'N', 'P'], [.register x] => some (skipUnlessPressed x)
  | ['L', 'D'], [.register x, .byte b] => some (loadByte x b)
  | ['A', 'D', 'D'], [.register x, .byte b] => some (addByte x b)
  | ['L', 'D'], [.register x, .register y] => some (copy x y)
  | ['O', 'R'], [.register x, .register y] => some (or x y)
  | ['A', 'N', 'D'], [.register x, .register y] => some (and x y)
  | ['X', 'O', 'R'], [.register x, .register y] => some (xor x y)
  | ['A', 'D', 'D'], [.register x, .register y] => some (add x y)
  | ['S', 'U', 'B'], [.register x, .register y] => some (sub x y)
  | ['S', 'U', 'B', 'N'], [.register x, .register y] => some (subFrom x y)
  | ['S', 'H', 'R'], [.register x] => some (shiftRight x)
  | ['S', 'H', 'L'], [.register x] => some (shiftLeft x)
  | ['R', 'N', 'D'], [.register x, .byte b] => some (random x b)
  | ['L', 'D'], [.index, .address a] => some (loadIndex a)
  | ['A', 'D', 'D'], [.index, .register x] => some (addIndex x)
  | ['L', 'D'], [.glyph, .register x] => some (glyph x)
  | ['L', 'D'], [.decimal, .register x] => some (storeDecimal x)
  | ['L', 'D'], [.atIndex, .register x] => some (store x)
  | ['L', 'D'], [.register x, .atIndex] => some (load x)
  | ['L', 'D'], [.register x, .delay] => some (readDelay x)
  | ['L', 'D'], [.delay, .register x] => some (setDelay x)
  | ['L', 'D'], [.sound, .register x] => some (setSound x)
  | ['L', 'D'], [.register x, .key] => some (awaitKey x)
  | ['D', 'R', 'W'], [.register x, .register y, .rows n] => some (draw x y n)
  | ['?', '?', '?'], [.word w] => some (unknown w)
  | _, _ => none

theorem ofParts?_parts (i : Instruction) : ofParts? i.parts.1 i.parts.2 = some i := by
  cases i <;> rfl

theorem operation_plain (i : Instruction) : Plain i.parts.1 := by
  cases i <;> exact of_decide_eq_true rfl

/-! ## lines -/

def shownOperands : List Operand → List Char
  | [] => []
  | [o] => ' ' :: o.text
  | o :: os => ' ' :: (o.text ++ ',' :: shownOperands os)

theorem listing_eq (i : Instruction) : i.listing = i.parts.1 ++ shownOperands i.parts.2 := by
  cases i <;> rfl

theorem filter_shownOperands (os : List Operand) :
    (shownOperands os).filter (· != ',') = os.flatMap fun o => ' ' :: o.text := by
  fun_induction shownOperands os with
  | case1 => rfl
  | case2 o =>
    rw [List.filter_cons_of_pos rfl, o.text_plain.filter, List.flatMap_singleton]
  | case3 o os _ ih =>
    rw [List.filter_cons_of_pos rfl, List.filter_append, o.text_plain.filter,
      List.filter_cons_of_neg (by decide), ih, List.flatMap_cons, List.cons_append]

theorem intercalate_space (w : List Char) (ws : List (List Char)) :
    [' '].intercalate (w :: ws) = w ++ ws.flatMap fun v => ' ' :: v := by
  induction ws generalizing w with
  | nil => simp
  | cons v ws ih => simp [List.intercalate_cons_cons, ih]

/-- the words of a line, without its commas -/
def words (line : List Char) : List (List Char) := (line.filter (· != ',')).splitOn ' '

theorem words_listing (i : Instruction) :
    words i.listing = i.parts.1 :: i.parts.2.map Operand.text := by
  have hline : i.listing.filter (· != ',') =
      [' '].intercalate (i.parts.1 :: i.parts.2.map Operand.text) := by
    rw [listing_eq, List.filter_append, i.operation_plain.filter, filter_shownOperands,
      intercalate_space, List.flatMap_map]
  have hspace : ∀ w ∈ i.parts.1 :: i.parts.2.map Operand.text, ' ' ∉ w := by
    intro w hw hmem
    rcases List.mem_cons.1 hw with rfl | hw
    · exact (i.operation_plain _ hmem).1 rfl
    · obtain ⟨o, -, rfl⟩ := List.mem_map.1 hw
      exact (o.text_plain _ hmem).1 rfl
  rw [words, hline, List.splitOn_intercalate _ hspace (List.cons_ne_nil _ _)]

/-- the instruction that a line shows -/
def ofListing? (line : List Char) : Option Instruction :=
  match words line with
  | [] => none
  | name :: operands => ofParts? name (operands.map Operand.ofText)

theorem ofListing?_listing (i : Instruction) : ofListing? i.listing = some i := by
  have hread : Operand.ofText ∘ Operand.text = id := funext Operand.ofText_text
  rw [ofListing?, words_listing]
  show ofParts? i.parts.1 ((i.parts.2.map Operand.text).map Operand.ofText) = some i
  rw [List.map_map, hread, List.map_id, ofParts?_parts]

theorem text_injective : Function.Injective text := by
  intro i j h
  have hlines : i.listing = j.listing := String.ofList_injective h
  have hsome : some i = some j := by rw [← ofListing?_listing i, hlines, ofListing?_listing]
  exact Option.some.inj hsome

/-! ## integers, instructions and texts -/

/-- only sixteen bits of an integer count; an instruction that means something decodes from each of
its words, and a word is unknown just if it is a word of no such instruction; texts tell
instructions apart -/
theorem decoding_exact :
    (∀ o : Int, decode o = decode (o % 65536)) ∧
      (∀ i : Instruction, i.Known → ∀ spare, decode (encode i spare) = i) ∧
      (∀ o : Int, decode o = unknown (.ofNat (o % 65536).toNat) ↔
        ∀ i : Instruction, i.Known → ∀ spare, (encode i spare : Int) ≠ o % 65536) ∧
      ∀ a b : Int, (decode a).text = (decode b).text → decode a = decode b :=
  ⟨fun o => (decode_emod o).symm, fun _ hi spare => decode_encode hi spare, decode_eq_unknown_iff,
    fun _ _ h => text_injective h⟩

/-- a shift: its word ignores a nibble, and so does its text -/
theorem decoding_exact_shift :
    (shiftRight 3).Known ∧ encode (shiftRight 3) 0xB = 0x83B6 ∧
      decode (-0x7C4A) = decode 0x83B6 ∧ decode (encode (shiftRight 3) 0xB) = shiftRight 3 ∧
      (decode 0x83B6).text = (decode 0x83C6).text ∧ decode 0x83B6 = decode 0x83C6 := by
  have hknown : (shiftRight 3).Known := by intro w h; cases h
  have htext : (decode 0x83B6).text = (decode 0x83C6).text := rfl
  obtain ⟨hmod, hword, -, htexts⟩ := decoding_exact
  exact ⟨hknown, rfl, hmod (-0x7C4A), hword _ hknown 0xB, htext, htexts _ _ htext⟩

end Instruction

end ChipEight
