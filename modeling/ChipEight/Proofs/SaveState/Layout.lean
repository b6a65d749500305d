import ChipEight.Proofs.Machine.WellFormed
import ChipEight.Proofs.SaveState.Bytes

/-!
# The places in a saved state

* `Laid s bytes`       the parts of a state, each spelled at its offset;
* `spells_image`       exactly then the bytes are the image of the state;
* `length_image`       an image has 4412 bytes, whatever the state;
* `Layout s bytes`     the same places byte by byte, and pixels and keys bit by bit;
* `Laid.layout`         they are, for the image of a well-formed state.
-/

namespace ChipEight

namespace State

/-! ## parts at their offsets -/

structure Laid (s : State) (bytes : Array UInt8) : Prop where
  registers : Spells bytes 0 s.v.toList
  index : Spells bytes 16 (bigEndian 2 s.i.toNat)
  stack : ∀ k : Fin 16, Spells bytes (18 + 2 * k.val) (bigEndian 2 (s.stack.get k))
  pc : Spells bytes 50 (bigEndian 2 s.pc)
  counters : Spells bytes 52 [.ofNat s.sp, s.delay, s.sound]
  ram : Spells bytes 55 s.ram.toList
  screen : ∀ y : Fin 32, Spells bytes (4151 + 8 * y.val) (bigEndian 8 (s.screen.get y).toNat)
  keypad : Spells bytes 4407 (bigEndian 2 s.keypad.toNat)
  released : Spells bytes 4409 (releasedBytes s.released)
  awaiting : Spells bytes 4411 (awaitingBytes s.awaiting)

theorem length_releasedBytes (k : Option Key) : (releasedBytes k).length = 2 := by cases k <;> rfl

theorem length_awaitingBytes (x : Option Register) : (awaitingBytes x).length = 1 := by
  cases x <;> rfl

theorem spells_vector {α : Type} {n w : Nat} {f : α → List UInt8} (hw : ∀ x, (f x).length = w)
    {bytes : Array UInt8} {o : Nat} (v : Vector α n) :
    Spells bytes o (v.toList.flatMap f) ↔
      ∀ k : Fin n, Spells bytes (o + w * k.val) (f (v.get k)) := by
  rw [spells_flatMap hw]
  constructor
  · intro h k
    have hk := h k (by simp)
    rwa [Vector.getElem_toList] at hk
  · intro h k hk
    rw [Vector.getElem_toList]
    exact h ⟨k, by simpa using hk⟩

theorem length_image (s : State) : s.image.length = SaveState.size := by
  simp [image, length_flatMap_const (length_bigEndian 2),
    length_flatMap_const (fun row : BitVec 64 => length_bigEndian 8 row.toNat), length_bigEndian,
    length_releasedBytes, length_awaitingBytes, SaveState.size]

theorem spells_image {s : State} {bytes : Array UInt8} : Spells bytes 0 s.image ↔ s.Laid bytes := by
  simp only [image, spells_append, List.length_append, Vector.length_toList, length_bigEndian,
    length_flatMap_const (length_bigEndian 2),
    length_flatMap_const (fun row : BitVec 64 => length_bigEndian 8 row.toNat),
    length_releasedBytes, List.length_cons, List.length_nil, Nat.zero_add, Nat.reduceAdd,
    Nat.reduceMul, spells_vector (length_bigEndian 2),
    spells_vector (fun row : BitVec 64 => length_bigEndian 8 row.toNat)]
  constructor
  · rintro ⟨⟨⟨⟨⟨⟨⟨⟨⟨hv, hi⟩, hstack⟩, hpc⟩, hcount⟩, hram⟩, hscreen⟩, hkeys⟩, hrel⟩, hawait⟩
    exact ⟨hv, hi, hstack, hpc, hcount, hram, hscreen, hkeys, hrel, hawait⟩
  · intro h
    exact ⟨⟨⟨⟨⟨⟨⟨⟨⟨h.registers, h.index⟩, h.stack⟩, h.pc⟩, h.counters⟩, h.ram⟩, h.screen⟩, h.keypad⟩,
      h.released⟩, h.awaiting⟩

/-! ## parts, byte by byte -/

/-- the documented place of every byte, pixel and key -/
structure Layout (s : State) (bytes : Array UInt8) : Prop where
  size : bytes.size = 4412
  register : ∀ k : Register, byteAt bytes k.val = s.v.get k
  index : (byteAt bytes 16).toNat * 256 + (byteAt bytes 17).toNat = s.i.toNat
  stack : ∀ k : Fin 16, (byteAt bytes (18 + 2 * k.val)).toNat * 256 +
    (byteAt bytes (18 + 2 * k.val + 1)).toNat = s.stack.get k
  pc : (byteAt bytes 50).toNat * 256 + (byteAt bytes 51).toNat = s.pc
  sp : (byteAt bytes 52).toNat = s.sp
  delay : byteAt bytes 53 = s.delay
  sound : byteAt bytes 54 = s.sound
  ram : ∀ a : Fin 4096, byteAt bytes (55 + a.val) = s.ram.get a
  pixel : ∀ (x : Fin 64) (y : Fin 32),
    (byteAt bytes (4151 + 8 * y.val + x.val / 8)).toNat.testBit (7 - x.val % 8) =
      s.screen.pixel x y
  key : ∀ k : Key,
    (byteAt bytes (4407 + k.val / 8)).toNat.testBit (7 - k.val % 8) = s.keypad.holds k
  pending : byteAt bytes 4409 = if s.released.isSome then 1 else 0
  pendingKey : (byteAt bytes 4410).toNat = (s.released.map Fin.val).getD 0
  awaiting : (byteAt bytes 4411).toNat = (s.awaiting.map Fin.val).getD 0xFF
  running : byteAt bytes 4411 = 0xFF ↔ s.mode = .running

theorem numberAt_two (bytes : Array UInt8) (k : Nat) :
    numberAt bytes 2 k = (byteAt bytes k).toNat * 256 + (byteAt bytes (k + 1)).toNat := by
  rw [numberAt_succ, numberAt_succ, numberAt_zero, Nat.zero_mul, Nat.zero_add, Nat.add_zero]

namespace Laid

variable {s : State} {bytes : Array UInt8}

theorem byteAt_register (h : s.Laid bytes) (k : Register) : byteAt bytes k.val = s.v.get k := by
  have hk := h.registers k (by simp)
  rwa [Nat.zero_add, Vector.getElem_toList] at hk

theorem byteAt_ram (h : s.Laid bytes) (a : Fin 4096) :
    byteAt bytes (55 + a.val) = s.ram.get a := by
  have ha := h.ram a (by simp)
  rwa [Vector.getElem_toList] at ha

theorem byteAt_counters (h : s.Laid bytes) :
    byteAt bytes 52 = .ofNat s.sp ∧ byteAt bytes 53 = s.delay ∧ byteAt bytes 54 = s.sound := by
  obtain ⟨hsp, hrest⟩ := spells_cons.mp h.counters
  obtain ⟨hdelay, hrest⟩ := spells_cons.mp hrest
  obtain ⟨hsound, -⟩ := spells_cons.mp hrest
  exact ⟨hsp, hdelay, hsound⟩

theorem byteAt_sp (h : s.Laid bytes) (hw : s.WellFormed) : (byteAt bytes 52).toNat = s.sp := by
  have hsp : s.sp ≤ 16 := hw.sp_le
  rw [h.byteAt_counters.1, UInt8.toNat_ofNat']
  omega

theorem numberAt_index (h : s.Laid bytes) : numberAt bytes 2 16 = s.i.toNat :=
  numberAt_of_spells s.i.toNat_lt h.index

theorem numberAt_stack (h : s.Laid bytes) (hw : s.WellFormed) (k : Fin 16) :
    numberAt bytes 2 (18 + 2 * k.val) = s.stack.get k :=
  numberAt_of_spells (hw.stack_lt k) (h.stack k)

theorem numberAt_pc (h : s.Laid bytes) (hw : s.WellFormed) : numberAt bytes 2 50 = s.pc :=
  numberAt_of_spells hw.pc_lt h.pc

theorem numberAt_screen (h : s.Laid bytes) (y : Fin 32) :
    numberAt bytes 8 (4151 + 8 * y.val) = (s.screen.get y).toNat :=
  numberAt_of_spells (s.screen.get y).isLt (h.screen y)

theorem numberAt_keypad (h : s.Laid bytes) : numberAt bytes 2 4407 = s.keypad.toNat :=
  numberAt_of_spells s.keypad.isLt h.keypad

theorem testBit_pixel (h : s.Laid bytes) (x : Fin 64) (y : Fin 32) :
    (byteAt bytes (4151 + 8 * y.val + x.val / 8)).toNat.testBit (7 - x.val % 8) =
      s.screen.pixel x y := by
  have hbit : 8 * (8 - 1 - x.val / 8) + (7 - x.val % 8) = 64 - 1 - x.val := by omega
  rw [testBit_bigEndian (h.screen y) (by omega) (by omega), hbit, Screen.pixel,
    BitVec.getMsbD_eq_getLsbD, BitVec.testBit_toNat]
  simp [x.isLt]

theorem testBit_key (h : s.Laid bytes) (k : Key) :
    (byteAt bytes (4407 + k.val / 8)).toNat.testBit (7 - k.val % 8) = s.keypad.holds k := by
  have hbit : 8 * (2 - 1 - k.val / 8) + (7 - k.val % 8) = 16 - 1 - k.val := by omega
  rw [testBit_bigEndian h.keypad (by omega) (by omega), hbit, Keypad.holds,
    BitVec.getMsbD_eq_getLsbD, BitVec.testBit_toNat]
  simp [k.isLt]

theorem byteAt_pending (h : s.Laid bytes) :
    byteAt bytes 4409 = (if s.released.isSome then 1 else 0) ∧
      (byteAt bytes 4410).toNat = (s.released.map Fin.val).getD 0 := by
  have hpair := h.released
  cases hr : s.released with
  | none =>
    rw [hr, releasedBytes, spells_cons, spells_cons] at hpair
    exact ⟨hpair.1, by rw [hpair.2.1]; rfl⟩
  | some k =>
    rw [hr, releasedBytes, spells_cons, spells_cons] at hpair
    refine ⟨hpair.1, ?_⟩
    rw [hpair.2.1, UInt8.toNat_ofNat']
    show k.val % 256 = k.val
    omega

theorem byteAt_awaiting (h : s.Laid bytes) :
    (byteAt bytes 4411).toNat = (s.awaiting.map Fin.val).getD 0xFF := by
  have hbyte := h.awaiting
  cases hx : s.awaiting with
  | none =>
    rw [hx, awaitingBytes, spells_cons] at hbyte
    rw [hbyte.1]
    rfl
  | some x =>
    rw [hx, awaitingBytes, spells_cons] at hbyte
    rw [hbyte.1, UInt8.toNat_ofNat']
    show x.val % 256 = x.val
    omega

theorem byteAt_running (h : s.Laid bytes) (hw : s.WellFormed) :
    byteAt bytes 4411 = 0xFF ↔ s.mode = .running := by
  rw [← UInt8.toNat_inj, h.byteAt_awaiting]
  cases hx : s.awaiting with
  | none => exact ⟨fun _ => hw.running hx, fun _ => rfl⟩
  | some x =>
    have hmode := hw.awaitingKey hx
    have hne : x.val ≠ 255 := by omega
    simp [hmode, hne]

theorem layout (h : s.Laid bytes) (hw : s.WellFormed) (hsize : bytes.size = SaveState.size) :
    s.Layout bytes where
  size := hsize
  register := h.byteAt_register
  index := by rw [← h.numberAt_index, numberAt_two]
  stack k := by rw [← h.numberAt_stack hw k, numberAt_two]
  pc := by rw [← h.numberAt_pc hw, numberAt_two]
  sp := h.byteAt_sp hw
  delay := h.byteAt_counters.2.1
  sound := h.byteAt_counters.2.2
  ram := h.byteAt_ram
  pixel := h.testBit_pixel
  key := h.testBit_key
  pending := h.byteAt_pending.1
  pendingKey := h.byteAt_pending.2
  awaiting := h.byteAt_awaiting
  running := h.byteAt_running hw

end Laid

end State

end ChipEight
