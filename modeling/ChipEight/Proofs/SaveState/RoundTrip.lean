import ChipEight.Proofs.SaveState.Reading

/-!
# Saved states are read back

* `encode_wellFormed`            a well-formed state is saved as its image;
* `Laid.decodeArray`             bytes with a well-formed state at its offsets are read as that state;
* `decode_image`                 so its image is;
* `Machine.snapshot_restores`    a machine is restored from what was saved of it, every part at its
                                 documented place; only a pause is not saved.
-/

namespace ChipEight

namespace State

theorem misfit?_wellFormed {s : State} (h : s.WellFormed) : s.misfit? = none := by
  have hpc : s.pc < 65536 := h.pc_lt
  have hsp : s.sp < 256 := Nat.lt_of_le_of_lt h.sp_le (by decide)
  have hstack : s.stack.toList.all (· < 65536) = true := by
    rw [List.all_eq_true]
    intro n hn
    obtain ⟨k, hk, rfl⟩ := List.mem_iff_getElem.mp hn
    rw [Vector.getElem_toList]
    exact decide_eq_true (h.stack_lt ⟨k, by simpa using hk⟩)
  simp [misfit?, hstack, hpc, hsp]

theorem encode_wellFormed {s : State} (h : s.WellFormed) : s.encode = .ok s.image := by
  rw [encode, misfit?_wellFormed h]

/-! ## reading what was written -/

namespace Laid

variable {s : State} {bytes : Array UInt8}

theorem readReleased (h : s.Laid bytes) : State.readReleased bytes = .ok s.released := by
  obtain ⟨hflag, hkey⟩ := h.byteAt_pending
  cases hr : s.released with
  | none =>
    rw [hr] at hflag
    exact readReleased_none hflag
  | some k =>
    rw [hr] at hflag hkey
    have hne : byteAt bytes 4409 ≠ 0 := by
      rw [hflag, Option.isSome_some, if_pos rfl]
      decide
    exact readReleased_some hne hkey

theorem readAwaiting (h : s.Laid bytes) : State.readAwaiting bytes = .ok s.awaiting := by
  have hbyte := h.byteAt_awaiting
  cases hx : s.awaiting with
  | none =>
    rw [hx] at hbyte
    exact readAwaiting_none (UInt8.toNat_inj.mp hbyte)
  | some x =>
    rw [hx] at hbyte
    exact readAwaiting_some hbyte

theorem ofImage (h : s.Laid bytes) (hw : s.WellFormed) :
    State.ofImage bytes s.released = { s with mode := .running, awaiting := none } := by
  have hv : (Vector.ofFn fun k : Fin 16 => byteAt bytes k) = s.v :=
    Vector.ext fun k hk => by rw [Vector.getElem_ofFn]; exact h.byteAt_register ⟨k, hk⟩
  have hi : UInt16.ofNat (numberAt bytes 2 16) = s.i := by
    rw [h.numberAt_index, UInt16.ofNat_toNat]
  have hstack : (Vector.ofFn fun k : Fin 16 => numberAt bytes 2 (18 + 2 * k.val)) = s.stack :=
    Vector.ext fun k hk => by rw [Vector.getElem_ofFn]; exact h.numberAt_stack hw ⟨k, hk⟩
  have hram : (Vector.ofFn fun a : Fin 4096 => byteAt bytes (55 + a.val)) = s.ram :=
    Vector.ext fun a ha => by rw [Vector.getElem_ofFn]; exact h.byteAt_ram ⟨a, ha⟩
  have hscreen : (Vector.ofFn fun y : Fin 32 =>
      BitVec.ofNat 64 (numberAt bytes 8 (4151 + 8 * y.val))) = s.screen :=
    Vector.ext fun y hy => by
      rw [Vector.getElem_ofFn, h.numberAt_screen ⟨y, hy⟩, BitVec.ofNat_toNat, BitVec.setWidth_eq]
      rfl
  have hkeypad : BitVec.ofNat 16 (numberAt bytes 2 4407) = s.keypad := by
    rw [h.numberAt_keypad, BitVec.ofNat_toNat, BitVec.setWidth_eq]
  obtain ⟨-, hdelay, hsound⟩ := h.byteAt_counters
  rw [State.ofImage, hv, hi, hstack, hram, hscreen, hkeypad, h.numberAt_pc hw, h.byteAt_sp hw,
    hdelay, hsound]

theorem waitingAgain (hw : s.WellFormed) :
    State.waitingAgain { s with mode := .running, awaiting := none } s.awaiting = s := by
  cases hx : s.awaiting with
  | none =>
    have hmode := hw.running hx
    cases s
    cases hx
    cases hmode
    rfl
  | some x =>
    have hmode := hw.awaitingKey hx
    cases s
    cases hx
    cases hmode
    rfl

theorem decodeArray (h : s.Laid bytes) (hw : s.WellFormed) (hsize : bytes.size = SaveState.size) :
    State.decodeArray bytes = .ok s := by
  have hsp : (byteAt bytes 52).toNat ≤ 16 := by
    rw [h.byteAt_sp hw]
    exact hw.sp_le
  rw [decodeArray_ok hsize hsp h.readReleased h.readAwaiting, h.ofImage hw, waitingAgain hw]

end Laid

theorem image_laid (s : State) : s.Laid s.image.toArray :=
  spells_image.mp (spells_toArray s.image)

theorem decode_image {s : State} (h : s.WellFormed) : decode s.image = .ok s :=
  (image_laid s).decodeArray h s.length_image

end State

/-! ## machines -/

theorem Machine.restore_of_decode {bytes : List UInt8} {s : State}
    (h : State.decode bytes = .ok s) (dice : Dice) (tracing : Bool) :
    Machine.restore bytes dice tracing = .ok (.ofState s dice tracing) := by
  rw [Machine.restore, h]
  rfl

theorem Machine.restore_ok {bytes : List UInt8} {dice : Dice} {tracing : Bool} {m : Machine}
    (h : Machine.restore bytes dice tracing = .ok m) :
    ∃ s, State.decode bytes = .ok s ∧ m = .ofState s dice tracing := by
  unfold Machine.restore at h
  cases hd : State.decode bytes with
  | error e =>
    rw [hd] at h
    cases h
  | ok s =>
    rw [hd] at h
    cases h
    exact ⟨s, rfl, rfl⟩

theorem Machine.restore_error_iff {bytes : List UInt8} {dice : Dice} {tracing : Bool}
    {e : SaveError} :
    Machine.restore bytes dice tracing = .error e ↔ State.decode bytes = .error e := by
  unfold Machine.restore
  cases State.decode bytes with
  | ok s => exact ⟨nofun, nofun⟩
  | error e' => exact ⟨fun h => by cases h; rfl, fun h => by cases h; rfl⟩

/-- saving and restoring gives the same state, with every part of it at its documented place -/
theorem Machine.snapshot_restores {m : Machine} (h : m.state.WellFormed) :
    ∃ bytes, m.snapshot = .ok bytes ∧ m.state.Layout bytes.toArray ∧
      ∀ dice tracing, ∃ r, Machine.restore bytes dice tracing = .ok r ∧
        r.state = m.state ∧ r.paused = false := by
  refine ⟨m.state.image, State.encode_wellFormed h,
    m.state.image_laid.layout h m.state.length_image, fun dice tracing => ?_⟩
  exact ⟨_, restore_of_decode (State.decode_image h) dice tracing, rfl, rfl⟩

/-- a paused machine in which register 3 waits, with key 9 pending -/
theorem Machine.snapshot_restores_waiting :
    State.WellFormed { State.fresh.waitFor 3 with released := some 9 } ∧
      ∃ bytes, (Machine.mk { State.fresh.waitFor 3 with released := some 9 } (.cycle #[]) true true
          []).snapshot = .ok bytes ∧
        State.Layout { State.fresh.waitFor 3 with released := some 9 } bytes.toArray ∧
        ∀ dice tracing, ∃ r, Machine.restore bytes dice tracing = .ok r ∧
          r.state = { State.fresh.waitFor 3 with released := some 9 } ∧ r.paused = false :=
  ⟨State.fresh_wellFormed.waitFor 3, Machine.snapshot_restores (State.fresh_wellFormed.waitFor 3)⟩

end ChipEight
