import ChipEight.Proofs.SaveState.Layout

/-!
# What is read from a saved state

* `Acceptable bytes`       the conditions on its size and on three of its bytes;
* `Refused bytes e`        the first of them that fails, as the error that says so;
* `readReleased_*`, `readAwaiting_*`, `decodeArray_*`   reading, an equation for each case;
* `decodeArray_ok_iff`, `decodeArray_error_iff`         acceptable bytes are read, others refused;
* `decode_wellFormed`      what was read is a well-formed state.
-/

namespace ChipEight

namespace State

structure Acceptable (bytes : Array UInt8) : Prop where
  size : bytes.size = 4412
  sp : (byteAt bytes 52).toNat ≤ 16
  pending : byteAt bytes 4409 = 0 ∨ (byteAt bytes 4410).toNat < 16
  awaiting : byteAt bytes 4411 = 0xFF ∨ (byteAt bytes 4411).toNat < 16

/-- bytes that are none, by the first check that they fail -/
inductive Refused (bytes : Array UInt8) : SaveError → Prop where
  | wrongSize (hsize : bytes.size ≠ 4412) : Refused bytes (.wrongSize bytes.size)
  | stackPointer (hsize : bytes.size = 4412) (hsp : 16 < (byteAt bytes 52).toNat) :
      Refused bytes (.stackPointer (byteAt bytes 52).toNat)
  | pendingKey (hsize : bytes.size = 4412) (hsp : (byteAt bytes 52).toNat ≤ 16)
      (hflag : byteAt bytes 4409 ≠ 0) (hkey : 16 ≤ (byteAt bytes 4410).toNat) :
      Refused bytes (.pendingKey (byteAt bytes 4410).toNat)
  | awaitRegister (hsize : bytes.size = 4412) (hsp : (byteAt bytes 52).toNat ≤ 16)
      (hpending : byteAt bytes 4409 = 0 ∨ (byteAt bytes 4410).toNat < 16)
      (hwaits : byteAt bytes 4411 ≠ 0xFF) (hregister : 16 ≤ (byteAt bytes 4411).toNat) :
      Refused bytes (.awaitRegister (byteAt bytes 4411).toNat)

section
variable {bytes : Array UInt8}

/-! ## the pending key -/

theorem nibble?_val (k : Fin 16) : nibble? k.val = some k := dif_pos k.isLt

theorem nibble?_outside {n : Nat} (h : ¬n < 16) : nibble? n = none := dif_neg h

theorem readReleased_none (h : byteAt bytes 4409 = 0) : readReleased bytes = .ok none := if_pos h

theorem readReleased_some {k : Key} (h : byteAt bytes 4409 ≠ 0)
    (hk : (byteAt bytes 4410).toNat = k.val) : readReleased bytes = .ok (some k) := by
  unfold readReleased
  rw [if_neg h, hk, nibble?_val]

theorem readReleased_error (h : byteAt bytes 4409 ≠ 0) (hk : ¬(byteAt bytes 4410).toNat < 16) :
    readReleased bytes = .error (.pendingKey (byteAt bytes 4410).toNat) := by
  unfold readReleased
  rw [if_neg h, nibble?_outside hk]

theorem exists_readReleased (h : byteAt bytes 4409 = 0 ∨ (byteAt bytes 4410).toNat < 16) :
    ∃ r, readReleased bytes = .ok r := by
  by_cases hflag : byteAt bytes 4409 = 0
  · exact ⟨none, readReleased_none hflag⟩
  · have hkey := h.resolve_left hflag
    exact ⟨some ⟨_, hkey⟩, readReleased_some hflag rfl⟩

/-! ## the register that waits -/

theorem readAwaiting_none (h : byteAt bytes 4411 = 0xFF) : readAwaiting bytes = .ok none := by
  unfold readAwaiting
  rw [h]
  rfl

theorem readAwaiting_some {x : Register} (hx : (byteAt bytes 4411).toNat = x.val) :
    readAwaiting bytes = .ok (some x) := by
  have hne : x.val ≠ SaveState.notAwaiting := by
    unfold SaveState.notAwaiting
    omega
  unfold readAwaiting
  rw [hx, if_neg hne, nibble?_val]

theorem readAwaiting_error (h : byteAt bytes 4411 ≠ 0xFF) (hx : ¬(byteAt bytes 4411).toNat < 16) :
    readAwaiting bytes = .error (.awaitRegister (byteAt bytes 4411).toNat) := by
  have hne : (byteAt bytes 4411).toNat ≠ SaveState.notAwaiting := fun heq =>
    h (UInt8.toNat_inj.mp heq)
  unfold readAwaiting
  rw [if_neg hne, nibble?_outside hx]

theorem exists_readAwaiting (h : byteAt bytes 4411 = 0xFF ∨ (byteAt bytes 4411).toNat < 16) :
    ∃ x, readAwaiting bytes = .ok x := by
  rcases h with hff | hlt
  · exact ⟨none, readAwaiting_none hff⟩
  · exact ⟨some ⟨_, hlt⟩, readAwaiting_some rfl⟩

/-! ## the whole state -/

theorem decodeArray_checked (hsize : bytes.size = 4412) (hsp : (byteAt bytes 52).toNat ≤ 16) :
    decodeArray bytes = (do
      let released ← readReleased bytes
      let awaiting ← readAwaiting bytes
      return (ofImage bytes released).waitingAgain awaiting) :=
  (if_neg (not_not_intro hsize)).trans (if_neg (Nat.not_lt.mpr hsp))

theorem decodeArray_ok {r : Option Key} {x : Option Register} (hsize : bytes.size = 4412)
    (hsp : (byteAt bytes 52).toNat ≤ 16) (hr : readReleased bytes = .ok r)
    (hx : readAwaiting bytes = .ok x) :
    decodeArray bytes = .ok ((ofImage bytes r).waitingAgain x) := by
  rw [decodeArray_checked hsize hsp, hr, hx]
  rfl

theorem Refused.decodeArray {e : SaveError} (h : Refused bytes e) :
    decodeArray bytes = .error e := by
  cases h with
  | wrongSize hsize => exact if_pos hsize
  | stackPointer hsize hsp => exact (if_neg (not_not_intro hsize)).trans (if_pos hsp)
  | pendingKey hsize hsp hflag hkey =>
    rw [decodeArray_checked hsize hsp, readReleased_error hflag (Nat.not_lt.mpr hkey)]
    rfl
  | awaitRegister hsize hsp hpending hwaits hregister =>
    obtain ⟨r, hr⟩ := exists_readReleased hpending
    rw [decodeArray_checked hsize hsp, hr, readAwaiting_error hwaits (Nat.not_lt.mpr hregister)]
    rfl

example : decodeArray #[] = .error (.wrongSize 0) := rfl

theorem Acceptable.decodeArray (h : Acceptable bytes) :
    ∃ r x, readReleased bytes = .ok r ∧ readAwaiting bytes = .ok x ∧
      decodeArray bytes = .ok ((ofImage bytes r).waitingAgain x) := by
  obtain ⟨r, hr⟩ := exists_readReleased h.pending
  obtain ⟨x, hx⟩ := exists_readAwaiting h.awaiting
  exact ⟨r, x, hr, hx, decodeArray_ok h.size h.sp hr hx⟩

/-- the checks, in their order, leave no case out -/
theorem acceptable_or_refused (bytes : Array UInt8) : Acceptable bytes ∨ ∃ e, Refused bytes e := by
  by_cases hsize : bytes.size = 4412
  · by_cases hsp : (byteAt bytes 52).toNat ≤ 16
    · by_cases hpending : byteAt bytes 4409 = 0 ∨ (byteAt bytes 4410).toNat < 16
      · by_cases hawaiting : byteAt bytes 4411 = 0xFF ∨ (byteAt bytes 4411).toNat < 16
        · exact .inl ⟨hsize, hsp, hpending, hawaiting⟩
        · obtain ⟨hwaits, hregister⟩ := not_or.mp hawaiting
          exact .inr ⟨_, .awaitRegister hsize hsp hpending hwaits (Nat.not_lt.mp hregister)⟩
      · obtain ⟨hflag, hkey⟩ := not_or.mp hpending
        exact .inr ⟨_, .pendingKey hsize hsp hflag (Nat.not_lt.mp hkey)⟩
    · exact .inr ⟨_, .stackPointer hsize (Nat.not_le.mp hsp)⟩
  · exact .inr ⟨_, .wrongSize hsize⟩

theorem decodeArray_error_iff {e : SaveError} :
    decodeArray bytes = .error e ↔ Refused bytes e := by
  refine ⟨fun h => ?_, Refused.decodeArray⟩
  rcases acceptable_or_refused bytes with hok | ⟨e', he'⟩
  · obtain ⟨r, x, -, -, hd⟩ := hok.decodeArray
    rw [hd] at h
    cases h
  · rw [he'.decodeArray] at h
    cases h
    exact he'

theorem decodeArray_ok_iff {s : State} :
    decodeArray bytes = .ok s ↔
      Acceptable bytes ∧ ∃ r x, readReleased bytes = .ok r ∧ readAwaiting bytes = .ok x ∧
        s = (ofImage bytes r).waitingAgain x := by
  constructor
  · intro h
    rcases acceptable_or_refused bytes with hok | ⟨e, he⟩
    · obtain ⟨r, x, hr, hx, hd⟩ := hok.decodeArray
      rw [hd] at h
      cases h
      exact ⟨hok, r, x, hr, hx, rfl⟩
    · rw [he.decodeArray] at h
      cases h
  · rintro ⟨hok, r, x, hr, hx, rfl⟩
    exact decodeArray_ok hok.size hok.sp hr hx

/-! ## states that were read -/

theorem ofImage_wellFormed (hsp : (byteAt bytes 52).toNat ≤ 16) (r : Option Key) :
    (ofImage bytes r).WellFormed := by
  refine ⟨numberAt_lt bytes 2 50, hsp, fun k => ?_, ?_⟩
  · show (Vector.ofFn fun k : Fin 16 => numberAt bytes 2 (18 + 2 * k.val))[k.val] < 65536
    rw [Vector.getElem_ofFn]
    exact numberAt_lt bytes 2 _
  · simp [control, ofImage]

end

theorem waitingAgain_wellFormed {s : State} (h : s.WellFormed)
    (awaiting : Option Register) : (s.waitingAgain awaiting).WellFormed := by
  cases awaiting with
  | none => exact h
  | some x => exact h.waitFor x

theorem decode_wellFormed {bytes : List UInt8} {s : State} (h : decode bytes = .ok s) :
    s.WellFormed := by
  obtain ⟨hok, r, x, -, -, rfl⟩ := decodeArray_ok_iff.mp h
  exact waitingAgain_wellFormed (ofImage_wellFormed hok.sp r) x

end State

end ChipEight
