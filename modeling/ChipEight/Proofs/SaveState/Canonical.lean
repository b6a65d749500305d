import ChipEight.Proofs.SaveState.RoundTrip

/-!
# Saved states that are written again

* `canonical bytes`     the pending flag cut to one bit, and no key where none is pending;
* `laid_decoded`        what was read, spelled at its offsets in bytes that differ in the pending
                        key only;
* `image_decoded`       a state that was read is written as the canonical form of its bytes;
* `decode_accepts`      which bytes are accepted, how the others are refused, and what becomes of
                        accepted bytes when they are read and written again.
-/

namespace ChipEight

namespace State

def canonical (bytes : List UInt8) : List UInt8 :=
  if byteAt bytes.toArray 4409 = 0 then bytes.set 4410 0 else bytes.set 4409 1

theorem byteAt_set_ne (l : List UInt8) {i k : Nat} (h : i ≠ k) (b : UInt8) :
    byteAt (l.set i b).toArray k = byteAt l.toArray k := by
  simp [byteAt, List.getElem?_set_ne h]

theorem byteAt_set_self {l : List UInt8} {i : Nat} (h : i < l.length) (b : UInt8) :
    byteAt (l.set i b).toArray i = b := by
  simp [byteAt, h]

theorem length_canonical (bytes : List UInt8) : (canonical bytes).length = bytes.length := by
  unfold canonical
  split <;> exact List.length_set

theorem byteAt_canonical (bytes : List UInt8) {k : Nat} (h : k < 4409 ∨ 4411 ≤ k) :
    byteAt (canonical bytes).toArray k = byteAt bytes.toArray k := by
  unfold canonical
  split
  · exact byteAt_set_ne bytes (by omega) 0
  · exact byteAt_set_ne bytes (by omega) 1

theorem canonical_canonical {bytes : List UInt8} (hlen : bytes.length = 4412) :
    canonical (canonical bytes) = canonical bytes := by
  by_cases hflag : byteAt bytes.toArray 4409 = 0
  · have hform : canonical bytes = bytes.set 4410 0 := if_pos hflag
    have hzero : byteAt (bytes.set 4410 0).toArray 4409 = 0 := by
      rw [byteAt_set_ne bytes (by omega), hflag]
    rw [hform, canonical, if_pos hzero, List.set_set]
  · have hform : canonical bytes = bytes.set 4409 1 := if_neg hflag
    have hone : byteAt (bytes.set 4409 1).toArray 4409 ≠ 0 := by
      rw [byteAt_set_self (by omega)]
      decide
    rw [hform, canonical, if_neg hone, List.set_set]

/-! ## what was read, in bytes -/

section
variable {bytes : Array UInt8}

theorem readReleased_flag {r : Option Key} (h : readReleased bytes = .ok r) :
    (byteAt bytes 4409 = 0 ∧ r = none) ∨
      (byteAt bytes 4409 ≠ 0 ∧ ∃ k : Key, r = some k ∧ (byteAt bytes 4410).toNat = k.val) := by
  by_cases hflag : byteAt bytes 4409 = 0
  · rw [readReleased_none hflag] at h
    cases h
    exact .inl ⟨hflag, rfl⟩
  · by_cases hkey : (byteAt bytes 4410).toNat < 16
    · rw [readReleased_some (k := ⟨_, hkey⟩) hflag rfl] at h
      cases h
      exact .inr ⟨hflag, _, rfl, rfl⟩
    · rw [readReleased_error hflag hkey] at h
      cases h

theorem spells_readAwaiting {x : Option Register} (h : readAwaiting bytes = .ok x) :
    Spells bytes 4411 (awaitingBytes x) := by
  by_cases hff : byteAt bytes 4411 = 0xFF
  · rw [readAwaiting_none hff] at h
    cases h
    exact spells_cons.mpr ⟨hff, spells_nil bytes _⟩
  · by_cases hlt : (byteAt bytes 4411).toNat < 16
    · rw [readAwaiting_some (x := ⟨_, hlt⟩) rfl] at h
      cases h
      exact spells_cons.mpr ⟨UInt8.ofNat_toNat.symm, spells_nil bytes _⟩
    · rw [readAwaiting_error hff hlt] at h
      cases h

theorem spells_ofFn (bytes : Array UInt8) (n o : Nat) :
    Spells bytes o (Vector.ofFn fun k : Fin n => byteAt bytes (o + k.val)).toList := by
  intro j hj
  rw [Vector.getElem_toList, Vector.getElem_ofFn]

theorem Spells.elsewhere {bytes' : Array UInt8} {o : Nat} {l : List UInt8} (h : Spells bytes o l)
    (hsame : ∀ k, k < 4409 ∨ 4411 ≤ k → byteAt bytes' k = byteAt bytes k)
    (ho : o + l.length ≤ 4409 ∨ 4411 ≤ o) : Spells bytes' o l := by
  intro j hj
  rw [hsame (o + j) (by omega)]
  exact h j hj

theorem spells_number {bytes' : Array UInt8} {w o n : Nat}
    (hsame : ∀ k, k < 4409 ∨ 4411 ≤ k → byteAt bytes' k = byteAt bytes k)
    (hn : n = numberAt bytes w o) (ho : o + w ≤ 4409) : Spells bytes' o (bigEndian w n) := by
  rw [hn]
  refine (bigEndian_numberAt bytes w o).elsewhere hsame (.inl ?_)
  rwa [length_bigEndian]

theorem laid_decoded {bytes' : Array UInt8} {r : Option Key} {x : Option Register}
    (hsame : ∀ k, k < 4409 ∨ 4411 ≤ k → byteAt bytes' k = byteAt bytes k)
    (hr : Spells bytes' 4409 (releasedBytes r)) (hx : Spells bytes 4411 (awaitingBytes x)) :
    ((ofImage bytes r).waitingAgain x).Laid bytes' := by
  have hv : Spells bytes' 0 (ofImage bytes r).v.toList := by
    have hown := spells_ofFn bytes 16 0
    simp only [Nat.zero_add] at hown
    exact hown.elsewhere hsame (by simp)
  have hi : Spells bytes' 16 (bigEndian 2 (ofImage bytes r).i.toNat) :=
    spells_number hsame (Nat.mod_eq_of_lt (numberAt_lt bytes 2 16)) (by omega)
  have hstack (k : Fin 16) :
      Spells bytes' (18 + 2 * k.val) (bigEndian 2 ((ofImage bytes r).stack.get k)) :=
    spells_number hsame (Vector.getElem_ofFn k.isLt) (by omega)
  have hpc : Spells bytes' 50 (bigEndian 2 (ofImage bytes r).pc) :=
    spells_number hsame rfl (by omega)
  have hcounters : Spells bytes' 52
      [.ofNat (ofImage bytes r).sp, (ofImage bytes r).delay, (ofImage bytes r).sound] := by
    rw [spells_cons, spells_cons, spells_cons, hsame 52 (by omega), hsame 53 (by omega),
      hsame 54 (by omega)]
    exact ⟨UInt8.ofNat_toNat.symm, rfl, rfl, spells_nil bytes' _⟩
  have hram : Spells bytes' 55 (ofImage bytes r).ram.toList :=
    (spells_ofFn bytes 4096 55).elsewhere hsame (by simp)
  have hscreen (y : Fin 32) :
      Spells bytes' (4151 + 8 * y.val) (bigEndian 8 ((ofImage bytes r).screen.get y).toNat) := by
    have hrow : (ofImage bytes r).screen.get y =
        BitVec.ofNat 64 (numberAt bytes 8 (4151 + 8 * y.val)) := Vector.getElem_ofFn y.isLt
    rw [hrow, BitVec.toNat_ofNat]
    exact spells_number hsame (Nat.mod_eq_of_lt (numberAt_lt bytes 8 _)) (by omega)
  have hkeypad : Spells bytes' 4407 (bigEndian 2 (ofImage bytes r).keypad.toNat) :=
    spells_number hsame (Nat.mod_eq_of_lt (numberAt_lt bytes 2 4407)) (by omega)
  have hawaiting := hx.elsewhere hsame (.inr (Nat.le_refl 4411))
  cases x with
  | none => exact ⟨hv, hi, hstack, hpc, hcounters, hram, hscreen, hkeypad, hr, hawaiting⟩
  | some x => exact ⟨hv, hi, hstack, hpc, hcounters, hram, hscreen, hkeypad, hr, hawaiting⟩

end

theorem spells_canonical {bytes : List UInt8} (hlen : bytes.length = 4412) {r : Option Key}
    (hr : readReleased bytes.toArray = .ok r) :
    Spells (canonical bytes).toArray 4409 (releasedBytes r) := by
  rcases readReleased_flag hr with ⟨hflag, rfl⟩ | ⟨hflag, k, rfl, hk⟩
  · have hform : canonical bytes = bytes.set 4410 0 := if_pos hflag
    rw [hform, releasedBytes, spells_cons, spells_cons, byteAt_set_ne bytes (by omega)]
    exact ⟨hflag, byteAt_set_self (by omega) 0, spells_nil _ _⟩
  · have hform : canonical bytes = bytes.set 4409 1 := if_neg hflag
    have hkey : byteAt (bytes.set 4409 1).toArray 4410 = .ofNat k.val := by
      rw [byteAt_set_ne bytes (by omega), ← hk, UInt8.ofNat_toNat]
    rw [hform, releasedBytes, spells_cons, spells_cons]
    exact ⟨byteAt_set_self (by omega) 1, hkey, spells_nil _ _⟩

theorem image_decoded {bytes : List UInt8} {s : State} (h : decode bytes = .ok s) :
    s.image = canonical bytes := by
  obtain ⟨hok, r, x, hr, hx, rfl⟩ := decodeArray_ok_iff.mp h
  have hlen : bytes.length = 4412 := hok.size
  have hlaid := laid_decoded (fun k => byteAt_canonical bytes) (spells_canonical hlen hr)
    (spells_readAwaiting hx)
  refine ((spells_image.mpr hlaid).toList ?_).symm
  rw [length_image]
  exact (length_canonical bytes).trans hlen

/-! ## acceptance -/

/-- what is read, what is refused and why; a state that was read is written as the canonical form of
its bytes, through a machine as well, and bytes that are read as the same state differ in the
pending key at most -/
theorem decode_accepts (bytes : List UInt8) (dice : Dice) (tracing : Bool) :
    ((∃ s, decode bytes = .ok s) ↔ Acceptable bytes.toArray) ∧
    (∀ e, decode bytes = .error e ↔ Refused bytes.toArray e) ∧
    (∀ e, Machine.restore bytes dice tracing = .error e ↔ Refused bytes.toArray e) ∧
    ∀ s, decode bytes = .ok s →
      s.encode = .ok (canonical bytes) ∧
      (∃ m, Machine.restore bytes dice tracing = .ok m ∧ m.snapshot = .ok (canonical bytes)) ∧
      decode (canonical bytes) = .ok s ∧
      canonical (canonical bytes) = canonical bytes ∧
      ∀ other, decode other = .ok s →
        ∀ k, k ≠ 4409 → k ≠ 4410 → byteAt other.toArray k = byteAt bytes.toArray k := by
  refine ⟨⟨?_, ?_⟩, fun e => decodeArray_error_iff, fun e => ?_, fun s hs => ?_⟩
  · rintro ⟨s, hs⟩
    exact (decodeArray_ok_iff.mp hs).1
  · intro hok
    obtain ⟨r, x, -, -, hd⟩ := hok.decodeArray
    exact ⟨_, hd⟩
  · rw [Machine.restore_error_iff]
    exact decodeArray_error_iff
  · have hw := decode_wellFormed hs
    have himage := image_decoded hs
    have hsave : s.encode = .ok (canonical bytes) := by rw [encode_wellFormed hw, himage]
    have hlen : bytes.length = 4412 := (decodeArray_ok_iff.mp hs).1.size
    refine ⟨hsave, ⟨_, Machine.restore_of_decode hs dice tracing, hsave⟩, ?_,
      canonical_canonical hlen, fun other ho k hflag hkey => ?_⟩
    · rw [← himage]
      exact decode_image hw
    · have hk : k < 4409 ∨ 4411 ≤ k := by omega
      rw [← byteAt_canonical other hk, ← byteAt_canonical bytes hk, ← himage, image_decoded ho]

end State

end ChipEight
