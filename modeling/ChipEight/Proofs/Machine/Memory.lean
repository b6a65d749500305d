import ChipEight.Machine.Ram

/-!
# Runs of memory

What can be said of a run of bytes whatever its place is: a read that met no fault has all its
bytes, and the only fault that a run can meet is an address outside memory.

* `length_readRun`    a whole run has as many bytes as were asked for;
* `readRun_fault`, `putRun_fault`   a run breaks off at an address outside memory only;
* `Ram.overrun a n`   the fault that `n` accesses from address `a` on meet, if they meet one;
* `getElem?_readRun`, `snd_readRun` what a run reads, whole or not, and the fault it meets;
* `putRun_eq`         what a run writes, and the fault it meets.
-/

namespace ChipEight.Ram

theorem length_readRun {r : Ram} {n a : Nat} (h : (r.readRun a n).2 = none) :
    (r.readRun a n).1.length = n := by
  induction n generalizing a with
  | zero => rfl
  | succ n ih =>
    by_cases ha : a < 4096
    · rw [readRun_succ r ha] at h ⊢
      rw [List.length_cons, ih h]
    · rw [readRun_outside r ha] at h
      cases h

theorem readRun_fault {r : Ram} {n a : Nat} {f : Fault} (h : (r.readRun a n).2 = some f) :
    ∃ c, f = .outOfBounds c := by
  induction n generalizing a with
  | zero => cases h
  | succ n ih =>
    by_cases ha : a < 4096
    · rw [readRun_succ r ha] at h
      exact ih h
    · rw [readRun_outside r ha] at h
      cases h
      exact ⟨_, rfl⟩

theorem putRun_fault {bytes : List UInt8} {r : Ram} {a : Nat} {f : Fault}
    (h : (r.putRun a bytes).2 = some f) : ∃ c, f = .outOfBounds c := by
  induction bytes generalizing r a with
  | nil => cases h
  | cons b bytes ih =>
    by_cases ha : a < 4096
    · rw [putRun_cons r ha] at h
      exact ih h
    · rw [putRun_outside r ha] at h
      cases h
      exact ⟨_, rfl⟩

/-! ## runs that leave memory -/

/-- the first address that lies outside is the one past the end, or the start if that is later -/
def overrun (a n : Nat) : Option Fault :=
  if 1 ≤ n ∧ 4096 < a + n then some (.outOfBounds (max a 4096 : Nat)) else none

theorem overrun_zero (a : Nat) : overrun a 0 = none := rfl

theorem overrun_succ {a : Nat} (h : a < 4096) (n : Nat) :
    overrun a (n + 1) = overrun (a + 1) n := by
  have hmax : max a 4096 = max (a + 1) 4096 := by omega
  have hiff : (1 ≤ n + 1 ∧ 4096 < a + (n + 1)) ↔ (1 ≤ n ∧ 4096 < a + 1 + n) := by omega
  simp only [overrun, hmax, hiff]

theorem overrun_outside {a : Nat} (h : ¬a < 4096) (n : Nat) :
    overrun a (n + 1) = some (.outOfBounds a) := by
  have hmax : max a 4096 = a := by omega
  rw [overrun, if_pos (by omega), hmax]

theorem overrun_eq_some {a n : Nat} {f : Fault} :
    overrun a n = some f ↔ (1 ≤ n ∧ 4096 < a + n) ∧ f = .outOfBounds (max a 4096 : Nat) := by
  unfold overrun
  split
  · rename_i h
    exact ⟨fun hf => ⟨h, (Option.some.inj hf).symm⟩, fun hf => congrArg some hf.2.symm⟩
  · rename_i h
    exact ⟨nofun, fun hf => absurd hf.1 h⟩

theorem overrun_eq_none {a n : Nat} : overrun a n = none ↔ n = 0 ∨ a + n ≤ 4096 := by
  unfold overrun
  split
  · rename_i h
    exact ⟨nofun, fun hf => by omega⟩
  · rename_i h
    exact ⟨fun _ => by omega, fun _ => rfl⟩

theorem snd_readRun (r : Ram) (a n : Nat) : (r.readRun a n).2 = overrun a n := by
  induction n generalizing a with
  | zero => rfl
  | succ n ih =>
    by_cases ha : a < 4096
    · rw [readRun_succ r ha, overrun_succ ha]
      exact ih (a + 1)
    · rw [readRun_outside r ha, overrun_outside ha]

/-- the bytes that were read are those at their addresses, as far as these lie in memory -/
theorem getElem?_readRun (r : Ram) (a n k : Nat) :
    (r.readRun a n).1[k]? = if k < n then r[a + k]? else none := by
  induction n generalizing a k with
  | zero => rfl
  | succ n ih =>
    by_cases ha : a < 4096
    · rw [readRun_succ r ha]
      cases k with
      | zero =>
        rw [if_pos (Nat.succ_pos n)]
        exact (Vector.getElem?_eq_getElem ha).symm
      | succ k =>
        have hplace : a + 1 + k = a + (k + 1) := by omega
        rw [List.getElem?_cons_succ, ih, hplace]
        simp only [Nat.succ_lt_succ_iff]
    · have hnone : r[a + k]? = none := Vector.getElem?_eq_none (by omega)
      rw [readRun_outside r ha, hnone, ite_self]
      rfl

theorem overlay_nil (r : Ram) (a : Nat) : r.overlay a #[] = r := by
  refine Vector.ext fun k hk => ?_
  have hget := get_overlay r a #[] ⟨k, hk⟩
  rw [Array.getElem?_empty, Option.getD_none, ite_self] at hget
  exact hget

theorem overlay_cons (r : Ram) {a : Nat} (h : a < 4096) (b : UInt8) (bs : List UInt8) :
    r.overlay a (b :: bs).toArray = Ram.overlay (r.set a b) (a + 1) bs.toArray := by
  refine Vector.ext fun k hk => ?_
  have hwhole := get_overlay r a (b :: bs).toArray ⟨k, hk⟩
  have hrest := get_overlay (r.set a b) (a + 1) bs.toArray ⟨k, hk⟩
  refine hwhole.trans (Eq.trans ?_ hrest.symm)
  show _ = if a + 1 ≤ k then (bs.toArray[k - (a + 1)]?).getD ((r.set a b)[k]) else (r.set a b)[k]
  show (if a ≤ k then ((b :: bs).toArray[k - a]?).getD (r[k]) else r[k]) = _
  rw [Vector.getElem_set, List.getElem?_toArray, List.getElem?_toArray]
  rcases Nat.lt_trichotomy k a with hlt | rfl | hgt
  · rw [if_neg (by omega), if_neg (by omega), if_neg (by omega)]
  · rw [if_pos (Nat.le_refl k), if_neg (by omega), if_pos rfl, Nat.sub_self]
    rfl
  · have hplace : k - a = k - (a + 1) + 1 := by omega
    rw [if_pos (by omega), if_pos (by omega), if_neg (by omega), hplace, List.getElem?_cons_succ]

theorem overlay_outside (r : Ram) {a : Nat} (h : ¬a < 4096) (bytes : Array UInt8) :
    r.overlay a bytes = r := by
  refine Vector.ext fun k hk => ?_
  have hget := get_overlay r a bytes ⟨k, hk⟩
  rw [if_neg (by dsimp only; omega)] at hget
  exact hget

/-- a run is laid over memory as far as there is memory, whether it meets a fault or not -/
theorem putRun_eq (r : Ram) (a : Nat) (bytes : List UInt8) :
    r.putRun a bytes = (r.overlay a bytes.toArray, overrun a bytes.length) := by
  induction bytes generalizing r a with
  | nil => rw [putRun_nil, overlay_nil, List.length_nil, overrun_zero]
  | cons b bytes ih =>
    by_cases ha : a < 4096
    · rw [putRun_cons r ha, ih, overlay_cons r ha, List.length_cons, overrun_succ ha]
    · rw [putRun_outside r ha, overlay_outside r ha, List.length_cons, overrun_outside ha]

end ChipEight.Ram
