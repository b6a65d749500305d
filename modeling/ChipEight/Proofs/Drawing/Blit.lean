import ChipEight.Proofs.Drawing.Patterns
import ChipEight.Proofs.Machine.Due

/-!
# What a drawing instruction does

The coordinates are those that the two registers have before the instruction, taken modulo the size
of the screen; from there the sprite at the index is xored over the screen, as far as the right and
the lower edge.

* `Covers`              the pixels between the place of a sprite and the edges that it can reach;
* `State.sprite s x y n` the pattern of the sprite at the index, at the place that two registers
                        give;
* `doDraw_xored`        it is drawn if it lies in memory;
* `Machine.tick_draws`  the whole tick, pixel by pixel: the flag, and all that stays as it was.

The flag register may be one of the coordinates: it is read before it is written.
-/

namespace ChipEight

/-- the pixels of `n` rows of eight from column `left` of row `top` on, up to the edges -/
def Covers (left top n : Nat) (cx : Fin 64) (cy : Fin 32) : Prop :=
  left ≤ cx ∧ cx < min (left + 8) 64 ∧ top ≤ cy ∧ cy < min (top + n) 32

theorem covers_iff {left top n : Nat} {cx : Fin 64} {cy : Fin 32} :
    Covers left top n cx cy ↔ left ≤ cx ∧ cx < left + 8 ∧ top ≤ cy ∧ cy < top + n := by
  unfold Covers
  omega

theorem Pattern.sprite_of_covers {left top n : Nat} {cx : Fin 64} {cy : Fin 32}
    (h : Covers left top n cx cy) (byte : Nat → UInt8) :
    Pattern.sprite left top n byte cx cy =
      (byte (cy - top)).toNat.testBit (7 - (cx - left)) := by
  rw [sprite, decide_eq_true (covers_iff.mp h), Bool.true_and]

theorem Pattern.sprite_of_not_covers {left top n : Nat} {cx : Fin 64} {cy : Fin 32}
    (h : ¬Covers left top n cx cy) (byte : Nat → UInt8) :
    Pattern.sprite left top n byte cx cy = false := by
  rw [sprite, decide_eq_false (fun hc => h (covers_iff.mpr hc)), Bool.false_and]

namespace State

def sprite (s : State) (x y : Register) (n : Nat) : Pattern :=
  .sprite ((s.v.get x).toNat % 64) ((s.v.get y).toNat % 32) n fun k =>
    s.ram[s.i.toNat + k]?.getD 0

theorem doDraw_xored {s : State} {n : Nat} (h : n = 0 ∨ s.i.toNat + n ≤ 4096) (x y : Register) :
    ∃ d, s.doDraw x y n = ⟨s.withDrawing d, .ok true⟩ ∧
      Drawing.Xored ⟨s.screen, false⟩ (s.sprite x y n) d := by
  have hnone : (s.ram.readRun s.i.toNat n).2 = none := by
    rw [Ram.snd_readRun, Ram.overrun_eq_none.mpr h]
  have hlen := Ram.length_readRun hnone
  have hread : s.ram.readRun s.i.toNat n = ((s.ram.readRun s.i.toNat n).1, none) := by
    rw [← hnone]
  obtain ⟨d, hd, hxored⟩ := Drawing.rows_xored ⟨s.screen, false⟩ ((s.v.get x).toNat % 64)
    ((s.v.get y).toNat % 32) (s.ram.readRun s.i.toNat n).1
  rw [hlen] at hd hxored
  refine ⟨d, by rw [doDraw, hread]; simp only [hd], hxored.congr ?_⟩
  intro cx cy
  by_cases hc : Covers ((s.v.get x).toNat % 64) ((s.v.get y).toNat % 32) n cx cy
  · have hrow : cy - (s.v.get y).toNat % 32 < n := by
      obtain ⟨-, -, htop, hn⟩ := covers_iff.mp hc
      omega
    rw [sprite, Pattern.sprite_of_covers hc, Pattern.sprite_of_covers hc, Ram.getElem?_readRun,
      if_pos hrow]
  · rw [sprite, Pattern.sprite_of_not_covers hc, Pattern.sprite_of_not_covers hc]

end State

def Ram.bar : Ram := zeros.set 0x300 0xFF

namespace Machine

/-- a tick that draws: the sprite is xored over the screen, pixel by pixel, and nothing wraps round
an edge; the flag tells whether a pixel went off; and all else stays as it was -/
theorem tick_draws {m : Machine} {x y : Register} {n : Fin 16}
    (hdue : m.due = some (.draw x y n)) (hfits : n.val = 0 ∨ m.state.i.toNat + n ≤ 4096) :
    let left := (m.state.v.get x).toNat % 64
    let top := (m.state.v.get y).toNat % 32
    ∃ screen v,
      m.tick.result = .ok true ∧
      m.tick.machine =
        { m with
          state := { m.state with pc := m.state.pc + 2, released := none, screen, v }
          trace := m.traced } ∧
      (∀ cx cy, Covers left top n cx cy →
        ∃ b, m.state.ram[m.state.i.toNat + (cy - top)]? = some b ∧
          screen.pixel cx cy =
            (m.state.screen.pixel cx cy ^^ b.toNat.testBit (7 - (cx - left)))) ∧
      (∀ cx cy, ¬Covers left top n cx cy → screen.pixel cx cy = m.state.screen.pixel cx cy) ∧
      ((∃ cx cy, m.state.screen.pixel cx cy = true ∧ screen.pixel cx cy = false) →
        v.get State.flag = 1) ∧
      (¬(∃ cx cy, m.state.screen.pixel cx cy = true ∧ screen.pixel cx cy = false) →
        v.get State.flag = 0) ∧
      ∀ z, z ≠ State.flag → v.get z = m.state.v.get z := by
  intro left top
  obtain ⟨hresult, hmachine⟩ := tick_due hdue
  obtain ⟨d, hdraw, hxored⟩ := State.doDraw_xored (s := m.state.entered) hfits x y
  have hexec : m.state.entered.exec (.draw x y n) m.dice.next =
      ⟨m.state.entered.withDrawing d, .ok true⟩ := hdraw
  rw [hexec] at hresult hmachine
  have hpixel : ∀ cx cy, d.screen.pixel cx cy = (m.state.screen.pixel cx cy ^^
      Pattern.sprite left top n (fun k => m.state.ram[m.state.i.toNat + k]?.getD 0) cx cy) :=
    hxored.pixel
  have hoff : d.hit = true ↔
      ∃ cx cy, m.state.screen.pixel cx cy = true ∧ d.screen.pixel cx cy = false :=
    hxored.hit_iff_off rfl
  refine ⟨d.screen, (m.state.entered.withDrawing d).v, hresult, hmachine, ?_, ?_, ?_, ?_, ?_⟩
  · intro cx cy hc
    have hin : m.state.i.toNat + (cy - top) < 4096 := by
      obtain ⟨-, -, htop, hn⟩ := covers_iff.mp hc
      omega
    refine ⟨_, Vector.getElem?_eq_getElem hin, ?_⟩
    rw [hpixel, Pattern.sprite_of_covers hc, Vector.getElem?_eq_getElem hin, Option.getD_some]
  · intro cx cy hc
    rw [hpixel, Pattern.sprite_of_not_covers hc, Bool.xor_false]
  · intro h
    rw [State.withDrawing, State.get_withV, if_pos rfl, if_pos (hoff.mpr h)]
  · intro h
    rw [State.withDrawing, State.get_withV, if_pos rfl, if_neg (fun hhit => h (hoff.mp hhit))]
  · intro z hz
    rw [State.withDrawing, State.get_withV, if_neg hz]
    rfl

/-- about to draw from column 60 and row 30 on, where a pixel is on already; the column stands in the
flag register -/
def cornered : Machine :=
  .ofState
    { (State.fresh.withV State.first 30).withV State.flag 60 with
      i := 0x300
      ram := (Ram.bar.set programStart 0xDF programStart_lt).set (programStart + 1) 0x05
        programStart_succ_lt
      screen := Screen.blank.xorRow 30 (Screen.single 60) }
    (.cycle #[]) false

/-- of the first row four pixels are drawn, one of which goes off; nothing comes in at the left -/
theorem tick_draws_cornered :
    cornered.due = some (.draw 15 0 5) ∧ cornered.state.i.toNat + 5 ≤ 4096 ∧
      cornered.tick.result = .ok true ∧
      cornered.tick.machine.state.screen.pixel 60 30 = false ∧
      cornered.tick.machine.state.screen.pixel 63 30 = true ∧
      cornered.tick.machine.state.screen.pixel 0 30 = false ∧
      cornered.tick.machine.state.v.get State.flag = 1 := by
  have hdue : cornered.due = some (.draw 15 0 5) := by decide +kernel
  have hfits : cornered.state.i.toNat + 5 ≤ 4096 := by decide
  obtain ⟨screen, v, hresult, hmachine, hin, hout, hoff, -, -⟩ := tick_draws hdue (.inr hfits)
  have hbyte : cornered.state.ram[cornered.state.i.toNat + (30 - 30)]? = some 0xFF := by
    decide +kernel
  have hlit : cornered.state.screen.pixel 60 30 = true := by decide +kernel
  have hdrawn : ∀ cx, Covers 60 30 5 cx 30 →
      screen.pixel cx 30 =
        (cornered.state.screen.pixel cx 30 ^^ (0xFF : UInt8).toNat.testBit (7 - (cx - 60))) := by
    intro cx hc
    obtain ⟨b, hb, hpixel⟩ := hin cx 30 hc
    have hbits : some b = some 0xFF := hb.symm.trans hbyte
    cases hbits
    exact hpixel
  have hgone : screen.pixel 60 30 = false := by
    rw [hdrawn 60 (by unfold Covers; decide), hlit]
    decide
  have hright : screen.pixel 63 30 = true := by
    rw [hdrawn 63 (by unfold Covers; decide)]
    decide +kernel
  have hleft : screen.pixel 0 30 = false := by
    rw [hout 0 30 (fun hc => absurd hc.1 (by decide +kernel))]
    decide +kernel
  rw [hmachine]
  exact ⟨hdue, hfits, hresult, hgone, hright, hleft, hoff ⟨60, 30, hlit, hgone⟩⟩

end Machine

end ChipEight
