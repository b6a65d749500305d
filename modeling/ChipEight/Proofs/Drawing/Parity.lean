import ChipEight.Proofs.Drawing.Blit

/-!
# Drawing many sprites

Each sprite is a pattern that depends on memory alone, and drawing it changes no memory.  So all
that counts for a pixel is how many of the patterns have it, and of that only the parity.

* `Draw`            a sprite in memory, and the registers and the index set for it;
* `Draw.perform d s` the registers and the index are set, and the sprite is drawn;
* `State.drawn s ds` one sprite after the other;
* `pixel_drawn`     a pixel is flipped by an odd number of sprites that have it;
* `Draw.flags_iff`  of a sprite drawn twice, one drawing turns a pixel off if there is one to draw;
* `State.draws_commute` so the order does not count, and all sprites drawn twice leave the screen as
                    it was.
-/

namespace ChipEight

structure Draw where
  v : Registers
  i : UInt16
  x : Register
  y : Register
  n : Fin 16
  fits : n.val = 0 ∨ i.toNat + n ≤ 4096

namespace Draw

def pattern (d : Draw) (r : Ram) : Pattern :=
  .sprite ((d.v.get d.x).toNat % 64) ((d.v.get d.y).toNat % 32) d.n fun k =>
    r[d.i.toNat + k]?.getD 0

def perform (d : Draw) (s : State) : Outcome := { s with v := d.v, i := d.i }.doDraw d.x d.y d.n

/-- a sprite in memory is drawn without a fault, whatever is on the screen -/
theorem perform_xored (d : Draw) (s : State) :
    ∃ e, d.perform s = ⟨State.withDrawing { s with v := d.v, i := d.i } e, .ok true⟩ ∧
      Drawing.Xored ⟨s.screen, false⟩ (d.pattern s.ram) e :=
  State.doDraw_xored (s := { s with v := d.v, i := d.i }) d.fits d.x d.y

theorem result_perform (d : Draw) (s : State) : (d.perform s).result = .ok true := by
  obtain ⟨e, he, -⟩ := d.perform_xored s
  rw [he]

theorem ram_perform (d : Draw) (s : State) : (d.perform s).state.ram = s.ram := by
  obtain ⟨e, he, -⟩ := d.perform_xored s
  rw [he]
  rfl

theorem pixel_perform (d : Draw) (s : State) (cx : Fin 64) (cy : Fin 32) :
    (d.perform s).state.screen.pixel cx cy =
      (s.screen.pixel cx cy ^^ d.pattern s.ram cx cy) := by
  obtain ⟨e, he, hxored⟩ := d.perform_xored s
  rw [he]
  exact hxored.pixel cx cy

theorem flag_perform (d : Draw) (s : State) :
    (d.perform s).state.v.get State.flag = 1 ↔
      ∃ cx cy, s.screen.pixel cx cy = true ∧ d.pattern s.ram cx cy = true := by
  obtain ⟨e, he, hxored⟩ := d.perform_xored s
  have hhit := hxored.hit
  rw [he, State.withDrawing, State.get_withV, if_pos rfl]
  cases h : e.hit with
  | true => simpa [h] using hhit
  | false => simpa [h] using hhit

theorem flags_iff (d : Draw) (s : State) :
    ((d.perform s).state.v.get State.flag = 1 ∨
      (d.perform (d.perform s).state).state.v.get State.flag = 1) ↔
      ∃ cx cy, d.pattern s.ram cx cy = true := by
  rw [flag_perform, flag_perform, ram_perform]
  constructor
  · rintro (⟨cx, cy, -, hp⟩ | ⟨cx, cy, -, hp⟩)
    · exact ⟨cx, cy, hp⟩
    · exact ⟨cx, cy, hp⟩
  · rintro ⟨cx, cy, hp⟩
    cases hold : s.screen.pixel cx cy with
    | true => exact .inl ⟨cx, cy, hold, hp⟩
    | false =>
      refine .inr ⟨cx, cy, ?_, hp⟩
      rw [pixel_perform, hold, hp]
      rfl

end Draw

theorem Screen.ext_pixel {s t : Screen} (h : ∀ x y, s.pixel x y = t.pixel x y) : s = t := by
  apply Vector.ext
  intro y hy
  apply BitVec.eq_of_getMsbD_eq
  intro x hx
  exact h ⟨x, hx⟩ ⟨y, hy⟩

namespace State

def drawn (s : State) (ds : List Draw) : State := ds.foldl (fun s d => (d.perform s).state) s

theorem drawn_nil (s : State) : s.drawn [] = s := rfl
theorem drawn_cons (s : State) (d : Draw) (ds : List Draw) :
    s.drawn (d :: ds) = (d.perform s).state.drawn ds := rfl
theorem drawn_append (s : State) (ds es : List Draw) :
    s.drawn (ds ++ es) = (s.drawn ds).drawn es := List.foldl_append

theorem pixel_drawn (s : State) (ds : List Draw) (cx : Fin 64) (cy : Fin 32) :
    (s.drawn ds).screen.pixel cx cy =
      (s.screen.pixel cx cy ^^ decide (ds.countP (fun d => d.pattern s.ram cx cy) % 2 = 1)) := by
  induction ds generalizing s with
  | nil => simp [drawn_nil]
  | cons d ds ih =>
    rw [drawn_cons, ih, Draw.ram_perform, Draw.pixel_perform, List.countP_cons]
    cases d.pattern s.ram cx cy with
    | false => simp
    | true =>
      have hparity : ∀ k : Nat, decide ((k + 1) % 2 = 1) = !decide (k % 2 = 1) := by
        intro k
        rw [← decide_not, decide_eq_decide]
        omega
      simp only [if_true, hparity, Bool.xor_true, Bool.not_xor, Bool.xor_not]

/-- the screen after any sprites in any order: each pixel is flipped if an odd number of them have
it, so that the order does not count and all of them twice change nothing; no drawing fails, and of
a sprite drawn twice one drawing sets the flag exactly if the sprite has a pixel on the screen -/
theorem draws_commute (s : State) (ds : List Draw) :
    (∀ es, ds.Perm es → (s.drawn es).screen = (s.drawn ds).screen) ∧
    ((s.drawn ds).drawn ds).screen = s.screen ∧
    (∀ cx cy, (s.drawn ds).screen.pixel cx cy ≠ s.screen.pixel cx cy ↔
      ds.countP (fun d => d.pattern s.ram cx cy) % 2 = 1) ∧
    ∀ d : Draw,
      (d.perform s).result = .ok true ∧
      (((d.perform s).state.v.get flag = 1 ∨
        (d.perform (d.perform s).state).state.v.get flag = 1) ↔
          ∃ cx cy, d.pattern s.ram cx cy = true) := by
  refine ⟨?_, ?_, ?_, fun d => ⟨d.result_perform s, d.flags_iff s⟩⟩
  · intro es hperm
    apply Screen.ext_pixel
    intro cx cy
    rw [pixel_drawn, pixel_drawn, hperm.countP_eq]
  · rw [← drawn_append]
    apply Screen.ext_pixel
    intro cx cy
    have heven : ¬(ds ++ ds).countP (fun d => d.pattern s.ram cx cy) % 2 = 1 := by
      rw [List.countP_append]
      omega
    rw [pixel_drawn, decide_eq_false heven, Bool.xor_false]
  · intro cx cy
    rw [pixel_drawn]
    by_cases hodd : ds.countP (fun d => d.pattern s.ram cx cy) % 2 = 1
    · simp [hodd]
    · simp [hodd]

def withBar : State := { fresh with ram := Ram.bar }

def bar (column : UInt8) : Draw :=
  ⟨(fresh.withV first column).v, 0x300, first, flag, ⟨1, by decide⟩, .inr (by decide)⟩

/-- the bar in the corner, cut off after two pixels -/
def cutBar : Draw := bar 62

/-- the whole bar, which ends on the first of them -/
def wholeBar : Draw := bar 55

/-- the two bars in either order, and the cut one twice -/
theorem draws_commute_bars :
    [cutBar, wholeBar].Perm [wholeBar, cutBar] ∧
      (withBar.drawn [wholeBar, cutBar]).screen = (withBar.drawn [cutBar, wholeBar]).screen ∧
      ((cutBar.perform withBar).state.v.get flag = 1 ∨
        (cutBar.perform (cutBar.perform withBar).state).state.v.get flag = 1) := by
  obtain ⟨hperm, -, -, hflags⟩ := draws_commute withBar [cutBar, wholeBar]
  have hswap : [cutBar, wholeBar].Perm [wholeBar, cutBar] := .swap wholeBar cutBar []
  have hinked : cutBar.pattern withBar.ram 62 0 = true := by decide +kernel
  exact ⟨hswap, hperm _ hswap, (hflags cutBar).2.mpr ⟨62, 0, hinked⟩⟩

end State

end ChipEight
