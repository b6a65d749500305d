import Mathlib.Data.List.TakeWhile
import ChipEight.Keyboard.Names

/-!
# The grammar of key names

A name of a key of the keypad is a hexadecimal digit of either case, alone or after a `K` of either
case, with blanks around it. Names are compared in upper case, and upper case may make several
letters of one character and a plain letter of a strange one; but

* `Text.capital_eq_iff`         a plain digit or letter of a name is the capital of itself and of its
  lower case only;
* `Text.capital_ne_prefixed`    no single character becomes a `K` with a digit;
* `Keyboard.ofName_exact`       so the names that are accepted are those of the grammar.
-/

namespace ChipEight

theorem Hex.toNat_digit (k : Fin 16) :
    (digit k).toNat = if k.val < 10 then 48 + k.val else 55 + k.val := by
  revert k; decide

namespace Text

/-! ## blanks around a name -/

theorem stripList_between (cs : List Char) :
    ∃ before after, cs = before ++ stripList cs ++ after ∧
      ∀ c ∈ before ++ after, isBlank c = true := by
  refine ⟨cs.takeWhile isBlank, ((cs.dropWhile isBlank).reverse.takeWhile isBlank).reverse, ?_, ?_⟩
  · have hrest : stripList cs ++ ((cs.dropWhile isBlank).reverse.takeWhile isBlank).reverse =
        cs.dropWhile isBlank := by
      rw [stripList, ← List.reverse_append, List.takeWhile_append_dropWhile, List.reverse_reverse]
    rw [List.append_assoc, hrest, List.takeWhile_append_dropWhile]
  · intro c hc
    rcases List.mem_append.1 hc with hc | hc
    · exact List.mem_takeWhile_imp hc
    · exact List.mem_takeWhile_imp (List.mem_reverse.1 hc)

theorem dropWhile_blanks {blanks rest : List Char} (hblanks : ∀ c ∈ blanks, isBlank c = true)
    (hrest : ∀ c ∈ rest.head?, isBlank c = false) : (blanks ++ rest).dropWhile isBlank = rest := by
  rw [List.dropWhile_append_of_pos hblanks]
  cases rest with
  | nil => rfl
  | cons c rest => exact List.dropWhile_cons_of_neg (by simp [hrest c rfl])

theorem stripList_blanks {before name after : List Char}
    (hblanks : ∀ c ∈ before ++ after, isBlank c = true) (hne : name ≠ [])
    (hname : ∀ c ∈ name, isBlank c = false) : stripList (before ++ name ++ after) = name := by
  obtain ⟨hbefore, hafter⟩ := List.forall_mem_append.1 hblanks
  have hfront : (before ++ (name ++ after)).dropWhile isBlank = name ++ after := by
    refine dropWhile_blanks hbefore fun c hc => hname c ?_
    obtain ⟨first, others, rfl⟩ := List.exists_cons_of_ne_nil hne
    obtain rfl : first = c := Option.some.inj hc
    exact List.mem_cons_self
  have hback : (after.reverse ++ name.reverse).dropWhile isBlank = name.reverse :=
    dropWhile_blanks (fun c hc => hafter c (List.mem_reverse.1 hc))
      fun c hc => hname c (List.mem_reverse.1 (List.mem_of_mem_head? hc))
  rw [stripList, List.append_assoc, hfront, List.reverse_append, hback, List.reverse_reverse]

/-! ## capitals -/

/-- the capitals that names are made of: the digits, `A` to `F`, and `K` -/
def plainCodes : List Nat :=
  [48, 49, 50, 51, 52, 53, 54, 55, 56, 57, 65, 66, 67, 68, 69, 70, 75]

theorem digit_mem_plainCodes (k : Fin 16) : (Hex.digit k).toNat ∈ plainCodes := by
  revert k; decide

/-- of all ranges of the table, only that of the plain letters leads to a plain capital -/
theorem shift_of_plain : ∀ n ∈ plainCodes, ∀ r ∈ capitalRanges,
    r.holds ((n : Int) - r.shift).toNat = true → 65 ≤ n ∧ r.shift = -32 := by
  decide +kernel

theorem capital_of_plain : ∀ n ∈ plainCodes, capital (Char.ofNat n) = [Char.ofNat n] ∧
    (65 ≤ n → capital (Char.ofNat (n + 32)) = [Char.ofNat n]) := by
  decide +kernel

theorem run_shape : ∀ p ∈ capitalRuns,
    2 ≤ p.2.length ∧ (p.2.map Char.ofNat).head? ≠ some 'K' := by
  decide +kernel

theorem capital_cases (c : Char) :
    (2 ≤ (capital c).length ∧ (capital c).head? ≠ some 'K') ∨ capital c = [shifted c] := by
  unfold capital
  split
  case h_1 run hrun =>
    obtain ⟨front, back, htable, -⟩ := List.lookup_eq_some_iff.1 hrun
    obtain ⟨hlength, hhead⟩ := run_shape (c.toNat, run) (by simp [htable])
    exact .inl ⟨by rwa [List.length_map], hhead⟩
  case h_2 => exact .inr rfl

theorem capital_ne_nil (c : Char) : capital c ≠ [] := by
  rcases capital_cases c with ⟨hlength, -⟩ | h
  · intro hnil
    simp [hnil] at hlength
  · simp [h]

theorem capital_ne_prefixed (c t : Char) : capital c ≠ ['K', t] := by
  intro hc
  rcases capital_cases c with ⟨-, hhead⟩ | h
  · exact hhead (by rw [hc, List.head?_cons])
  · simp [h] at hc

theorem toNat_ofNat (n : Nat) : (Char.ofNat n).toNat = n ∨ (Char.ofNat n).toNat = 0 := by
  rw [Char.ofNat]
  by_cases h : n.isValidChar
  · rw [dif_pos h]
    exact .inl rfl
  · rw [dif_neg h]
    exact .inr rfl

theorem shifted_eq {c t : Char} (ht : t.toNat ∈ plainCodes) (h : shifted c = t) :
    c = t ∨ (65 ≤ t.toNat ∧ c.toNat = t.toNat + 32) := by
  unfold shifted at h
  split at h
  case h_1 r hfind =>
    have hpos : ∀ n ∈ plainCodes, 0 < n := by decide
    have hnat := hpos _ ht
    have htarget : (c.toNat + r.shift).toNat = t.toNat := by
      rcases toNat_ofNat (c.toNat + r.shift).toNat with hcode | hcode
      · rw [← hcode, h]
      · rw [h] at hcode
        omega
    have hholds : r.holds c.toNat = true := by simpa using List.find?_some hfind
    have hback : ((t.toNat : Int) - r.shift).toNat = c.toNat := by omega
    obtain ⟨hletter, hshift⟩ :=
      shift_of_plain _ ht r (List.mem_of_find?_eq_some hfind) (by rwa [hback])
    exact .inr ⟨hletter, by omega⟩
  case h_2 => exact .inl h

theorem capital_eq_iff {c t : Char} (ht : t.toNat ∈ plainCodes) :
    capital c = [t] ↔ c = t ∨ (65 ≤ t.toNat ∧ c.toNat = t.toNat + 32) := by
  constructor
  · intro hc
    rcases capital_cases c with ⟨hlength, -⟩ | h
    · simp [hc] at hlength
    · exact shifted_eq ht (by simpa [h] using hc)
  · obtain ⟨hsame, hlower⟩ := capital_of_plain _ ht
    rw [Char.ofNat_toNat] at hsame hlower
    rintro (rfl | ⟨hletter, hc⟩)
    · exact hsame
    · rw [← Char.ofNat_toNat c, hc]
      exact hlower hletter

theorem upperList_eq_nil_iff {cs : List Char} : upperList cs = [] ↔ cs = [] := by
  constructor
  · intro h
    cases cs with
    | nil => rfl
    | cons c cs => exact absurd (List.append_eq_nil_iff.1 h).1 (capital_ne_nil c)
  · rintro rfl
    rfl

theorem upperList_eq_single_iff {cs : List Char} {t : Char} :
    upperList cs = [t] ↔ ∃ c, cs = [c] ∧ capital c = [t] := by
  constructor
  · intro h
    cases cs with
    | nil => cases h
    | cons c cs =>
      rcases List.append_eq_singleton_iff.1 h with ⟨hnil, -⟩ | ⟨hc, hrest⟩
      · exact absurd hnil (capital_ne_nil c)
      · exact ⟨c, by rw [upperList_eq_nil_iff.1 hrest], hc⟩
  · rintro ⟨c, rfl, hc⟩
    rw [upperList_cons, hc, upperList_nil, List.append_nil]

theorem upperList_eq_prefixed_iff {cs : List Char} {t : Char} :
    upperList cs = ['K', t] ↔ ∃ k c, cs = [k, c] ∧ capital k = ['K'] ∧ capital c = [t] := by
  constructor
  · intro h
    cases cs with
    | nil => cases h
    | cons k cs =>
      rcases List.append_eq_cons_iff.1 h with ⟨hnil, -⟩ | ⟨others, hk, hothers⟩
      · exact absurd hnil (capital_ne_nil k)
      · rcases List.append_eq_singleton_iff.1 hothers.symm with ⟨rfl, hrest⟩ | ⟨rfl, -⟩
        · obtain ⟨c, rfl, hc⟩ := upperList_eq_single_iff.1 hrest
          exact ⟨k, c, rfl, hk, hc⟩
        · exact absurd hk (capital_ne_prefixed k t)
  · rintro ⟨k, c, rfl, hk, hc⟩
    rw [upperList_cons, hk, upperList_cons, hc, upperList_nil]
    rfl

end Text

namespace Keyboard

/-- `d` is the digit of the key `k`, in either case -/
def IsDigit (d : Char) (k : Key) : Prop :=
  ('0' ≤ d ∧ d ≤ '9' ∧ k.val = d.toNat - 48) ∨ ('A' ≤ d ∧ d ≤ 'F' ∧ k.val = d.toNat - 55) ∨
    ('a' ≤ d ∧ d ≤ 'f' ∧ k.val = d.toNat - 87)

instance (d : Char) (k : Key) : Decidable (IsDigit d k) := inferInstanceAs (Decidable (_ ∨ _ ∨ _))

theorem isDigit_iff {d : Char} {k : Key} : IsDigit d k ↔ Text.capital d = [Hex.digit k] := by
  have hdigit := Hex.toNat_digit k
  have hk := k.isLt
  rw [Text.capital_eq_iff (Text.digit_mem_plainCodes k), ← Char.toNat_inj]
  simp only [IsDigit, Char.le_def, UInt32.le_iff_toNat_le, Char.toNat_val, Char.reduceToNat]
  split at hdigit <;> omega

theorem letterK_iff {c : Char} : Text.capital c = ['K'] ↔ c = 'K' ∨ c = 'k' := by
  rw [Text.capital_eq_iff (by decide), ← Char.toNat_inj (d := 'k')]
  simp

theorem IsDigit.plain {d : Char} {k : Key} (h : IsDigit d k) :
    d.toNat < 128 ∧ Text.isBlank d = false := by
  simp only [IsDigit, Char.le_def, UInt32.le_iff_toNat_le, Char.toNat_val, Char.reduceToNat] at h
  refine ⟨by omega, ?_⟩
  simp only [Text.isBlank, Text.blankRuns, List.any_cons, List.any_nil, Bool.or_false,
    Bool.or_eq_false_iff, Bool.and_eq_false_iff, decide_eq_false_iff_not]
  omega

/-! ## names -/

/-- the text of a name of `k`: its digit, alone or after a `K` -/
def Spells (name : List Char) (k : Key) : Prop :=
  ∃ d, IsDigit d k ∧ (name = [d] ∨ name = ['K', d] ∨ name = ['k', d])

/-- `s` is a name of `k`: with blanks at both ends, if any, it spells `k` -/
def Names (s : String) (k : Key) : Prop :=
  ∃ before name after, s.toList = before ++ name ++ after ∧
    (∀ c ∈ before ++ after, Text.isBlank c = true) ∧ Spells name k

variable {name : List Char} {k : Key}

theorem Spells.plain (h : Spells name k) : ∀ c ∈ name, c.toNat < 128 ∧ Text.isBlank c = false := by
  obtain ⟨d, hd, rfl | rfl | rfl⟩ := h
  · exact List.forall_mem_singleton.2 hd.plain
  · exact List.forall_mem_cons.2 ⟨by decide, List.forall_mem_singleton.2 hd.plain⟩
  · exact List.forall_mem_cons.2 ⟨by decide, List.forall_mem_singleton.2 hd.plain⟩

theorem Spells.ne_nil (h : Spells name k) : name ≠ [] := by
  obtain ⟨d, -, rfl | rfl | rfl⟩ := h <;> exact List.cons_ne_nil _ _

theorem spells_iff : Spells name k ↔
    Text.upperList name = [Hex.digit k] ∨ Text.upperList name = ['K', Hex.digit k] := by
  rw [Text.upperList_eq_single_iff, Text.upperList_eq_prefixed_iff]
  constructor
  · rintro ⟨d, hd, rfl | rfl | rfl⟩
    · exact .inl ⟨d, rfl, isDigit_iff.1 hd⟩
    · exact .inr ⟨'K', d, rfl, letterK_iff.2 (.inl rfl), isDigit_iff.1 hd⟩
    · exact .inr ⟨'k', d, rfl, letterK_iff.2 (.inr rfl), isDigit_iff.1 hd⟩
  · rintro (⟨d, rfl, hd⟩ | ⟨c, d, rfl, hc, hd⟩)
    · exact ⟨d, isDigit_iff.2 hd, .inl rfl⟩
    · obtain rfl | rfl := letterK_iff.1 hc
      · exact ⟨d, isDigit_iff.2 hd, .inr (.inl rfl)⟩
      · exact ⟨d, isDigit_iff.2 hd, .inr (.inr rfl)⟩

theorem comparedName_eq_iff {cs : List Char} :
    comparedName cs = ['K', Hex.digit k] ↔ Spells (Text.stripList cs) k := by
  have hdigit : Hex.digit k ≠ 'K' := by revert k; decide
  rw [spells_iff, comparedName]
  split
  case h_1 rest hupper =>
    rw [hupper]
    constructor
    · exact .inr
    · rintro (hsingle | hprefixed)
      · exact absurd (List.cons.inj hsingle).1.symm hdigit
      · exact hprefixed
  case h_2 hother =>
    constructor
    · intro hcons
      exact .inl (List.cons.inj hcons).2
    · rintro (hsingle | hprefixed)
      · rw [hsingle]
      · exact absurd hprefixed (hother [Hex.digit k])

theorem keyNamed?_eq_some_iff {cs : List Char} : keyNamed? cs = some k ↔ cs = ['K', Hex.digit k] := by
  constructor
  · intro h
    rw [keyNamed?] at h
    simpa using List.find?_some h
  · have hkeys : ∀ k : Key, keyNamed? ['K', Hex.digit k] = some k := by decide
    rintro rfl
    exact hkeys k

theorem ofName_eq_ok_iff {s : String} :
    Key.ofName s = .ok k ↔ Spells (Text.stripList s.toList) k := by
  rw [← comparedName_eq_iff, ← keyNamed?_eq_some_iff, Key.ofName]
  cases keyNamed? (comparedName s.toList) <;> simp

theorem names_iff {s : String} : Names s k ↔ Spells (Text.stripList s.toList) k := by
  constructor
  · rintro ⟨before, name, after, hs, hblanks, hname⟩
    rwa [hs, Text.stripList_blanks hblanks hname.ne_nil fun c hc => (hname.plain c hc).2]
  · intro hname
    obtain ⟨before, after, hs, hblanks⟩ := Text.stripList_between s.toList
    exact ⟨before, _, after, hs, hblanks, hname⟩

theorem Names.ascii {s : String} (h : Names s k) :
    ∀ c ∈ s.toList, Text.isBlank c = false → c.toNat < 128 := by
  obtain ⟨before, name, after, hs, hblanks, hname⟩ := h
  intro c hc hplain
  rw [hs, List.mem_append, List.mem_append] at hc
  rcases hc with (hc | hc) | hc
  · exact absurd (hblanks c (List.mem_append_left _ hc)) (by simp [hplain])
  · exact (hname.plain c hc).1
  · exact absurd (hblanks c (List.mem_append_right _ hc)) (by simp [hplain])

/-- a name means a key just if it is a name of the grammar for that key, and any other is refused;
of a name that is accepted every character but blanks is an ASCII character -/
theorem ofName_exact (s : String) :
    (∀ k, Key.ofName s = .ok k ↔ Names s k) ∧
      ((∀ k, ¬ Names s k) →
        Key.ofName s = .error (.key (String.ofList (comparedName s.toList)))) ∧
      ∀ k, Key.ofName s = .ok k → ∀ c ∈ s.toList, Text.isBlank c = false → c.toNat < 128 := by
  have hiff : ∀ k, Key.ofName s = .ok k ↔ Names s k := fun k => ofName_eq_ok_iff.trans names_iff.symm
  refine ⟨hiff, ?_, fun k hk => ((hiff k).1 hk).ascii⟩
  intro hnone
  have hkey : ∀ k, keyNamed? (comparedName s.toList) ≠ some k := by
    intro k hk
    exact hnone k (names_iff.2 (comparedName_eq_iff.1 (keyNamed?_eq_some_iff.1 hk)))
  rw [Key.ofName, Option.eq_none_iff_forall_ne_some.2 hkey]

/-- a letter `k` before a digit, and a Kelvin sign in its place -/
theorem ofName_exact_letters :
    Names " ka\t" 0xA ∧ Key.ofName " ka\t" = .ok 0xA ∧
      (∀ k, ¬ Names "\u212aa" k) ∧ Key.ofName "\u212aa" = .error (.key "K\u212aA") := by
  have hnames : Names " ka\t" 0xA :=
    ⟨[' '], ['k', 'a'], ['\t'], by decide, by simp [Text.isBlank, Text.blankRuns], 'a', by decide,
      .inr (.inr rfl)⟩
  have hnone : ∀ k, ¬ Names "\u212aa" k := by
    simp only [names_iff, spells_iff]
    decide +kernel
  exact ⟨hnames, ((ofName_exact " ka\t").1 0xA).2 hnames, hnone, (ofName_exact "\u212aa").2.1 hnone⟩

end Keyboard

end ChipEight
