import ActionCatalog.Binary64.Spelling
import Mathlib.Tactic.Ring

namespace ActionCatalog.Decimal

theorem isDigit_toDigits {n : Nat} {c : Char} (hc : c ∈ Nat.toDigits 10 n) : c.isDigit = true :=
  Nat.isDigit_of_mem_toDigits (by decide) (by decide) hc

theorem ofDigits_toDigits (n : Nat) : ofDigits (Nat.toDigits 10 n) = n :=
  Nat.ofDigitChars_ten_toDigits

theorem ofDigits_append (cs ds : List Char) :
    ofDigits (cs ++ ds) = 10 ^ ds.length * ofDigits cs + ofDigits ds := by
  change Nat.ofDigitChars 10 (cs ++ ds) 0 = _
  rw [Nat.ofDigitChars_append, Nat.ofDigitChars_eq_ofDigitChars_zero]
  rfl

theorem ofDigits_zeros (n : Nat) : ofDigits (zeros n) = 0 := by
  change Nat.ofDigitChars 10 (List.replicate n '0') 0 = 0
  rw [Nat.ofDigitChars_replicate_zero, Nat.mul_zero]

theorem head_toDigits {n : Nat} (h : (Nat.toDigits 10 n).head? = some '0') : n = 0 := by
  induction n using Nat.strongRecOn with
  | ind n ih =>
    rw [Nat.toDigits_eq_if (by decide)] at h
    split at h
    · exact Nat.digitChar_eq_zero.1 (Option.some.inj h)
    · rw [List.head?_append, Option.or_of_isSome (List.isSome_head?.2 Nat.toDigits_ne_nil)] at h
      have := ih (n / 10) (by omega) h
      omega

theorem head_toDigits_isDigit (n : Nat) : (Nat.toDigits 10 n).head?.any Char.isDigit = true := by
  cases hcs : Nat.toDigits 10 n with
  | nil => exact absurd hcs Nat.toDigits_ne_nil
  | cons c cs => exact isDigit_toDigits (hcs ▸ List.mem_cons_self)

theorem toDigits_zero_or (n : Nat) :
    Nat.toDigits 10 n = ['0'] ∨ (Nat.toDigits 10 n).head? ≠ some '0' := by
  by_cases h : (Nat.toDigits 10 n).head? = some '0'
  · rw [head_toDigits h]
    exact .inl (Nat.toDigits_zero 10)
  · exact .inr h

/-- The digits before and after the point of a text, which shows none if nothing follows it. -/
def pointed (whole fraction : List Char) : List Char :=
  whole ++ if fraction = [] then [] else '.' :: fraction

theorem head_pointed {whole fraction : List Char} (hw : whole ≠ [])
    (hd : ∀ c ∈ whole ++ fraction, c.isDigit = true) :
    (pointed whole fraction).head?.any Char.isDigit = true := by
  obtain ⟨c, cs, rfl⟩ := List.exists_cons_of_ne_nil hw
  exact hd c (List.mem_cons_self ..)

def places (showsFraction : Bool) (d : Decimal) : Nat :=
  if 0 ≤ d.power then showsFraction.toNat else (-d.power).toNat

/-- Whether digits before and after the point are those of a decimal. -/
structure Spells (showsFraction : Bool) (d : Decimal) (whole fraction : List Char) : Prop where
  digits : ∀ c ∈ whole ++ fraction, c.isDigit = true
  nonempty : whole ≠ []
  leading : whole = ['0'] ∨ whole.head? ≠ some '0'
  length : fraction.length = d.places showsFraction
  value : ofDigits (whole ++ fraction) = d.digits * 10 ^ (d.power + d.places showsFraction).toNat

theorem isDigit_zeros {n : Nat} {c : Char} (hc : c ∈ zeros n) : c.isDigit = true := by
  rw [(List.mem_replicate.1 hc).2]
  rfl

theorem spells_whole (showsFraction : Bool) {d : Decimal} (hp : 0 ≤ d.power) :
    d.Spells showsFraction
      (if d.digits = 0 then ['0'] else Nat.toDigits 10 d.digits ++ zeros d.power.toNat)
      (zeros showsFraction.toNat) := by
  have hplaces : d.places showsFraction = showsFraction.toNat := if_pos hp
  have hpower : (d.power + showsFraction.toNat).toNat = d.power.toNat + showsFraction.toNat := by
    omega
  split
  · rename_i h0
    refine ⟨?_, by simp, .inl rfl, by rw [hplaces]; exact List.length_replicate, ?_⟩
    · intro c hc
      rcases List.mem_append.1 hc with hc | hc
      · rw [List.mem_singleton.1 hc]; rfl
      · exact isDigit_zeros hc
    · rw [h0, Nat.zero_mul]
      exact ofDigits_zeros (showsFraction.toNat + 1)
  · rename_i h0
    refine ⟨?_, by simp, .inr ?_, by rw [hplaces]; exact List.length_replicate, ?_⟩
    · intro c hc
      rcases List.mem_append.1 hc with hc | hc
      · rcases List.mem_append.1 hc with hc | hc
        · exact isDigit_toDigits hc
        · exact isDigit_zeros hc
      · exact isDigit_zeros hc
    · rw [List.head?_append, Option.or_of_isSome (List.isSome_head?.2 Nat.toDigits_ne_nil)]
      exact mt head_toDigits h0
    · rw [hplaces, hpower, ofDigits_append, ofDigits_append, ofDigits_zeros, ofDigits_zeros,
        ofDigits_toDigits, zeros, zeros, List.length_replicate, List.length_replicate, Nat.pow_add]
      ring

theorem spells_among (showsFraction : Bool) {d : Decimal} (hp : d.power < 0)
    (hl : (-d.power).toNat < (Nat.toDigits 10 d.digits).length) :
    d.Spells showsFraction
      ((Nat.toDigits 10 d.digits).take ((Nat.toDigits 10 d.digits).length - (-d.power).toNat))
      ((Nat.toDigits 10 d.digits).drop ((Nat.toDigits 10 d.digits).length - (-d.power).toNat)) := by
  have hplaces : d.places showsFraction = (-d.power).toNat := if_neg (by omega)
  refine ⟨?_, ?_, .inr ?_, ?_, ?_⟩
  · intro c hc
    rw [List.take_append_drop] at hc
    exact isDigit_toDigits hc
  · intro h
    have := congrArg List.length h
    rw [List.length_take, List.length_nil] at this
    omega
  · intro h
    rw [List.head?_take, if_neg (by omega)] at h
    rw [head_toDigits h, Nat.toDigits_zero, List.length_singleton] at hl
    omega
  · rw [hplaces, List.length_drop]
    omega
  · rw [List.take_append_drop, ofDigits_toDigits, hplaces,
      show (d.power + (-d.power).toNat).toNat = 0 by omega, Nat.pow_zero, Nat.mul_one]

theorem spells_after (showsFraction : Bool) {d : Decimal} (hp : d.power < 0)
    (hl : (Nat.toDigits 10 d.digits).length ≤ (-d.power).toNat) :
    d.Spells showsFraction ['0']
      (zeros ((-d.power).toNat - (Nat.toDigits 10 d.digits).length) ++
        Nat.toDigits 10 d.digits) := by
  have hplaces : d.places showsFraction = (-d.power).toNat := if_neg (by omega)
  refine ⟨?_, by simp, .inl rfl, ?_, ?_⟩
  · intro c hc
    rcases List.mem_append.1 hc with hc | hc
    · rw [List.mem_singleton.1 hc]; rfl
    rcases List.mem_append.1 hc with hc | hc
    · exact isDigit_zeros hc
    · exact isDigit_toDigits hc
  · rw [hplaces, List.length_append, zeros, List.length_replicate]
    omega
  · rw [← List.append_assoc, ofDigits_append, ofDigits_toDigits, hplaces,
      show (d.power + (-d.power).toNat).toNat = 0 by omega]
    change _ * ofDigits (zeros (_ + 1)) + _ = _
    rw [ofDigits_zeros]
    ring

theorem exists_spells (showsFraction : Bool) (d : Decimal) : ∃ whole fraction,
    d.positional showsFraction = pointed whole fraction ∧
      d.Spells showsFraction whole fraction := by
  rcases lt_or_ge d.power 0 with hp | hp
  · rcases Nat.lt_or_ge (-d.power).toNat (Nat.toDigits 10 d.digits).length with hl | hl
    · refine ⟨_, _, ?_, spells_among showsFraction hp hl⟩
      have hne : (Nat.toDigits 10 d.digits).drop
          ((Nat.toDigits 10 d.digits).length - (-d.power).toNat) ≠ [] := by
        intro h
        have := congrArg List.length h
        rw [List.length_drop, List.length_nil] at this
        omega
      simp only [positional, pointed, if_neg (show ¬0 ≤ d.power by omega), if_pos hl, if_neg hne]
    · refine ⟨_, _, ?_, spells_after showsFraction hp hl⟩
      simp [positional, pointed, show ¬0 ≤ d.power by omega, Nat.not_lt.2 hl]
  · refine ⟨_, _, ?_, spells_whole showsFraction hp⟩
    cases showsFraction <;> simp [positional, pointed, zeros, show 0 ≤ d.power from hp]

theorem exists_scientific (d : Decimal) : ∃ whole fraction,
    d.scientific = pointed whole fraction ++
      'e' :: (if d.size - 1 < 0 then '-' else '+') :: Nat.toDigits 10 (d.size - 1).natAbs ∧
    whole ++ fraction = Nat.toDigits 10 d.digits ∧ whole.length = 1 := by
  have hpos : 0 < (Nat.toDigits 10 d.digits).length := Nat.length_toDigits_pos
  refine ⟨_, _, rfl, List.take_append_drop 1 _, ?_⟩
  rw [List.length_take]
  omega

end ActionCatalog.Decimal
