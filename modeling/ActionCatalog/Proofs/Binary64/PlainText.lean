import ActionCatalog.Proofs.Binary64.ReadBack
import ActionCatalog.Proofs.Decimal.Positional
import ActionCatalog.Proofs.Text.Spans

namespace ActionCatalog

namespace Decimal

theorem read_pointed {whole fraction : List Char} (hw : whole ≠ [])
    (hd : ∀ c ∈ whole ++ fraction, c.isDigit = true) :
    read? (pointed whole fraction) = some ⟨ofDigits (whole ++ fraction), -fraction.length⟩ := by
  have hwhole : ∀ c ∈ whole, c.isDigit = true := fun c hc ↦ hd c (List.mem_append_left _ hc)
  have hfraction : ∀ c ∈ fraction, c.isDigit = true := fun c hc ↦ hd c (List.mem_append_right _ hc)
  by_cases hf : fraction = []
  · have ht := Text.takeWhile_span hwhole Text.stops_nil
    have hr := Text.dropWhile_span hwhole Text.stops_nil
    rw [List.append_nil] at ht hr
    simp [read?, pointed, hf, hw, ht, hr, readPower]
  · have hpoint : Text.Stops Char.isDigit ('.' :: fraction) := Text.stops_cons.2 rfl
    have ht := Text.takeWhile_span hwhole hpoint
    have hr := Text.dropWhile_span hwhole hpoint
    have ht' := Text.takeWhile_span hfraction Text.stops_nil
    have hr' := Text.dropWhile_span hfraction Text.stops_nil
    rw [List.append_nil] at ht' hr'
    simp [read?, pointed, hf, hw, ht, hr, ht', hr', readPower]

theorem readSign_signed {cs : List Char} (negative : Bool) (hd : cs.head?.any Char.isDigit = true) :
    readSign (signed negative cs) = (negative, cs) := by
  cases negative
  · unfold signed
    simp only [Bool.false_eq_true, ↓reduceIte]
    fun_cases readSign cs
    · cases hd
    · cases hd
    · rfl
  · rfl

end Decimal

namespace Binary64

theorem IsNearest.congr {x : Binary64} {n d n' d' : Nat} (h : x.IsNearest n d) (hd : 0 < d)
    (hd' : 0 < d') (he : n * d' = n' * d) : x.IsNearest n' d' := by
  obtain ⟨⟨hl, hu⟩, hs⟩ := h
  have hn (k : Nat) : k * d * d' = k * d' * d := Nat.mul_right_comm k d d'
  have h4 : 4 * n * d' = 4 * n' * d := by rw [Nat.mul_assoc, he, Nat.mul_assoc]
  refine ⟨⟨?_, ?_⟩, fun hc ↦ ⟨fun h0 ↦ (hs hc).1 ?_, fun h0 ↦ (hs hc).2 ?_⟩⟩
  · apply Nat.le_of_mul_le_mul_right _ hd
    rw [← hn, ← h4]
    exact Nat.mul_le_mul_right d' hl
  · apply Nat.le_of_mul_le_mul_right _ hd
    rw [← hn, ← h4]
    exact Nat.mul_le_mul_right d' hu
  · apply Nat.eq_of_mul_eq_mul_right hd'
    rw [hn, h4, h0]
  · apply Nat.eq_of_mul_eq_mul_right hd'
    rw [hn, h4, h0]

/-- A decimal written positionally has the value of the decimal itself. -/
theorem round_spells {x : Binary64} {d : Decimal} {showsFraction : Bool}
    {whole fraction : List Char} (hs : d.Spells showsFraction whole fraction)
    (hd : x.IsNearest (d.digits * 10 ^ d.power.toNat * unitsPerOne) (10 ^ (-d.power).toNat)) :
    Decimal.round x.negative ⟨Decimal.ofDigits (whole ++ fraction), -fraction.length⟩ =
      .finite x := by
  refine round_of_isNearest x.negative (hd.congr (Nat.pow_pos (by decide))
    (Nat.pow_pos (by decide)) ?_)
  have hplaces := hs.length
  have hle : (-d.power).toNat ≤ d.places showsFraction := by
    simp only [Decimal.places]; split <;> omega
  have hexp : d.power.toNat + d.places showsFraction =
      (d.power + d.places showsFraction).toNat + (-d.power).toNat := by omega
  have h0 : (-(fraction.length : Int)).toNat = 0 := by omega
  have hlen : (- -(fraction.length : Int)).toNat = d.places showsFraction := by omega
  rw [h0, hlen, hs.value]
  calc d.digits * 10 ^ d.power.toNat * unitsPerOne * 10 ^ d.places showsFraction
      = d.digits * 10 ^ (d.power.toNat + d.places showsFraction) * unitsPerOne := by
        rw [Nat.pow_add]; ring
    _ = _ := by rw [hexp, Nat.pow_add]; ring

theorem exists_plain (x : Binary64) : ∃ whole fraction,
    x.spell .plain = signed x.negative (Decimal.pointed whole fraction) ∧
      (x.shortest .up).Spells false whole fraction := by
  obtain ⟨whole, fraction, htext, hs⟩ := (x.shortest .up).exists_spells false
  exact ⟨whole, fraction, by rw [← htext]; rfl, hs⟩

theorem readFinite_spell_plain (x : Binary64) : Decimal.readFinite? (x.spell .plain) = some x := by
  obtain ⟨whole, fraction, htext, hs⟩ := x.exists_plain
  rw [htext, Decimal.readFinite?, Decimal.readExtended?,
    Decimal.readSign_signed _ (Decimal.head_pointed hs.nonempty hs.digits)]
  simp only [Decimal.read_pointed hs.nonempty hs.digits,
    round_spells hs (isNearest_shortest x)]
  rfl

end Binary64

end ActionCatalog
