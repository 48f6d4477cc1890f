import ActionCatalog.Json.Reader
import ActionCatalog.Proofs.Binary64.ReadBack
import ActionCatalog.Proofs.Decimal.Positional
import ActionCatalog.Proofs.Json.Strings
import ActionCatalog.Proofs.Outcomes

namespace ActionCatalog

/-- What reading the text of a number in the style of data gives. The digits are those of the
text, one zero after the point included, and may be scaled by a rounded power of ten. -/
def Binary64.reread? (x : Binary64) : Option Binary64 :=
  let d := x.shortest .toEven
  let scaled :=
    if NumberStyle.data.positional (d.size - 1) && 0 ≤ d.power then
      Json.scale? (d.digits * 10 ^ (d.power.toNat + 1)) (-1)
    else Json.scale? d.digits d.power
  scaled.map fun y ↦ if x.negative then y.neg else y

namespace Json

def Number.reread? : Number → Option Number
  | integer i fits => some (integer i fits)
  | double x => x.reread?.map double

variable {cs ds whole fraction : List Char} {c : Char} {src rest : Source}
  {negative : Bool}

/-- Whether a value may end where a text goes on like this. -/
def Ends (rest : Source) : Prop := ∀ b ∈ rest.head?, b = byte ',' ∨ b = byte ']' ∨ b = byte '\x7d'

theorem digit_bounds (h : c.isDigit = true) : 48 ≤ c.toNat ∧ c.toNat ≤ 57 := by
  simpa [Char.isDigit, UInt32.le_iff_toNat_le] using h

theorem isDigit_byte (h : c.isDigit = true) : isDigit (byte c) = true := by
  obtain ⟨hlow, hhigh⟩ := digit_bounds h
  have hbyte : (byte c).toNat = c.toNat := toNat_byte (by omega)
  rw [isDigit, Bool.and_eq_true, decide_eq_true_eq, decide_eq_true_eq, UInt8.le_iff_toNat_le,
    UInt8.le_iff_toNat_le, hbyte]
  exact ⟨hlow, hhigh⟩

theorem ne_of_isDigit {b d : UInt8} (hb : isDigit b = true) (hd : isDigit d = false) : b ≠ d := by
  rintro rfl
  exact Bool.false_ne_true (hd.symm.trans hb)

theorem digitValue_byte (h : c.isDigit = true) : digitValue (byte c) = Decimal.digitValue c := by
  obtain ⟨hlow, hhigh⟩ := digit_bounds h
  rw [digitValue, toNat_byte (by omega)]
  rfl

theorem ofDigits_concat (ds : List Char) (c : Char) :
    Decimal.ofDigits (ds ++ [c]) = 10 * Decimal.ofDigits ds + Decimal.digitValue c :=
  List.foldl_append

theorem ofDigits_le_append (ds cs : List Char) :
    Decimal.ofDigits ds ≤ Decimal.ofDigits (ds ++ cs) := by
  rw [Decimal.ofDigits_append]
  exact Nat.le_add_right_of_le (Nat.le_mul_of_pos_left _ (Nat.pow_pos (by decide)))

theorem takeDigits_written (hd : ∀ c ∈ cs, c.isDigit = true) (hr : startsWithDigit rest = false)
    (hfits : Decimal.ofDigits (ds ++ cs) < 2 ^ 64) :
    takeDigits (Decimal.ofDigits ds) (bytesOf cs ++ rest) =
      (Decimal.ofDigits (ds ++ cs), cs.length, rest) := by
  induction cs generalizing ds with
  | nil =>
    rw [List.append_nil]
    cases rest with
    | nil => rfl
    | cons b rest =>
      have hb : isDigit b = false := hr
      change takeDigits (Decimal.ofDigits ds) (b :: rest) = _
      simp only [takeDigits, hb, Bool.false_and, Bool.false_eq_true, if_false]
      rfl
  | cons c cs ih =>
    obtain ⟨hc, hcs⟩ := List.forall_mem_cons.1 hd
    have hlow := digit_bounds hc
    rw [List.append_cons] at hfits ⊢
    have hlonger : 10 * Decimal.ofDigits ds + digitValue (byte c) =
        Decimal.ofDigits (ds ++ [c]) := by rw [digitValue_byte hc, ofDigits_concat]
    have hless : Decimal.ofDigits (ds ++ [c]) < 2 ^ 64 :=
      (ofDigits_le_append _ _).trans_lt hfits
    rw [bytesOf_ascii (by omega), List.cons_append]
    simp only [takeDigits, hlonger, isDigit_byte hc, decide_eq_true hless, Bool.and_self, if_true,
      ih hcs hfits, List.length_cons]

theorem dropDigits_of_not (h : startsWithDigit rest = false) : dropDigits rest = (0, rest) := by
  cases rest with
  | nil => rfl
  | cons b rest =>
    have hb : ¬isDigit b = true := Bool.eq_false_iff.1 h
    rw [dropDigits, List.takeWhile_cons_of_neg hb, List.dropWhile_cons_of_neg hb]
    rfl

def scanAfterWhole (negative : Bool) (n : Nat) : Scanner Number
  | [] => .ok (integerNumber negative n, [])
  | b :: rest =>
    if b = byte '.' then scanFraction negative n 0 rest
    else if startsExponent (b :: rest) then scanExponent negative n 0 rest
    else .ok (integerNumber negative n, b :: rest)

theorem scanNumber_whole (hw : whole ≠ []) (hd : ∀ c ∈ whole, c.isDigit = true)
    (hlead : whole = ['0'] ∨ whole.head? ≠ some '0') (hfits : Decimal.ofDigits whole < 2 ^ 64)
    (hs : startsWithDigit src = false) : scanNumber negative (bytesOf whole ++ src) =
      scanAfterWhole negative (Decimal.ofDigits whole) src := by
  obtain ⟨c, cs, rfl⟩ := List.exists_cons_of_ne_nil hw
  obtain ⟨hc, hcs⟩ := List.forall_mem_cons.1 hd
  have hbounds := digit_bounds hc
  have hzero (h : byte c = byte '0') : c :: cs = ['0'] := by
    refine hlead.resolve_right fun hne ↦ hne ?_
    rw [byte_injective (by omega) (by decide) h, List.head?_cons]
  have hfirst : ¬(byte c = byte '0' ∧ startsWithDigit (bytesOf cs ++ src) = true) := by
    rintro ⟨hb, hnext⟩
    obtain ⟨rfl, rfl⟩ := List.cons.inj (hzero hb)
    exact absurd (hs.symm.trans hnext) Bool.false_ne_true
  obtain ⟨taken, htake⟩ : ∃ taken, (if byte c = byte '0' then (0, 0, bytesOf cs ++ src)
      else takeDigits (digitValue (byte c)) (bytesOf cs ++ src)) =
        (Decimal.ofDigits (c :: cs), taken, src) := by
    split
    · rename_i hb
      obtain ⟨rfl, rfl⟩ := List.cons.inj (hzero hb)
      exact ⟨0, rfl⟩
    · have hone : digitValue (byte c) = Decimal.ofDigits [c] :=
        (digitValue_byte hc).trans (Nat.zero_add _).symm
      rw [hone, takeDigits_written hcs hs hfits]
      exact ⟨cs.length, rfl⟩
  rw [bytesOf_ascii (by omega), List.cons_append, scanNumber]
  simp only [isDigit_byte hc, Bool.not_true, Bool.false_eq_true, if_false, if_neg hfirst, htake,
    dropDigits_of_not hs, if_true]
  cases src <;> rfl

/-- Digits with or without a fraction, and then what may follow them. -/
theorem scanNumber_pointed (hw : whole ≠ []) (hd : ∀ c ∈ whole ++ fraction, c.isDigit = true)
    (hlead : whole = ['0'] ∨ whole.head? ≠ some '0')
    (hfits : Decimal.ofDigits (whole ++ fraction) < 2 ^ 64) (hs : startsWithDigit src = false)
    (hpoint : fraction = [] → startsExponent src = true) :
    scanNumber negative (bytesOf (Decimal.pointed whole fraction) ++ src) =
      scanAfterDigits negative (Decimal.ofDigits (whole ++ fraction)) (-fraction.length) src := by
  have hwhole : ∀ c ∈ whole, c.isDigit = true := fun c hc ↦ hd c (List.mem_append_left _ hc)
  have hless : Decimal.ofDigits whole < 2 ^ 64 := (ofDigits_le_append _ _).trans_lt hfits
  cases fraction with
  | nil =>
    have hexponent := hpoint rfl
    obtain ⟨b, rest, rfl⟩ : ∃ b rest, src = b :: rest := by
      cases src with
      | nil => cases hexponent
      | cons b rest => exact ⟨b, rest, rfl⟩
    have hb : b ≠ byte '.' := by
      rintro rfl
      cases hexponent
    rw [Decimal.pointed, if_pos rfl, List.append_nil, scanNumber_whole hw hwhole hlead hless hs,
      scanAfterWhole, if_neg hb, if_pos hexponent, scanAfterDigits, if_pos hexponent]
    rfl
  | cons c cs =>
    have hfraction : ∀ d ∈ c :: cs, d.isDigit = true := fun d hdc ↦
      hd d (List.mem_append_right _ hdc)
    have hc := hfraction c List.mem_cons_self
    have hbounds := digit_bounds hc
    have hstart : startsWithDigit (byte c :: (bytesOf cs ++ src)) = true := isDigit_byte hc
    have htake := takeDigits_written hfraction hs hfits
    rw [bytesOf_ascii (by omega), List.cons_append] at htake
    rw [Decimal.pointed, if_neg (List.cons_ne_nil c cs), bytesOf_append, List.append_assoc,
      bytesOf_ascii (by decide), bytesOf_ascii (by omega), List.cons_append, List.cons_append,
      scanNumber_whole hw hwhole hlead hless rfl, scanAfterWhole, if_pos rfl, scanFraction,
      if_pos hstart, htake]
    simp only [dropDigits_of_not hs, Int.zero_sub, List.length_cons]

theorem exponentDigits_written (hd : ∀ c ∈ cs, c.isDigit = true)
    (hr : startsWithDigit rest = false) (hfits : Decimal.ofDigits (ds ++ cs) < 2 ^ 31) :
    exponentDigits (Decimal.ofDigits ds) (bytesOf cs ++ rest) =
      (some (Decimal.ofDigits (ds ++ cs)), rest) := by
  induction cs generalizing ds with
  | nil =>
    rw [List.append_nil]
    cases rest with
    | nil => rfl
    | cons b rest =>
      have hb : ¬isDigit b = true := Bool.eq_false_iff.1 hr
      exact if_neg hb
  | cons c cs ih =>
    obtain ⟨hc, hcs⟩ := List.forall_mem_cons.1 hd
    have hbounds := digit_bounds hc
    rw [List.append_cons] at hfits ⊢
    have hlonger : 10 * Decimal.ofDigits ds + digitValue (byte c) =
        Decimal.ofDigits (ds ++ [c]) := by rw [digitValue_byte hc, ofDigits_concat]
    have hless : Decimal.ofDigits (ds ++ [c]) < 2 ^ 31 :=
      (ofDigits_le_append _ _).trans_lt hfits
    rw [bytesOf_ascii (by omega), List.cons_append, exponentDigits, if_pos (isDigit_byte hc)]
    dsimp only
    rw [hlonger, if_pos hless, ih hcs hfits]

theorem startsExponent_e (src : Source) : startsExponent (byte 'e' :: src) = true := rfl

theorem scanExponent_written {significand : Nat} {exponent power : Int}
    (hpower : power.natAbs < 2 ^ 31) (hr : startsWithDigit rest = false) :
    scanExponent negative significand exponent
      (bytesOf ((if power < 0 then '-' else '+') :: Nat.toDigits 10 power.natAbs) ++ rest) =
        scanScaled negative significand (exponent + power) rest := by
  obtain ⟨c, cs, hcs⟩ :=
    List.exists_cons_of_ne_nil (Nat.toDigits_ne_nil (b := 10) (n := power.natAbs))
  have hdigits : ∀ d ∈ c :: cs, d.isDigit = true := fun d hd ↦
    Decimal.isDigit_toDigits (hcs ▸ hd)
  obtain ⟨hc, hrest⟩ := List.forall_mem_cons.1 hdigits
  have hbounds := digit_bounds hc
  have hvalue : Decimal.ofDigits (c :: cs) = power.natAbs := by
    rw [← hcs, Decimal.ofDigits_toDigits]
  have hone : digitValue (byte c) = Decimal.ofDigits [c] :=
    (digitValue_byte hc).trans (Nat.zero_add _).symm
  have hscan : exponentDigits (digitValue (byte c)) (bytesOf cs ++ rest) =
      (some power.natAbs, rest) := by
    rw [hone, exponentDigits_written hrest hr (by rw [List.singleton_append, hvalue]; exact hpower),
      List.singleton_append, hvalue]
  rcases lt_or_ge power 0 with hneg | hpos
  · have hsum : exponent - (power.natAbs : Int) = exponent + power := by omega
    rw [if_pos hneg, hcs, bytesOf_ascii (by decide), bytesOf_ascii (by omega), List.cons_append,
      List.cons_append, scanExponent]
    simp only [if_true, isDigit_byte hc, hscan, hsum]
  · have hsum : exponent + (power.natAbs : Int) = exponent + power := by omega
    have hplus : byte '+' ≠ byte '-' := by decide
    rw [if_neg (not_lt.2 hpos), hcs, bytesOf_ascii (by decide), bytesOf_ascii (by omega),
      List.cons_append, List.cons_append, scanExponent]
    simp only [hplus, if_true, if_false, isDigit_byte hc, hscan, hsum, Bool.false_eq_true]

theorem Ends.not_digit (h : Ends rest) : startsWithDigit rest = false := by
  cases rest with
  | nil => rfl
  | cons b rest => rcases h b rfl with rfl | rfl | rfl <;> rfl

theorem Ends.not_exponent (h : Ends rest) : startsExponent rest = false := by
  cases rest with
  | nil => rfl
  | cons b rest => rcases h b rfl with rfl | rfl | rfl <;> rfl

theorem scanScaled_toOption (negative : Bool) (significand : Nat) (exponent : Int) (rest : Source) :
    (scanScaled negative significand exponent rest).toOption =
      (scale? significand exponent).map fun y ↦
        (.double (if negative then y.neg else y), rest) := by
  unfold scanScaled
  cases scale? significand exponent <;> rfl

variable {x : Binary64}

theorem scaled_lt {d : Decimal} (hp : 0 ≤ d.power) (hsize : d.size ≤ 16) :
    d.digits * 10 ^ (d.power.toNat + 1) < 2 ^ 64 := by
  rw [Decimal.size] at hsize
  calc d.digits * 10 ^ (d.power.toNat + 1)
      < 10 ^ Decimal.length d.digits * 10 ^ (d.power.toNat + 1) :=
        Nat.mul_lt_mul_of_pos_right (Decimal.lt_pow_length _) (Nat.pow_pos (by decide))
    _ = 10 ^ (Decimal.length d.digits + (d.power.toNat + 1)) := (Nat.pow_add _ _ _).symm
    _ ≤ 10 ^ 17 := Nat.pow_le_pow_right (by decide) (by omega)
    _ < 2 ^ 64 := by decide

theorem scanNumber_positional
    (h : NumberStyle.data.positional ((x.shortest .toEven).size - 1) = true) (hr : Ends rest) :
    (scanNumber x.negative (bytesOf ((x.shortest .toEven).positional true) ++ rest)).toOption =
      x.reread?.map fun y ↦ (.double y, rest) := by
  have hle := x.digits_shortest_le .toEven
  have hreread : x.reread? =
      (if 0 ≤ (x.shortest .toEven).power then
        scale? ((x.shortest .toEven).digits * 10 ^ ((x.shortest .toEven).power.toNat + 1)) (-1)
      else scale? (x.shortest .toEven).digits (x.shortest .toEven).power).map
        fun y ↦ if x.negative then y.neg else y := by
    simp only [Binary64.reread?, h, Bool.true_and, decide_eq_true_eq]
  rw [hreread]
  generalize x.shortest .toEven = d at *
  obtain ⟨whole, fraction, htext, hspells⟩ := d.exists_spells true
  have hsize : d.size ≤ 16 := by
    have hbounds : -5 ≤ d.size - 1 ∧ d.size - 1 ≤ 15 := by simpa [NumberStyle.data] using h
    omega
  have hscan (hfits : Decimal.ofDigits (whole ++ fraction) < 2 ^ 64) (hfraction : fraction ≠ []) :
      (scanNumber x.negative (bytesOf (d.positional true) ++ rest)).toOption =
        (scale? (Decimal.ofDigits (whole ++ fraction)) (-fraction.length)).map fun y ↦
          (.double (if x.negative then y.neg else y), rest) := by
    rw [htext, scanNumber_pointed hspells.nonempty hspells.digits hspells.leading hfits
      hr.not_digit fun h0 ↦ absurd h0 hfraction, scanAfterDigits,
      if_neg (Bool.eq_false_iff.1 hr.not_exponent), scanScaled_toOption]
  -- a whole number is written with a zero after the point, which is scaled away again
  rcases lt_or_ge d.power 0 with hp | hp
  · have hplaces : d.places true = (-d.power).toNat := if_neg (not_le.2 hp)
    have hvalue : Decimal.ofDigits (whole ++ fraction) = d.digits := by
      rw [hspells.value, hplaces, show (d.power + (-d.power).toNat).toNat = 0 by omega,
        Nat.pow_zero, Nat.mul_one]
    have hlength : -(fraction.length : Int) = d.power := by
      rw [hspells.length, hplaces]
      omega
    have hfraction : fraction ≠ [] := by
      rintro rfl
      exact hp.ne' hlength
    rw [hscan (by rw [hvalue]; exact hle.trans_lt (by decide)) hfraction, hvalue, hlength,
      if_neg (not_le.2 hp), Option.map_map]
    rfl
  · have hplaces : d.places true = 1 := if_pos hp
    have hvalue : Decimal.ofDigits (whole ++ fraction) = d.digits * 10 ^ (d.power.toNat + 1) := by
      rw [hspells.value, hplaces, show (d.power + (1 : Nat)).toNat = d.power.toNat + 1 by omega]
    have hlength : fraction.length = 1 := hspells.length.trans hplaces
    rw [hscan (by rw [hvalue]; exact scaled_lt hp hsize) (List.ne_nil_of_length_pos (by omega)),
      hvalue, hlength, if_pos hp, Option.map_map]
    rfl

theorem scanNumber_scientific
    (h : ¬NumberStyle.data.positional ((x.shortest .toEven).size - 1) = true) (hr : Ends rest) :
    (scanNumber x.negative (bytesOf (x.shortest .toEven).scientific ++ rest)).toOption =
      x.reread?.map fun y ↦ (.double y, rest) := by
  have hx : x.mantissa ≠ 0 := by
    intro h0
    rw [Binary64.shortest, if_pos (Binary64.isZero_iff.2 h0)] at h
    exact h rfl
  have hle := x.digits_shortest_le .toEven
  have hnonzero := x.digits_shortest_ne_zero .toEven hx
  have hpower := x.power_shortest .toEven
  have hreread : x.reread? = (scale? (x.shortest .toEven).digits (x.shortest .toEven).power).map
      fun y ↦ if x.negative then y.neg else y := by
    rw [Binary64.reread?, Bool.eq_false_iff.2 h]
    rfl
  rw [hreread]
  -- that the decimal is the shortest one matters no further
  generalize x.shortest .toEven = d at *
  obtain ⟨whole, fraction, htext, hall, hone⟩ := d.exists_scientific
  have hne : whole ≠ [] := List.ne_nil_of_length_pos (by omega)
  have hvalue : Decimal.ofDigits (whole ++ fraction) = d.digits := by
    rw [hall, Decimal.ofDigits_toDigits]
  have hlead : whole.head? ≠ some '0' := by
    rw [← List.head?_append_of_ne_nil _ hne, hall]
    exact mt Decimal.head_toDigits hnonzero
  have hlength : whole.length + fraction.length = Decimal.length d.digits := by
    rw [← List.length_append, hall]
    rfl
  have hlen : Decimal.length d.digits ≤ 18 :=
    (Nat.length_toDigits_le_iff (by decide) (by decide)).2 (hle.trans_lt (by decide))
  have hsize : (d.size - 1).natAbs < 2 ^ 31 := by
    rw [Decimal.size]
    omega
  have hsum : -(fraction.length : Int) + (d.size - 1) = d.power := by
    rw [Decimal.size]
    omega
  rw [htext, bytesOf_append, List.append_assoc, scanNumber_pointed hne, hvalue,
    bytesOf_ascii (by decide), List.cons_append, scanAfterDigits, if_pos (startsExponent_e _),
    List.tail_cons, scanExponent_written hsize hr.not_digit, hsum, scanScaled_toOption,
    Option.map_map]
  · rfl
  · rw [hall]
    exact fun c ↦ Decimal.isDigit_toDigits
  · exact .inr hlead
  · rw [hvalue]
    exact hle.trans_lt (by decide)
  · rw [bytesOf_ascii (by decide)]
    rfl
  · intro _
    rw [bytesOf_ascii (by decide)]
    rfl

def dataText (x : Binary64) : List Char :=
  let d := x.shortest .toEven
  if NumberStyle.data.positional (d.size - 1) then d.positional true else d.scientific

theorem spell_data (x : Binary64) : x.spell .data = signed x.negative (dataText x) := rfl

theorem scanNumber_double (x : Binary64) (hr : Ends rest) :
    (scanNumber x.negative (bytesOf (dataText x) ++ rest)).toOption =
      x.reread?.map fun y ↦ (.double y, rest) := by
  by_cases h : NumberStyle.data.positional ((x.shortest .toEven).size - 1) = true
  · rw [dataText, if_pos h]
    exact scanNumber_positional h hr
  · rw [dataText, if_neg h]
    exact scanNumber_scientific h hr

theorem head_dataText (x : Binary64) : (dataText x).head?.any Char.isDigit = true := by
  rw [dataText]
  split
  · obtain ⟨whole, fraction, htext, hspells⟩ := (x.shortest .toEven).exists_spells true
    rw [htext]
    exact Decimal.head_pointed hspells.nonempty hspells.digits
  · have hhead := Decimal.head_toDigits_isDigit (x.shortest .toEven).digits
    obtain ⟨c, cs, hcs⟩ := List.exists_cons_of_ne_nil
      (Nat.toDigits_ne_nil (b := 10) (n := (x.shortest .toEven).digits))
    rw [hcs] at hhead
    rw [Decimal.scientific, hcs]
    exact hhead

theorem scanNumber_integer {i : Int} (fits : -2 ^ 63 ≤ i ∧ i < 2 ^ 64) (hr : Ends rest) :
    scanNumber (i < 0) (bytesOf (Nat.toDigits 10 i.natAbs) ++ rest) =
      .ok (.integer i fits, rest) := by
  have hdigits : ∀ c ∈ Nat.toDigits 10 i.natAbs, c.isDigit = true := fun c ↦
    Decimal.isDigit_toDigits
  have hvalue := Decimal.ofDigits_toDigits i.natAbs
  have hnumber : integerNumber (i < 0) i.natAbs = .integer i fits := by
    have hi : (if decide (i < 0) then -(i.natAbs : Int) else i.natAbs) = i := by
      simp only [decide_eq_true_eq]
      split <;> omega
    have hzero : ¬(decide (i < 0) = true ∧ i.natAbs = 0) := by
      simp only [decide_eq_true_eq]
      omega
    rw [integerNumber]
    simp only [hi, hzero, fits, and_self, not_false_eq_true, dif_pos]
  rw [scanNumber_whole Nat.toDigits_ne_nil hdigits (Decimal.toDigits_zero_or _)
    (by rw [hvalue]; omega) hr.not_digit, hvalue]
  cases rest with
  | nil => rw [scanAfterWhole, hnumber]
  | cons b rest =>
    have hpoint : b ≠ byte '.' := by
      rcases hr b rfl with rfl | rfl | rfl <;> decide
    rw [scanAfterWhole, if_neg hpoint, if_neg (Bool.eq_false_iff.1 hr.not_exponent), hnumber]

/-- A sign is told from digits, and both from the beginnings of other values. -/
theorem scanScalar_signed {text : List Char} (steps : Nat) (negative : Bool)
    (h : text.head?.any Char.isDigit = true) (rest : Source) :
    scanScalar steps (bytesOf (signed negative text) ++ rest) =
      (scanNumber negative (bytesOf text ++ rest)).map fun (n, rest) ↦ (.number n, rest) := by
  cases negative with
  | true =>
    rw [signed, if_pos rfl, bytesOf_ascii (by decide), List.cons_append]
    rfl
  | false =>
    cases text with
    | nil => cases h
    | cons c cs =>
      have hdigit : isDigit (byte c) = true := isDigit_byte h
      have hne {b : UInt8} (hb : isDigit b = false) : byte c ≠ b := ne_of_isDigit hdigit hb
      have hbounds := digit_bounds h
      rw [signed, if_neg Bool.false_ne_true, bytesOf_ascii (by omega), List.cons_append, scanScalar,
        if_neg (hne rfl), if_neg (hne rfl), if_neg (hne rfl), if_neg (hne rfl), if_neg (hne rfl),
        if_pos hdigit]

theorem scanScalar_number (steps : Nat) (n : Number) (hr : Ends rest) :
    (scanScalar steps (bytesOf n.spell ++ rest)).toOption =
      n.reread?.map fun m ↦ (.number m, rest) := by
  cases n with
  | integer i fits =>
    rw [Number.spell, scanScalar_signed steps _ (Decimal.head_toDigits_isDigit _),
      scanNumber_integer fits hr]
    rfl
  | double x =>
    rw [Number.spell, spell_data, scanScalar_signed steps _ (head_dataText x), toOption_map,
      scanNumber_double x hr, Number.reread?, Option.map_map, Option.map_map]
    rfl

end Json

end ActionCatalog
