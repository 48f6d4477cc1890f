import ActionCatalog.Decimal
import ActionCatalog.Proofs.Text.Spans

namespace ActionCatalog.Decimal

open Text

def Digits (cs : List Char) : Prop := ∀ c ∈ cs, c.isDigit = true

inductive Sign : Bool → List Char → Prop
  | none : Sign false []
  | plus : Sign false ['+']
  | minus : Sign true ['-']

/-- The digits before and after the point in `d+`, `d+.d*` or `.d+`. -/
inductive Mantissa : List Char → List Char → List Char → Prop
  | whole {ds : List Char} (hne : ds ≠ []) (hd : Digits ds) : Mantissa ds [] ds
  | pointed {ds fs : List Char} (hne : ds ≠ []) (hd : Digits ds) (hf : Digits fs) :
    Mantissa ds fs (ds ++ '.' :: fs)
  | fraction {fs : List Char} (hne : fs ≠ []) (hf : Digits fs) : Mantissa [] fs ('.' :: fs)

/-- The power of ten: `e` or `E` and an integer, or nothing. -/
inductive Exponent : Int → List Char → Prop
  | none : Exponent 0 []
  | power {letter : Char} {negative : Bool} {sign ds : List Char}
    (hletter : letter = 'e' ∨ letter = 'E') (hsign : Sign negative sign) (hne : ds ≠ [])
    (hd : Digits ds) :
    Exponent (if negative then -(ofDigits ds : Int) else ofDigits ds) (letter :: (sign ++ ds))

def ofParts (whole fraction : List Char) (power : Int) : Decimal :=
  ⟨ofDigits (whole ++ fraction), power - fraction.length⟩

inductive Unsigned : Decimal → List Char → Prop
  | intro {whole fraction mantissa exponent : List Char} {power : Int}
    (hm : Mantissa whole fraction mantissa) (he : Exponent power exponent) :
    Unsigned (ofParts whole fraction power) (mantissa ++ exponent)

/-- The texts of a binary64 number: decimals that it is the nearest one to. -/
inductive Written (x : Binary64) : List Char → Prop
  | intro {negative : Bool} {d : Decimal} {sign cs : List Char} (hsign : Sign negative sign)
    (hd : Unsigned d cs) (hround : round negative d = .finite x) : Written x (sign ++ cs)

variable {negative : Bool} {cs rest : List Char}

theorem Digits.stops_sign {ds : List Char} (hd : Digits ds) :
    ∀ c ∈ ds.head?, c ≠ '-' ∧ c ≠ '+' := by
  intro c hc
  have hdigit := hd c (List.mem_of_mem_head? hc)
  constructor <;> rintro rfl <;> cases hdigit

theorem exists_sign (h : readSign cs = (negative, rest)) :
    ∃ sign, Sign negative sign ∧ cs = sign ++ rest := by
  unfold readSign at h
  split at h
  · cases h
    exact ⟨_, .minus, rfl⟩
  · cases h
    exact ⟨_, .plus, rfl⟩
  · cases h
    exact ⟨_, .none, rfl⟩

theorem readSign_append {sign : List Char} (h : Sign negative sign)
    (hrest : ∀ c ∈ rest.head?, c ≠ '-' ∧ c ≠ '+') : readSign (sign ++ rest) = (negative, rest) := by
  cases h with
  | plus => rfl
  | minus => rfl
  | none =>
    rw [List.nil_append, readSign.eq_3]
    · rintro ds rfl
      exact (hrest '-' rfl).1 rfl
    · rintro ds rfl
      exact (hrest '+' rfl).2 rfl

theorem readPower_eq_some {p : Int} : readPower cs = some p ↔ Exponent p cs := by
  constructor
  · intro h
    cases cs with
    | nil =>
      cases h
      exact .none
    | cons letter cs =>
      rcases hread : readSign cs with ⟨negative, ds⟩
      obtain ⟨sign, hsign, rfl⟩ := exists_sign hread
      rw [readPower, hread] at h
      dsimp only at h
      split at h
      · rename_i hpower
        obtain ⟨hletter, hne, hd⟩ := hpower
        cases h
        exact .power hletter hsign hne (List.all_eq_true.1 hd)
      · cases h
  · rintro (_ | ⟨hletter, hsign, hne, hd⟩)
    · rfl
    · rw [readPower, readSign_append hsign hd.stops_sign]
      exact if_pos ⟨hletter, hne, List.all_eq_true.2 hd⟩

theorem Exponent.stops {p : Int} (h : Exponent p cs) :
    ∀ c ∈ cs.head?, c.isDigit = false ∧ c ≠ '.' := by
  cases h with
  | none => nofun
  | power hletter hsign hne hd =>
    rintro c ⟨⟩
    rcases hletter with rfl | rfl <;> decide

def finish (whole fraction rest : List Char) : Option Decimal :=
  if whole = [] ∧ fraction = [] then none else (readPower rest).map (ofParts whole fraction)

theorem finish_eq_some {whole fraction : List Char} {d : Decimal} :
    finish whole fraction rest = some d ↔ ¬(whole = [] ∧ fraction = []) ∧
      ∃ p, Exponent p rest ∧ ofParts whole fraction p = d := by
  unfold finish
  split
  · rename_i hempty
    exact ⟨nofun, fun h ↦ absurd hempty h.1⟩
  · rename_i hne
    simp only [Option.map_eq_some_iff, readPower_eq_some, hne, not_false_eq_true, true_and]

theorem read_point {whole fraction : List Char} (hw : Digits whole) (hf : Digits fraction)
    (hrest : Stops Char.isDigit rest) :
    read? (whole ++ '.' :: (fraction ++ rest)) = finish whole fraction rest := by
  have hread (ds : List Char) : read? (whole ++ '.' :: ds) =
      finish whole (ds.takeWhile Char.isDigit) (ds.dropWhile Char.isDigit) := by
    have hpoint : Stops Char.isDigit ('.' :: ds) := stops_cons.2 rfl
    rw [read?, takeWhile_span hw hpoint, dropWhile_span hw hpoint]
    rfl
  rw [hread, takeWhile_span hf hrest, dropWhile_span hf hrest]

theorem read_whole {whole : List Char} (hw : Digits whole) (hrest : Stops Char.isDigit rest)
    (hpoint : ∀ ds, rest ≠ '.' :: ds) : read? (whole ++ rest) = finish whole [] rest := by
  rw [read?, takeWhile_span hw hrest, dropWhile_span hw hrest]
  dsimp only
  split
  · exact absurd rfl (hpoint _)
  · rfl

theorem exists_digits (cs : List Char) :
    ∃ ds rest, cs = ds ++ rest ∧ Digits ds ∧ Stops Char.isDigit rest :=
  ⟨_, _, List.takeWhile_append_dropWhile.symm, forall_mem_takeWhile _ cs, stops_dropWhile _ cs⟩

theorem read_eq_some {d : Decimal} : read? cs = some d ↔ Unsigned d cs := by
  constructor
  · intro h
    obtain ⟨whole, rest, rfl, hw, hrest⟩ := exists_digits cs
    by_cases hpoint : ∃ ds, rest = '.' :: ds
    · obtain ⟨ds, rfl⟩ := hpoint
      obtain ⟨fraction, after, rfl, hf, hafter⟩ := exists_digits ds
      rw [read_point hw hf hafter] at h
      obtain ⟨hne, p, he, rfl⟩ := finish_eq_some.1 h
      -- there are digits before the point or after it
      have hm : Mantissa whole fraction (whole ++ '.' :: fraction) := by
        by_cases hwhole : whole = []
        · rw [hwhole]
          exact .fraction (fun hfraction ↦ hne ⟨hwhole, hfraction⟩) hf
        · exact .pointed hwhole hw hf
      rw [← List.cons_append, ← List.append_assoc]
      exact .intro hm he
    · rw [read_whole hw hrest (not_exists.1 hpoint)] at h
      obtain ⟨hne, p, he, rfl⟩ := finish_eq_some.1 h
      exact .intro (.whole (fun hwhole ↦ hne ⟨hwhole, rfl⟩) hw) he
  · rintro ⟨hm, he⟩
    have hrest : Stops Char.isDigit _ := fun c hc ↦ (he.stops c hc).1
    cases hm with
    | whole hne hd =>
      rw [read_whole hd hrest fun ds h ↦ (he.stops '.' (h ▸ rfl)).2 rfl]
      exact finish_eq_some.2 ⟨fun h ↦ hne h.1, _, he, rfl⟩
    | pointed hne hd hf =>
      rw [List.append_assoc, List.cons_append, read_point hd hf hrest]
      exact finish_eq_some.2 ⟨fun h ↦ hne h.1, _, he, rfl⟩
    | fraction hne hf =>
      have hread := read_point (List.forall_mem_nil _) hf hrest
      rw [List.nil_append] at hread
      rw [List.cons_append, hread]
      exact finish_eq_some.2 ⟨fun h ↦ hne h.2, _, he, rfl⟩

theorem Mantissa.points {whole fraction : List Char} (h : Mantissa whole fraction cs) :
    cs ≠ [] ∧ ∀ c ∈ cs, c.isDigit = true ∨ c = '.' := by
  cases h with
  | whole hne hd => exact ⟨hne, fun c hc ↦ .inl (hd c hc)⟩
  | pointed hne hd hf =>
    refine ⟨by simp, fun c hc ↦ ?_⟩
    rcases List.mem_append.1 hc with hc | hc
    · exact .inl (hd c hc)
    rcases List.mem_cons.1 hc with hc | hc
    · exact .inr hc
    · exact .inl (hf c hc)
  | fraction hne hf =>
    refine ⟨List.cons_ne_nil _ _, fun c hc ↦ ?_⟩
    rcases List.mem_cons.1 hc with hc | hc
    · exact .inr hc
    · exact .inl (hf c hc)

theorem Unsigned.head {d : Decimal} (h : Unsigned d cs) :
    ∃ c cs', cs = c :: cs' ∧ (c.isDigit = true ∨ c = '.') := by
  obtain ⟨hm, he⟩ := h
  obtain ⟨hne, hpoints⟩ := hm.points
  obtain ⟨c, cs', rfl⟩ := List.exists_cons_of_ne_nil hne
  exact ⟨c, _, rfl, hpoints c List.mem_cons_self⟩

theorem Unsigned.stops_sign {d : Decimal} (h : Unsigned d cs) :
    ∀ c ∈ cs.head?, c ≠ '-' ∧ c ≠ '+' := by
  obtain ⟨c, cs', rfl, hc⟩ := h.head
  rintro c ⟨⟩
  constructor <;> rintro rfl <;> simp at hc

theorem finite_eq_some {e : Extended} {x : Binary64} : e.finite? = some x ↔ e = .finite x := by
  cases e <;> simp [Extended.finite?]

theorem Written.head {x : Binary64} (h : Written x cs) :
    ∃ c cs', cs = c :: cs' ∧ (c.isDigit = true ∨ c = '-' ∨ c = '+' ∨ c = '.') := by
  obtain ⟨hsign, hd, -⟩ := h
  obtain ⟨c, cs', rfl, hc⟩ := hd.head
  cases hsign with
  | none => exact ⟨c, cs', rfl, hc.imp_right fun h ↦ .inr (.inr h)⟩
  | plus => exact ⟨'+', _, rfl, .inr (.inr (.inl rfl))⟩
  | minus => exact ⟨'-', _, rfl, .inr (.inl rfl)⟩

/-- A text is read as a finite number just if it is one of the texts of that number. -/
theorem readFinite_eq_some {x : Binary64} : readFinite? cs = some x ↔ Written x cs := by
  constructor
  · intro h
    rcases hsign : readSign cs with ⟨negative, rest⟩
    obtain ⟨sign, hs, rfl⟩ := exists_sign hsign
    obtain ⟨e, he, hx⟩ := Option.bind_eq_some_iff.1 h
    rw [readExtended?, hsign] at he
    dsimp only at he
    split at he
    · rename_i d hd
      cases he
      exact .intro hs (read_eq_some.1 hd) (finite_eq_some.1 hx)
    · split at he
      · cases he
        cases hx
      · split at he
        · cases he
          cases hx
        · cases he
  · rintro ⟨hs, hd, hround⟩
    rw [readFinite?, readExtended?, readSign_append hs hd.stops_sign]
    dsimp only
    rw [read_eq_some.2 hd]
    exact finite_eq_some.2 hround

end ActionCatalog.Decimal
