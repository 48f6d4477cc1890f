import ActionCatalog.Proofs.Binary64.Range
import ActionCatalog.Proofs.Decimal.Grammar
import ActionCatalog.Query.Evaluation

namespace ActionCatalog

namespace FieldValue

/-- Whether a value stands for a number: it is one, or the text of one with blanks around it. -/
inductive Coerces : FieldValue → Binary64 → Prop
  | integer {i : Int} {x : Binary64} (h : Binary64.ofInt i = .finite x) : Coerces (.integer i) x
  | number {n : Json.Number} {x : Binary64} (h : n.toExtended = .finite x) :
    Coerces (.parameter (.number n)) x
  | text {s : String} {x : Binary64} (h : Decimal.Written x (Text.trimList s.toList)) :
    Coerces (.text s) x
  | string {s : String} {x : Binary64} (h : Decimal.Written x (Text.trimList s.toList)) :
    Coerces (.parameter (.string s)) x

/-- Whether a value is a truth value or the text of one. -/
inductive IsFlag : FieldValue → Prop
  | flag (b : Bool) : IsFlag (.flag b)
  | bool (b : Bool) : IsFlag (.parameter (.bool b))
  | text {s : String} (h : s = "true" ∨ s = "false") : IsFlag (.text s)
  | string {s : String} (h : s = "true" ∨ s = "false") : IsFlag (.parameter (.string s))

inductive Scalar : FieldValue → Prop
  | text (s : String) : Scalar (.text s)
  | integer (i : Int) : Scalar (.integer i)
  | flag (b : Bool) : Scalar (.flag b)
  | string (s : String) : Scalar (.parameter (.string s))
  | number (n : Json.Number) : Scalar (.parameter (.number n))
  | bool (b : Bool) : Scalar (.parameter (.bool b))

/-- Whether it can be told if a value equals a literal. -/
inductive Comparable (v : FieldValue) : Literal → Prop
  | number {x y : Binary64} (h : v.Coerces y) : Comparable v (.number x)
  | flag {b : Bool} (h : v.IsFlag) : Comparable v (.flag b)
  | text {s : String} (h : v.Scalar) : Comparable v (.text s)

end FieldValue

inductive Operator.Ordering : Operator → Prop
  | greater : Ordering .greater
  | less : Ordering .less
  | greaterEqual : Ordering .greaterEqual
  | lessEqual : Ordering .lessEqual

def Operator.Relates (x n : Binary64) : Operator → Prop
  | greater => n < x
  | less => x < n
  | greaterEqual => n ≤ x
  | lessEqual => x ≤ n
  | equal => x.SameValue n
  | notEqual => ¬x.SameValue n
  | contains => False

/-- Whether the comparisons of a field with numbers are those of one number. -/
structure ComparesAs (x : Binary64) (meets : Operator → Binary64 → Prop) : Prop where
  less : ∀ n, meets .less n ↔ x < n
  equal : ∀ n, meets .equal n ↔ x.SameValue n
  greater : ∀ n, meets .greater n ↔ n < x
  exactlyOne : ∀ n, (meets .less n ∧ ¬meets .equal n ∧ ¬meets .greater n) ∨
    (¬meets .less n ∧ meets .equal n ∧ ¬meets .greater n) ∨
    (¬meets .less n ∧ ¬meets .equal n ∧ meets .greater n)
  greaterEqual : ∀ n, meets .greaterEqual n ↔ meets .greater n ∨ meets .equal n
  lessEqual : ∀ n, meets .lessEqual n ↔ meets .less n ∨ meets .equal n
  notEqual : ∀ n, meets .notEqual n ↔ ¬meets .equal n
  greater_of_lt : ∀ m n, m < n → meets .greater n → meets .greater m
  less_of_lt : ∀ m n, n < m → meets .less n → meets .less m

variable {r : ActionRecord} {name s : String} {v : FieldValue} {x n : Binary64}
  {operator : Operator} {literal : Literal}

theorem numberOfText_eq_some :
    numberOfText? s = some x ↔ Decimal.Written x (Text.trimList s.toList) :=
  Decimal.readFinite_eq_some

theorem flagOfText_isSome : (flagOfText? s).isSome ↔ s = "true" ∨ s = "false" := by
  unfold flagOfText?
  split
  · simp [*]
  split
  · simp [*]
  · simp [*]

namespace FieldValue

theorem number_eq_some : v.number? = some x ↔ v.Coerces x := by
  constructor
  · intro h
    cases v with
    | integer i => exact .integer (Decimal.finite_eq_some.1 h)
    | text s => exact .text (numberOfText_eq_some.1 h)
    | flag b => cases h
    | parameter w =>
      cases w with
      | number n =>
        cases h
        exact .number n.toExtended_eq
      | string s => exact .string (numberOfText_eq_some.1 h)
      | _ => cases h
  · intro h
    cases h with
    | integer h => exact Decimal.finite_eq_some.2 h
    | number h =>
      rename_i n
      rw [FieldValue.number?, Option.some.injEq]
      rw [n.toExtended_eq] at h
      exact Extended.finite.inj h
    | text h => exact numberOfText_eq_some.2 h
    | string h => exact numberOfText_eq_some.2 h

theorem flag_isSome : v.flag?.isSome ↔ v.IsFlag := by
  constructor
  · intro h
    cases v with
    | integer i => cases h
    | text s => exact .text (flagOfText_isSome.1 h)
    | flag b => exact .flag b
    | parameter w =>
      cases w with
      | bool b => exact .bool b
      | string s => exact .string (flagOfText_isSome.1 h)
      | _ => cases h
  · intro h
    cases h with
    | flag b => rfl
    | bool b => rfl
    | text h => exact flagOfText_isSome.2 h
    | string h => exact flagOfText_isSome.2 h

theorem text_isSome : v.text?.isSome ↔ v.Scalar := by
  constructor
  · intro h
    cases v with
    | integer i => exact .integer i
    | text s => exact .text s
    | flag b => exact .flag b
    | parameter w =>
      cases w with
      | bool b => exact .bool b
      | string s => exact .string s
      | number n => exact .number n
      | _ => cases h
  · intro h
    cases h <;> rfl

theorem equals_isSome : (v.equals? literal).isSome ↔ v.Comparable literal := by
  cases literal with
  | number x =>
    rw [equals?, Option.isSome_map, Option.isSome_iff_exists]
    constructor
    · rintro ⟨y, hy⟩
      exact .number (number_eq_some.1 hy)
    · intro h
      cases h with
      | number h => exact ⟨_, number_eq_some.2 h⟩
  | flag b =>
    rw [equals?, Option.isSome_map, flag_isSome]
    constructor
    · exact .flag
    · intro h
      cases h with
      | flag h => exact h
  | text s =>
    rw [equals?, Option.isSome_map, text_isSome]
    constructor
    · exact .text
    · intro h
      cases h with
      | text h => exact h

end FieldValue

namespace Predicate

theorem holds_eq (hv : r.field? name = some v) :
    holds ⟨name, operator, literal⟩ r = v.satisfies operator literal := by
  rw [holds, hv]

theorem holds_absent (h : r.field? name = none) : holds ⟨name, operator, literal⟩ r = false := by
  rw [holds, h]

theorem satisfies_number (hx : v.number? = some x) (hoperator : operator ≠ .contains) :
    v.satisfies operator (.number n) = true ↔ operator.Relates x n := by
  have hordered (relation : Binary64 → Binary64 → Bool) :
      v.ordered (.number n) relation = relation x n := by
    rw [FieldValue.ordered, hx, Literal.number?]
  have hequals : v.equals? (.number n) = some (decide (x.SameValue n)) := by
    rw [FieldValue.equals?, hx, Option.map_some]
  cases operator with
  | contains => exact absurd rfl hoperator
  | equal => rw [FieldValue.satisfies, hequals]; simp [Operator.Relates]
  | notEqual => rw [FieldValue.satisfies, hequals]; simp [Operator.Relates]
  | _ => rw [FieldValue.satisfies, hordered]; exact decide_eq_true_iff

theorem comparesAs (hv : r.field? name = some v) (hx : v.Coerces x) :
    ComparesAs x fun operator n ↦ holds ⟨name, operator, .number n⟩ r = true := by
  have hholds {operator : Operator} (hoperator : operator ≠ .contains) (n : Binary64) :
      holds ⟨name, operator, .number n⟩ r = true ↔ operator.Relates x n := by
    rw [holds_eq hv]
    exact satisfies_number (FieldValue.number_eq_some.2 hx) hoperator
  have hless (n : Binary64) : holds ⟨name, .less, .number n⟩ r = true ↔ x.units < n.units :=
    hholds (by decide) n
  have hgreater (n : Binary64) :
      holds ⟨name, .greater, .number n⟩ r = true ↔ n.units < x.units := hholds (by decide) n
  have hequal (n : Binary64) : holds ⟨name, .equal, .number n⟩ r = true ↔ x.units = n.units :=
    hholds (by decide) n
  have hlessEqual (n : Binary64) :
      holds ⟨name, .lessEqual, .number n⟩ r = true ↔ x.units ≤ n.units := hholds (by decide) n
  have hgreaterEqual (n : Binary64) :
      holds ⟨name, .greaterEqual, .number n⟩ r = true ↔ n.units ≤ x.units := hholds (by decide) n
  have hnotEqual (n : Binary64) :
      holds ⟨name, .notEqual, .number n⟩ r = true ↔ ¬x.units = n.units := hholds (by decide) n
  -- all comparisons are now comparisons of integers
  constructor
  · exact hless
  · exact hequal
  · exact hgreater
  · intro n
    rw [hless, hequal, hgreater]
    omega
  · intro n
    rw [hgreaterEqual, hgreater, hequal]
    omega
  · intro n
    rw [hlessEqual, hless, hequal]
    omega
  · intro n
    rw [hnotEqual, hequal]
  · intro m n hmn hn
    rw [hgreater] at hn ⊢
    exact Int.lt_trans hmn hn
  · intro m n hmn hn
    rw [hless] at hn ⊢
    exact Int.lt_trans hn hmn

theorem exists_relation (h : operator.Ordering) :
    ∃ relation, ∀ (v : FieldValue) (literal : Literal),
      v.satisfies operator literal = v.ordered literal relation := by
  cases h with
  | greater => exact ⟨fun x n ↦ n < x, fun _ _ ↦ rfl⟩
  | less => exact ⟨fun x n ↦ x < n, fun _ _ ↦ rfl⟩
  | greaterEqual => exact ⟨fun x n ↦ n ≤ x, fun _ _ ↦ rfl⟩
  | lessEqual => exact ⟨fun x n ↦ x ≤ n, fun _ _ ↦ rfl⟩

theorem not_satisfies_number (h : ∀ x, ¬v.Coerces x) (hoperator : operator ≠ .contains) :
    v.satisfies operator (.number n) = false := by
  have hnone : v.number? = none := by
    rw [Option.eq_none_iff_forall_ne_some]
    intro x hx
    exact h x (FieldValue.number_eq_some.1 hx)
  have hordered (relation : Binary64 → Binary64 → Bool) :
      v.ordered (.number n) relation = false := by
    rw [FieldValue.ordered, hnone]
  have hequals : v.equals? (.number n) = none := by
    rw [FieldValue.equals?, hnone, Option.map_none]
  cases operator with
  | contains => exact absurd rfl hoperator
  | equal => rw [FieldValue.satisfies, hequals]; rfl
  | notEqual => rw [FieldValue.satisfies, hequals]; rfl
  | _ => exact hordered _

theorem satisfies_equality (v : FieldValue) (literal : Literal) :
    ¬(v.satisfies .equal literal = true ∧ v.satisfies .notEqual literal = true) ∧
      ((v.satisfies .equal literal = false ∧ v.satisfies .notEqual literal = false) ↔
        ¬v.Comparable literal) := by
  rw [← FieldValue.equals_isSome]
  unfold FieldValue.satisfies
  cases v.equals? literal with
  | none => simp
  | some b => cases b <;> simp

theorem satisfies_text (h : operator.Ordering) : v.satisfies operator (.text s) = true ↔
    ∃ n, Decimal.Written n (Text.trimList s.toList) ∧
      v.satisfies operator (.number n) = true := by
  obtain ⟨relation, hrelation⟩ := exists_relation h
  simp only [hrelation, ← numberOfText_eq_some, FieldValue.ordered, Literal.number?]
  cases numberOfText? s with
  | none => cases v.number? <;> simp
  | some n => simp

theorem signedWord_mem (n : Nat) :
    -2 ^ 63 ≤ ActionRecord.signedWord n ∧ ActionRecord.signedWord n < 2 ^ 63 := by
  unfold ActionRecord.signedWord
  have hlower := Int.le_bmod (x := n) (m := 2 ^ 64) (by decide)
  have hupper := Int.bmod_lt (x := n) (m := 2 ^ 64) (by decide)
  omega

theorem integer_mem (hframe : -2 ^ 63 ≤ r.frame ∧ r.frame < 2 ^ 63)
    (hduration : -2 ^ 63 ≤ r.duration ∧ r.duration < 2 ^ 63) {i : Int}
    (h : r.field? name = some (.integer i)) : -2 ^ 63 ≤ i ∧ i < 2 ^ 63 := by
  rcases Option.or_eq_some_iff.1 h with h | ⟨-, h⟩
  · unfold ActionRecord.attribute? at h
    split at h
    all_goals simp only [Option.some.injEq, FieldValue.integer.injEq, reduceCtorEq] at h
    · rw [← h]
      exact signedWord_mem r.trackIndex
    · rw [← h]
      exact signedWord_mem r.actionIndex
    · rw [← h]
      exact hframe
    · rw [← h]
      exact hduration
  · obtain ⟨w, -, hw⟩ := Option.map_eq_some_iff.1 h
    cases hw

/-- The comparisons of a field of a record whose times fit words of 64 bits: with numbers, in case
the field stands for a number and in case it does not, by equality with any literal, and by order
with texts. -/
theorem holds_comparisons (r : ActionRecord) (name : String)
    (hframe : -2 ^ 63 ≤ r.frame ∧ r.frame < 2 ^ 63)
    (hduration : -2 ^ 63 ≤ r.duration ∧ r.duration < 2 ^ 63) :
    (∀ v x, r.field? name = some v → v.Coerces x →
      ComparesAs x fun operator n ↦ holds ⟨name, operator, .number n⟩ r = true) ∧
    (∀ i, r.field? name = some (.integer i) → ∃ x, (FieldValue.integer i).Coerces x) ∧
    ((∀ v x, r.field? name = some v → ¬v.Coerces x) → ∀ operator ≠ .contains, ∀ n,
      holds ⟨name, operator, .number n⟩ r = false) ∧
    (∀ literal,
      ¬(holds ⟨name, .equal, literal⟩ r = true ∧ holds ⟨name, .notEqual, literal⟩ r = true) ∧
      ((holds ⟨name, .equal, literal⟩ r = false ∧ holds ⟨name, .notEqual, literal⟩ r = false) ↔
        ∀ v, r.field? name = some v → ¬v.Comparable literal)) ∧
    ∀ operator, operator.Ordering → ∀ s, holds ⟨name, operator, .text s⟩ r = true ↔
      ∃ n, Decimal.Written n (Text.trimList s.toList) ∧
        holds ⟨name, operator, .number n⟩ r = true := by
  refine ⟨fun v x ↦ comparesAs, ?_, ?_, ?_, ?_⟩
  · intro i hi
    have hmem := integer_mem hframe hduration hi
    obtain ⟨x, hx⟩ := Binary64.exists_ofInt (i := i) (by omega)
    exact ⟨x, .integer hx⟩
  · intro h operator hoperator n
    cases hv : r.field? name with
    | none => exact holds_absent hv
    | some v =>
      rw [holds_eq hv]
      exact not_satisfies_number (fun x ↦ h v x hv) hoperator
  · intro literal
    cases hv : r.field? name with
    | none => simp [holds_absent hv]
    | some v =>
      simp only [holds_eq hv, Option.some.injEq, forall_eq']
      exact satisfies_equality v literal
  · intro operator hoperator s
    cases hv : r.field? name with
    | none => simp [holds_absent hv]
    | some v =>
      simp only [holds_eq hv]
      exact satisfies_text hoperator

theorem holds_comparisons_speed :
    let r : ActionRecord :=
      { (default : ActionRecord) with parameters := .object [("speed", .string " 2.5 ")] }
    ComparesAs ⟨false, 5 * 2 ^ 50, 1023, by decide⟩
        (fun operator n ↦ holds ⟨"speed", operator, .number n⟩ r = true) ∧
      ∀ n, holds ⟨"range", .notEqual, .number n⟩ r = false := by
  intro r
  have hspeed : r.field? "speed" = some (.parameter (.string " 2.5 ")) := by decide +kernel
  have hrange : r.field? "range" = none := by decide +kernel
  have hnumber : (FieldValue.parameter (.string " 2.5 ")).Coerces
      ⟨false, 5 * 2 ^ 50, 1023, by decide⟩ := .string (numberOfText_eq_some.1 (by decide +kernel))
  constructor
  · exact (holds_comparisons r "speed" (by decide) (by decide)).1 _ _ hspeed hnumber
  · intro n
    obtain ⟨-, -, hnone, -⟩ := holds_comparisons r "range" (by decide) (by decide)
    exact hnone (by simp [hrange]) .notEqual (by decide) n

end Predicate

end ActionCatalog
