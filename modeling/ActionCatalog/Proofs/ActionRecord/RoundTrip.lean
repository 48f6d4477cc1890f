import ActionCatalog.ActionRecord.Encoding
import ActionCatalog.Proofs.Json.Readers

namespace ActionCatalog.ActionRecord

open Json (Value Scalar Acceptor Written Gives bytesOf inWord?)

variable {r : ActionRecord} {steps n : Nat} {i : Int}

/-- Whether a record is one that can be read from a document or an artifact. -/
structure WellFormed (r : ActionRecord) : Prop where
  frame : -2 ^ 63 ≤ r.frame ∧ r.frame < 2 ^ 63
  duration : -2 ^ 63 ≤ r.duration ∧ r.duration < 2 ^ 63
  parameters : r.parameters.Nested 124

/-- What reading the text of a record gives. -/
def reread? (r : ActionRecord) : Option ActionRecord := do
  let trackIndex ← inWord? r.trackIndex
  let actionIndex ← inWord? r.actionIndex
  let parameters ← r.parameters.reread?
  return { r with trackIndex, actionIndex, parameters }

theorem reread_eq_some {r' : ActionRecord} : r.reread? = some r' ↔
    r.trackIndex < 2 ^ 64 ∧ r.actionIndex < 2 ^ 64 ∧
      ∃ p, r.parameters.reread? = some p ∧ r' = { r with parameters := p } := by
  rw [reread?, inWord?, inWord?]
  split <;> split <;> cases r.parameters.reread? <;> simp_all [eq_comm]

theorem reread_eq_self : r.reread? = some r ↔ r.trackIndex < 2 ^ 64 ∧ r.actionIndex < 2 ^ 64 ∧
    ∀ x ∈ r.parameters.doubles, x.reread? = some x := by
  rw [reread_eq_some, ← Value.reread_eq_self]
  refine and_congr_right fun _ ↦ and_congr_right fun _ ↦ ⟨?_, fun h ↦ ⟨_, h, rfl⟩⟩
  rintro ⟨p, hp, heq⟩
  rw [hp, congrArg parameters heq]

/-- A record but for its parameters. -/
def outline (r : ActionRecord) : ActionRecord := { r with parameters := .null }

theorem map_outline_of_reread {rs rs' : List ActionRecord} (h : rs.mapM reread? = some rs') :
    rs.map outline = rs'.map outline := by
  rw [← List.forall₂_eq_eq_eq, List.forall₂_map_left_iff, List.forall₂_map_right_iff]
  refine (mapM_eq_some.1 h).imp fun r r' hr ↦ ?_
  obtain ⟨-, -, p, -, rfl⟩ := reread_eq_some.1 hr
  rfl

def values (r : ActionRecord) : List Value := [
  .string r.skillFile, .string r.skillName, .string r.trackName, .ofNat r.trackIndex,
  .bool r.trackEnabled, .ofNat r.actionIndex, .ofInt r.frame, .ofInt r.duration, .bool r.enabled,
  .string r.actionType, .string r.locator, r.parameters, .string r.summary]

def Entry.written (e : Entry) (v : Value) : Written ActionRecord where
  member := ⟨e.name, false, .judging e.take⟩
  value := v
  put? := v.reread?.bind fun w ↦ (e.take w).toOption

def writtenEntries (r : ActionRecord) : List (Written ActionRecord) :=
  List.zipWith Entry.written entries r.values

section Entries

variable {α : Type} (name : String)

theorem fill_accepting (accept : Acceptor α) {s : Scalar} (put : α → ActionRecord → ActionRecord)
    (hexact : s.toValue.reread? = some s.toValue) :
    Written.fill r ((Entry.accepting name accept put).written s.toValue) =
      (accept (.scalar s)).toOption.map fun a ↦ put a r := by
  have hfound : Json.Found.ofValue s.toValue = .scalar s := by cases s <;> rfl
  change (s.toValue.reread?.bind fun w ↦ ((accept (.ofValue w)).map put).toOption).map _ = _
  rw [hexact, Option.bind_some, hfound, toOption_map, Option.map_map]
  rfl

theorem fill_text (put : String → ActionRecord → ActionRecord) (t : String) :
    Written.fill r ((Entry.text name put).written (.string t)) = some (put t r) :=
  fill_accepting name (.string "a string") (s := .string t) put rfl

theorem fill_flag (put : Bool → ActionRecord → ActionRecord) (b : Bool) :
    Written.fill r ((Entry.flag name put).written (.bool b)) = some (put b r) :=
  fill_accepting name .bool (s := .bool b) put rfl

theorem fill_index (put : Nat → ActionRecord → ActionRecord) :
    Written.fill r ((Entry.index name put).written (.ofNat n)) =
      (inWord? n).map fun k ↦ put k r := by
  by_cases h : n < 2 ^ 64
  · have hfill := fill_accepting name (r := r) (.natural "usize" (2 ^ 64))
      (s := .number (.integer n ⟨by omega, by omega⟩)) put rfl
    rw [Acceptor.natural_of_lt "usize" _ h] at hfill
    rw [Value.ofNat_of_lt h, inWord?, if_pos h]
    exact hfill
  · rw [Value.ofNat_of_not_lt h, inWord?, if_neg h]
    exact fill_accepting name (.natural "usize" (2 ^ 64)) (s := .null) put rfl

theorem fill_integer (put : Int → ActionRecord → ActionRecord) (h : -2 ^ 63 ≤ i ∧ i < 2 ^ 63) :
    Written.fill r ((Entry.integer name put).written (.ofInt i)) = some (put i r) := by
  have hfits : -2 ^ 63 ≤ i ∧ i < 2 ^ 64 := ⟨h.1, by omega⟩
  have hfill := fill_accepting name (r := r) (.integer "i64" (-2 ^ 63) (2 ^ 63))
    (s := .number (.integer i hfits)) put rfl
  rw [Acceptor.integer_of_mem "i64" hfits h] at hfill
  rw [Value.ofInt_of_fits hfits]
  exact hfill

theorem fill_value (put : Value → ActionRecord → ActionRecord) (v : Value) :
    Written.fill r (Entry.written ⟨name, fun w ↦ .ok (put w)⟩ v) =
      v.reread?.map fun w ↦ put w r := by
  change ((v.reread?.bind fun w ↦ some (put w)).map _) = _
  cases v.reread? <;> rfl

end Entries

theorem fill_entries (h : r.WellFormed) :
    r.writtenEntries.foldlM Written.fill default = r.reread? := by
  unfold writtenEntries entries values
  simp only [List.zipWith, List.foldlM_cons, List.foldlM_nil, fill_text, fill_flag, fill_index,
    fill_integer _ _ h.frame, fill_integer _ _ h.duration, fill_value, Option.bind_eq_bind,
    Option.bind_some, Option.pure_def]
  rw [reread?]
  cases inWord? r.trackIndex <;> cases inWord? r.actionIndex <;> cases r.parameters.reread? <;> rfl

theorem nested_ofNat (depth n : Nat) : (Value.ofNat n).Nested depth := by
  by_cases h : n < 2 ^ 64
  · rw [Value.ofNat_of_lt h]
    exact .scalar (.number _)
  · rw [Value.ofNat_of_not_lt h]
    exact .scalar .null

theorem nested_ofInt (depth : Nat) (i : Int) : (Value.ofInt i).Nested depth := by
  rw [Value.ofInt]
  split
  · exact .scalar (.number _)
  · exact .scalar .null

theorem nested_values (h : r.WellFormed) : ∀ v ∈ r.values, v.Nested 124 := by
  simp only [values, List.forall_mem_cons, List.not_mem_nil, false_imp_iff, implies_true, and_true]
  exact ⟨.scalar (.string _), .scalar (.string _), .scalar (.string _), nested_ofNat _ _,
    .scalar (.bool _), nested_ofNat _ _, nested_ofInt _ _, nested_ofInt _ _, .scalar (.bool _),
    .scalar (.string _), .scalar (.string _), h.parameters, .scalar (.string _)⟩

theorem members_writtenEntries : r.writtenEntries.map Written.member =
    entries.map fun e ↦ ⟨e.name, false, .judging e.take⟩ := rfl

theorem object_writtenEntries : .object (r.writtenEntries.map Written.entry) = r.toJson := rfl

theorem gives_reader (h : r.WellFormed) (hsteps : (bytesOf r.toJson.compact).length < steps) :
    Gives reader steps 125 r.toJson r.reread? := by
  have hread : ∀ w ∈ r.writtenEntries, (bytesOf w.value.compact).length < steps →
      Gives w.member.read steps 124 w.value w.put? := by
    intro w hw hsize
    obtain ⟨i, hi, rfl⟩ := List.getElem_of_mem hw
    have hboth : i < entries.length ∧ i < r.values.length := by
      rw [writtenEntries, List.length_zipWith] at hi
      exact Nat.lt_min.1 hi
    have hwritten : r.writtenEntries[i] =
        Entry.written (entries.get ⟨i, hboth.1⟩) (r.values.get ⟨i, hboth.2⟩) :=
      List.getElem_zipWith
    rw [hwritten] at hsize ⊢
    exact Json.Reader.gives_judging _ (nested_values h _ (List.getElem_mem hboth.2)) hsize
  have hnodup : (r.writtenEntries.map fun w ↦ w.member.name).Nodup := by
    change (entries.map Entry.name).Nodup
    decide
  rw [← object_writtenEntries] at hsteps ⊢
  rw [← fill_entries h, reader, ← members_writtenEntries (r := r)]
  exact Json.Reader.gives_structured "an action record" default hread hnodup hsteps

end ActionCatalog.ActionRecord
