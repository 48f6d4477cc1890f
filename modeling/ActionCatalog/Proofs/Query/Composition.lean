import ActionCatalog.Proofs.Statistics
import Mathlib.Data.List.Induction

namespace ActionCatalog

namespace Selection

variable {α : Type}

def push (limit : Nat) (s : Selection α) (a : α) : Selection α :=
  ⟨if limit = 0 ∨ s.shown.length < limit then s.shown ++ [a] else s.shown, s.total + 1⟩

theorem push_upTo (limit : Nat) (items : List α) (a : α) :
    (upTo limit items).push limit a = upTo limit (items ++ [a]) := by
  unfold upTo push
  by_cases hzero : limit = 0
  · simp [hzero]
  · by_cases hroom : items.length < limit
    · have htake : items.take limit = items := List.take_of_length_le (by omega)
      have htake' : (items ++ [a]).take limit = items ++ [a] :=
        List.take_of_length_le (by rw [List.length_append]; exact hroom)
      simp [hzero, htake, htake', hroom]
    · have hfull : limit ≤ items.length := by omega
      simp [hzero, hroom, List.take_append_of_le_length hfull]

end Selection

namespace Query

variable {q : Query} {r : ActionRecord} {records : List ActionRecord} {limit : Nat}
  {actionType : Option String} {t : String} {ps qs : List Predicate}

structure Matches (q : Query) (r : ActionRecord) : Prop where
  actionType : ∀ t ∈ q.actionType, r.actionType = t
  predicates : ∀ p ∈ q.predicates, p.holds r = true

theorem selects_iff : q.selects r = true ↔ q.Matches r := by
  obtain ⟨actionType, ps⟩ := q
  have hmatches : (Query.mk actionType ps).Matches r ↔
      (∀ t ∈ actionType, r.actionType = t) ∧ ∀ p ∈ ps, p.holds r = true :=
    ⟨fun h ↦ ⟨h.actionType, h.predicates⟩, fun h ↦ ⟨h.1, h.2⟩⟩
  rw [hmatches, selects, Bool.and_eq_true, List.all_eq_true]
  cases actionType <;> simp

instance (q : Query) (r : ActionRecord) : Decidable (q.Matches r) :=
  decidable_of_iff _ selects_iff

def matching (q : Query) (records : List ActionRecord) : List ActionRecord :=
  records.filter fun r ↦ decide (q.Matches r)

/-- One pass over the records that counts the matching ones. -/
def scan (q : Query) (limit : Nat) (records : List ActionRecord) : Selection ActionRecord :=
  records.foldl (fun s r ↦ if q.Matches r then s.push limit r else s) ⟨[], 0⟩

theorem evaluate_eq (q : Query) (records : List ActionRecord) (limit : Nat) :
    q.evaluate records limit = .upTo limit (q.matching records) := by
  unfold evaluate matching
  congr 2
  funext r
  rw [Bool.eq_iff_iff, selects_iff, decide_eq_true_iff]

/-- After any records the pass has what evaluating the query on them gives. -/
theorem scan_eq (q : Query) (limit : Nat) (records : List ActionRecord) :
    q.scan limit records = q.evaluate records limit := by
  rw [evaluate_eq]
  induction records using List.reverseRecOn with
  | nil => simp [scan, matching, Selection.upTo]
  | append_singleton records r ih =>
    rw [scan, List.foldl_append, ← scan, ih, List.foldl_cons, List.foldl_nil, matching, matching,
      List.filter_append]
    split
    · rename_i hmatches
      rw [Selection.push_upTo, List.filter_singleton, decide_eq_true hmatches]
      rfl
    · rename_i hmatches
      rw [List.filter_singleton, decide_eq_false hmatches]
      simp

theorem evaluate_congr {q q' : Query} (h : ∀ r, q.Matches r ↔ q'.Matches r)
    (records : List ActionRecord) (limit : Nat) :
    q.evaluate records limit = q'.evaluate records limit := by
  simp only [evaluate_eq, matching, h]

theorem matches_congr (h : ∀ p, p ∈ ps ↔ p ∈ qs) :
    (Query.mk actionType ps).Matches r ↔ (Query.mk actionType qs).Matches r := by
  constructor
  · intro hps
    exact ⟨hps.actionType, fun p hp ↦ hps.predicates p ((h p).2 hp)⟩
  · intro hqs
    exact ⟨hqs.actionType, fun p hp ↦ hqs.predicates p ((h p).1 hp)⟩

def hasType (t : String) : Predicate := ⟨"action_type", .equal, .text t⟩

theorem holds_hasType : (hasType t).holds r = true ↔ r.actionType = t := by
  rw [hasType, holds_text]
  simp [ActionRecord.fieldText?, ActionRecord.field?, ActionRecord.attribute?, FieldValue.text?]

theorem matches_typed : (Query.mk (some t) (ps ++ qs)).Matches r ↔
    (Query.mk none (ps ++ hasType t :: qs)).Matches r := by
  constructor
  · intro h
    refine ⟨by simp, fun p hp ↦ ?_⟩
    rcases List.mem_append.1 hp with hp | hp
    · exact h.predicates p (List.mem_append_left qs hp)
    rcases List.mem_cons.1 hp with rfl | hp
    · exact holds_hasType.2 (h.actionType t rfl)
    · exact h.predicates p (List.mem_append_right ps hp)
  · intro h
    refine ⟨fun t' ht' ↦ ?_, fun p hp ↦ h.predicates p ?_⟩
    · obtain rfl := Option.some.inj ht'
      exact holds_hasType.1 (h.predicates _ (by simp))
    · simp only [List.mem_append, List.mem_cons] at hp ⊢
      tauto

theorem matches_append : (Query.mk actionType (ps ++ qs)).Matches r ↔
    (Query.mk actionType ps).Matches r ∧ ∀ p ∈ qs, p.holds r = true := by
  constructor
  · intro h
    exact ⟨⟨h.actionType, fun p hp ↦ h.predicates p (List.mem_append_left qs hp)⟩,
      fun p hp ↦ h.predicates p (List.mem_append_right ps hp)⟩
  · rintro ⟨hps, hqs⟩
    refine ⟨hps.actionType, fun p hp ↦ ?_⟩
    rcases List.mem_append.1 hp with hp | hp
    · exact hps.predicates p hp
    · exact hqs p hp

theorem matching_append (actionType : Option String) (ps qs : List Predicate)
    (records : List ActionRecord) : (Query.mk actionType (ps ++ qs)).matching records =
      ((Query.mk actionType ps).matching records).filter fun r ↦ qs.all (·.holds r) := by
  unfold matching
  rw [List.filter_filter]
  refine List.filter_congr fun r _ ↦ ?_
  rw [Bool.eq_iff_iff, Bool.and_eq_true, decide_eq_true_iff, decide_eq_true_iff, matches_append,
    List.all_eq_true, and_comm]

theorem shown_evaluate (q : Query) (records : List ActionRecord) :
    (q.evaluate records 0).shown = q.matching records := by
  rw [evaluate_eq]
  rfl

/-- What a query selects, by the limit, by its predicates in any order and number, by its type as
one more predicate anywhere among them, and by a list of further predicates. -/
theorem evaluate_composes (q : Query) (records : List ActionRecord) (limit : Nat) :
    q.evaluate records limit = q.scan limit records ∧
    (q.evaluate records limit).shown =
      (if limit = 0 then q.matching records else (q.matching records).take limit) ∧
    (∀ limit, (q.evaluate records limit).total = (q.matching records).length) ∧
    (∀ ps, (∀ p, p ∈ ps ↔ p ∈ q.predicates) →
      (Query.mk q.actionType ps).evaluate records limit = q.evaluate records limit) ∧
    (∀ t ps qs, q = ⟨some t, ps ++ qs⟩ →
      (Query.mk none (ps ++ hasType t :: qs)).evaluate records limit =
        q.evaluate records limit) ∧
    ∀ ps,
      ((Query.mk q.actionType (q.predicates ++ ps)).evaluate records 0).shown =
        ((q.evaluate records 0).shown.filter fun r ↦ ps.all (·.holds r)) ∧
      ((Query.mk q.actionType (q.predicates ++ ps)).evaluate records 0).shown.Sublist
        (q.evaluate records 0).shown ∧
      ((Query.mk q.actionType (q.predicates ++ ps)).evaluate records limit).total ≤
        (q.evaluate records limit).total := by
  have hfurther (ps : List Predicate) :
      ((Query.mk q.actionType (q.predicates ++ ps)).matching records).Sublist
        (q.matching records) := by
    rw [matching_append]
    exact List.filter_sublist
  refine ⟨(scan_eq q limit records).symm, ?_, ?_, ?_, ?_, fun ps ↦ ⟨?_, ?_, ?_⟩⟩
  · rw [evaluate_eq]
    rfl
  · intro limit
    rw [evaluate_eq]
    rfl
  · intro ps h
    exact evaluate_congr (fun r ↦ matches_congr h) records limit
  · rintro t ps qs rfl
    exact evaluate_congr (fun r ↦ matches_typed.symm) records limit
  · rw [shown_evaluate, matching_append, shown_evaluate]
  · rw [shown_evaluate, shown_evaluate]
    exact hfurther ps
  · rw [evaluate_eq, evaluate_eq]
    exact (hfurther ps).length_le

theorem evaluate_composes_damage :
    let action (actionType : String) (frame : Int) : ActionRecord :=
      { (default : ActionRecord) with actionType, frame, enabled := true }
    let records := [action "Damage" 30, action "Damage" 12, action "Move" 12, action "Damage" 14]
    let enabled : Predicate := ⟨"enabled", .equal, .flag true⟩
    let early : Predicate := ⟨"frame", .notEqual, .text "30"⟩
    (∀ p, p ∈ [early, enabled, early] ↔ p ∈ [enabled, early]) ∧
      (Query.mk (some "Damage") [early, enabled, early]).evaluate records 1 =
        ⟨[action "Damage" 12], 2⟩ ∧
      (Query.mk none [enabled, hasType "Damage", early]).evaluate records 1 =
        ⟨[action "Damage" 12], 2⟩ := by
  intro action records enabled early
  have hsame : ∀ p, p ∈ [early, enabled, early] ↔ p ∈ [enabled, early] := by
    intro p
    simp only [List.mem_cons, List.not_mem_nil, or_false]
    tauto
  have hfound : (Query.mk (some "Damage") [enabled, early]).evaluate records 1 =
      ⟨[action "Damage" 12], 2⟩ := by decide +kernel
  obtain ⟨-, -, -, hreordered, htyped, -⟩ :=
    evaluate_composes ⟨some "Damage", [enabled, early]⟩ records 1
  refine ⟨hsame, ?_, ?_⟩
  · exact (hreordered _ hsame).trans hfound
  · exact (htyped "Damage" [enabled] [early] rfl).trans hfound

end Query

end ActionCatalog
