import ActionCatalog.Proofs.Keyed
import ActionCatalog.Proofs.Query.CanonicalText
import ActionCatalog.Statistics

namespace ActionCatalog

def ActionRecord.fieldText? (r : ActionRecord) (name : String) : Option String :=
  (r.field? name).bind FieldValue.text?

/-- Asks for a text in a field as well. -/
def Query.withText (q : Query) (field text : String) : Query :=
  { q with predicates := q.predicates ++ [⟨field, .equal, .text text⟩] }

def Query.everything : Query := ⟨none, []⟩

variable {q : Query} {name key : String} {r : ActionRecord} {records : List ActionRecord}
  {groups : List (String × Group)}

@[simp] theorem Query.selects_everything (r : ActionRecord) : everything.selects r = true := rfl

theorem Query.holds_text (name key : String) (r : ActionRecord) :
    (Predicate.mk name .equal (.text key)).holds r = (r.fieldText? name == some key) := by
  unfold Predicate.holds ActionRecord.fieldText?
  cases r.field? name with
  | none => rfl
  | some v =>
    simp only [FieldValue.satisfies, FieldValue.equals?, Option.bind_some]
    cases v.text? <;> simp

theorem Query.selects_withText :
    (q.withText name key).selects r = (q.selects r && r.fieldText? name == some key) := by
  simp only [selects, withText, List.all_append, List.all_cons, List.all_nil, holds_text,
    Bool.and_true, Bool.and_assoc]

theorem Query.wellFormed_withText (h : q.WellFormed) (hname : IsName name.toList) :
    (q.withText name key).WellFormed := by
  refine ⟨h.actionType, fun p hp ↦ ?_⟩
  rcases List.mem_append.1 hp with hp | hp
  · exact h.fields p hp
  · rw [List.mem_singleton.1 hp]
    exact hname

theorem Query.total_evaluate (q : Query) (records : List ActionRecord) (limit : Nat) :
    (q.evaluate records limit).total = records.countP q.selects :=
  List.countP_eq_length_filter.symm

namespace Statistics

/-- The groups count the records they are made of, each in the group of its text. -/
structure Counts (name : String) (records : List ActionRecord) (groups : List (String × Group)) :
    Prop where
  sorted : Keyed.Sorted groups
  positive : ∀ g ∈ groups, 0 < g.2.count
  sum : ∀ p : String → Bool, ((groups.filter fun g ↦ p g.1).map fun g ↦ g.2.count).sum =
    records.countP fun r ↦ p (groupOf name r)

theorem Counts.add (h : Counts name records groups) (r : ActionRecord) :
    Counts name (records ++ [r]) (addRecord name groups r) := by
  refine ⟨Keyed.sorted_alter h.sorted, fun g hg ↦ ?_, fun p ↦ ?_⟩
  · rcases Keyed.mem_of_mem_alter hg with ⟨o, rfl⟩ | hg
    · exact Nat.succ_pos _
    · exact h.positive g hg
  · have hcount : ∀ o : Option Group, ((o.getD .empty).add r).count = o.elim 0 Group.count + 1 := by
      intro o
      cases o <;> rfl
    rw [addRecord, Keyed.sum_alter hcount, h.sum, List.countP_append, List.countP_singleton]

theorem counts_foldl (name : String) (records : List ActionRecord) :
    Counts name records (records.foldl (addRecord name) []) := by
  suffices ∀ before groups, Counts name before groups →
      Counts name (before ++ records) (records.foldl (addRecord name) groups) from
    this [] [] ⟨.nil, List.forall_mem_nil _, fun _ ↦ rfl⟩
  induction records with
  | nil =>
    intro before groups h
    rw [List.append_nil]
    exact h
  | cons r records ih =>
    intro before groups h
    rw [List.append_cons]
    exact ih _ _ (h.add r)

def countOf (st : Statistics) (key : String) : Nat :=
  (st.groups.lookup key).elim 0 GroupSummary.count

theorem groups_collect (records : List ActionRecord) (name : String) :
    (collect records name).groups =
      (records.foldl (addRecord name) []).map (Prod.map id Group.summary) := rfl

theorem sorted_collect (records : List ActionRecord) (name : String) :
    Keyed.Sorted (collect records name).groups := by
  rw [groups_collect]
  exact List.pairwise_map.2 (counts_foldl name records).sorted

theorem sum_collect (records : List ActionRecord) (name : String) (p : String → Bool) :
    (((collect records name).groups.filter fun g ↦ p g.1).map fun g ↦ g.2.count).sum =
      records.countP fun r ↦ p (groupOf name r) := by
  rw [groups_collect, List.filter_map, List.map_map]
  exact (counts_foldl name records).sum p

theorem countOf_collect (records : List ActionRecord) (name key : String) :
    (collect records name).countOf key = records.countP fun r ↦ groupOf name r = key := by
  rw [countOf, ← Keyed.sum_key (sorted_collect records name)]
  exact sum_collect records name (· = key)

theorem mem_keys_collect : key ∈ (collect records name).groups.map Prod.fst ↔
    0 < (collect records name).countOf key := by
  constructor
  · intro h
    obtain ⟨⟨k, g⟩, hg, rfl⟩ := List.mem_map.1 h
    rw [countOf, ← Keyed.sum_key (sorted_collect records name),
      Keyed.filter_key (sorted_collect records name) hg]
    rw [groups_collect] at hg
    obtain ⟨⟨k', g'⟩, hg', heq⟩ := List.mem_map.1 hg
    obtain ⟨-, rfl⟩ := Prod.mk.inj heq
    exact (counts_foldl name records).positive _ hg'
  · intro h
    unfold countOf at h
    cases hl : (collect records name).groups.lookup key with
    | none => simp [hl] at h
    | some g => exact List.mem_map_of_mem (Keyed.mem_of_lookup hl)

theorem groupOf_eq (hkey : key ≠ noGroup) :
    groupOf name r = key ↔ r.fieldText? name = some key := by
  change (r.fieldText? name).getD noGroup = key ↔ _
  cases r.fieldText? name with
  | none => simp [hkey.symm]
  | some s => simp

theorem groupOf_eq_noGroup :
    groupOf name r = noGroup ↔ r.fieldText? name = none ∨ r.fieldText? name = some noGroup := by
  change (r.fieldText? name).getD noGroup = noGroup ↔ _
  cases r.fieldText? name <;> simp

/-- Without a text, or with the very text that stands for its absence. -/
theorem countP_noGroup (name : String) (records : List ActionRecord) :
    records.countP (fun r ↦ groupOf name r = noGroup) =
      records.countP (fun r ↦ r.fieldText? name = none) +
        records.countP (fun r ↦ r.fieldText? name = some noGroup) := by
  induction records with
  | nil => rfl
  | cons r records ih =>
    rw [List.countP_cons, List.countP_cons, List.countP_cons, ih]
    simp only [groupOf_eq_noGroup, decide_eq_true_eq]
    by_cases hnone : r.fieldText? name = none
    · simp only [hnone, true_or, if_true, reduceCtorEq, if_false]
      omega
    · simp only [hnone, false_or, if_false]
      omega

/-- The statistics count what the query selects, every record in one group; a group counts what the
query selects that asks for its key as well. -/
theorem compute_query (records : List ActionRecord) (name : String) {filter : Option Query}
    (hfilter : ∀ q ∈ filter, q.WellFormed) (limit : Nat) :
    let st := compute records name filter
    let q := filter.getD .everything
    let keys := st.groups.map Prod.fst
    let selected := records.filter q.selects
    st.total = filter.elim records.length (fun f ↦ (f.evaluate records limit).total) ∧
      (st.groups.map fun g ↦ g.2.count).sum = st.total ∧
      keys.Nodup ∧ (∀ key, key ∈ keys ↔ 0 < st.countOf key) ∧
      (st.countOf noGroup = selected.countP (fun r ↦ r.fieldText? name = none) +
        selected.countP (fun r ↦ r.fieldText? name = some noGroup)) ∧
      (Query.IsName name.toList → ∀ key, key ≠ noGroup →
        Query.read (q.withText name key).text = .ok (q.withText name key) ∧
          st.countOf key = ((q.withText name key).evaluate records limit).total ∧
          (((q.withText name key).evaluate records limit).total = 0 → key ∉ keys)) := by
  intro st q keys selected
  have hselects : (fun r ↦ filter.all fun f : Query ↦ f.selects r) = q.selects := by
    funext r
    cases filter <;> rfl
  -- without a filter the query that every record matches takes its place
  have hst : st = collect selected name := by
    change collect _ name = collect _ name
    rw [hselects]
  have hq : q.WellFormed := by
    cases filter with
    | none => exact ⟨fun t ht ↦ (Option.not_mem_none t ht).elim, List.forall_mem_nil _⟩
    | some f => exact hfilter f rfl
  have hkeys : ∀ key, key ∈ keys ↔ 0 < st.countOf key := by
    intro key
    change key ∈ st.groups.map Prod.fst ↔ _
    rw [hst]
    exact mem_keys_collect
  have hcount : ∀ key, key ≠ noGroup →
      st.countOf key = ((q.withText name key).evaluate records limit).total := by
    intro key hkey
    rw [hst, countOf_collect, Query.total_evaluate, List.countP_filter]
    refine List.countP_congr fun r _ ↦ ?_
    simp [groupOf_eq hkey, Query.selects_withText, and_comm]
  refine ⟨?_, ?_, ?_, hkeys, ?_, fun hname key hkey ↦ ⟨?_, hcount key hkey, fun h ↦ ?_⟩⟩
  · rw [hst]
    cases filter with
    | none => exact congrArg List.length (List.filter_eq_self.2 fun r _ ↦ rfl)
    | some f => rfl
  · have hsum := sum_collect selected name fun _ ↦ true
    rw [← hst] at hsum
    simpa [hst, collect] using hsum
  · change (st.groups.map Prod.fst).Nodup
    rw [hst]
    exact List.pairwise_map.2 ((sorted_collect selected name).imp fun h ↦ h.ne)
  · rw [hst, countOf_collect, countP_noGroup]
  · exact Query.read_text (Query.wellFormed_withText hq hname)
  · rw [hkeys, hcount key hkey, h]
    exact Nat.lt_irrefl 0

theorem compute_query_titles :
    let titled (title : String) : ActionRecord :=
      { (default : ActionRecord) with parameters := .object [("title", .string title)] }
    let records := [titled "it's", titled "<none>", default, titled "it's"]
    let st := compute records "title" (some .everything)
    let q := Query.everything.withText "title" "it's"
    Query.read q.text = .ok q ∧ (q.evaluate records 0).total = 2 ∧ st.countOf "it's" = 2 ∧
      st.countOf noGroup = 2 := by
  intro titled records st q
  have hfilter : ∀ f ∈ some Query.everything, f.WellFormed := by
    rintro f ⟨⟩
    exact ⟨fun t ht ↦ (Option.not_mem_none t ht).elim, List.forall_mem_nil _⟩
  obtain ⟨-, -, -, -, hnone, hkeys⟩ := compute_query records "title" hfilter 0
  obtain ⟨hread, hcount, -⟩ := hkeys (by decide) "it's" (by decide)
  exact ⟨hread, by decide, hcount.trans (by decide), hnone.trans (by decide)⟩

end Statistics

end ActionCatalog
