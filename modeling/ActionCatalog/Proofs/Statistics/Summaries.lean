import ActionCatalog.Proofs.Binary64.Range
import ActionCatalog.Proofs.Json.ByteOrder
import ActionCatalog.Proofs.Statistics
import Mathlib.Data.List.Induction
import Mathlib.Order.Bounds.Defs

namespace ActionCatalog

def Json.Value.binary64? : Json.Value → Option Binary64
  | number n => some n.toBinary64
  | _ => none

def ActionRecord.numberOf? (name : String) (r : ActionRecord) : Option Binary64 :=
  (r.parameters.get? name).bind Json.Value.binary64?

def numbersNamed (name : String) (records : List ActionRecord) : List Binary64 :=
  records.filterMap (ActionRecord.numberOf? name)

/-- The sum of numbers in their order, rounded at each of them. -/
def sumOf (xs : List Binary64) : Extended := xs.foldl Extended.add (.finite (.zero false))

structure ActionRecord.DistinctNames (r : ActionRecord) : Prop where
  nodup : ((r.parameters.asObject?.getD []).map Prod.fst).Nodup

namespace GroupSummary

def starts : List String := ["avg_", "min_", "max_"]

def valueNames (k : String) : List String := starts.map (· ++ k)

/-- Whether a summary says of records what it should: which parameters are numbers, in the order of
their bytes, and three values of each, so that a report finds all that it asks for. -/
structure Summarizes (records : List ActionRecord) (g : GroupSummary) : Prop where
  count : g.count = records.length
  ordered : g.numericNames.Pairwise fun a b ↦ Json.Source.ofString a < Json.Source.ofString b
  mem_numericNames : ∀ k, k ∈ g.numericNames ↔
    ∃ r ∈ records, ∃ n, r.parameters.get? k = some (.number n)
  nodup : (g.values.map Prod.fst).Nodup
  perm : (g.values.map Prod.fst).Perm (g.numericNames.flatMap valueNames)
  values : ∀ k ∈ g.numericNames, ∃ average least greatest,
    g.get? ("avg_" ++ k) = some average ∧ g.get? ("min_" ++ k) = some (.finite least) ∧
    g.get? ("max_" ++ k) = some (.finite greatest) ∧
    IsLeast {x | x ∈ numbersNamed k records} least ∧
    IsGreatest {x | x ∈ numbersNamed k records} greatest ∧
    ((numbersNamed k records).length ≤ 2 ^ 64 →
      ∃ n, Binary64.ofNat (numbersNamed k records).length = .finite n ∧
        average = (sumOf (numbersNamed k records)).div n)

/-- Whether two summaries are alike but for the means. -/
structure Alike (g g' : GroupSummary) : Prop where
  count : g'.count = g.count
  numericNames : g'.numericNames = g.numericNames
  values : ∀ k ∈ g.numericNames, ∀ start ∈ ["min_", "max_"], ∃ x x',
    g.get? (start ++ k) = some (.finite x) ∧ g'.get? (start ++ k) = some (.finite x') ∧
    x.SameValue x'

end GroupSummary

variable {r : ActionRecord} {records records' : List ActionRecord} {name k : String}
  {xs : List Binary64}

namespace Binary64

theorem least_cases (x y : Binary64) :
    (x.least y = x ∨ x.least y = y) ∧ x.least y ≤ x ∧ x.least y ≤ y := by
  unfold least
  split
  · rename_i hlt
    exact ⟨.inl rfl, Int.le_refl x.units, Int.le_of_lt hlt⟩
  · rename_i hge
    exact ⟨.inr rfl, Int.not_lt.1 hge, Int.le_refl y.units⟩

theorem greatest_cases (x y : Binary64) :
    (x.greatest y = x ∨ x.greatest y = y) ∧ x ≤ x.greatest y ∧ y ≤ x.greatest y := by
  unfold greatest
  split
  · rename_i hlt
    exact ⟨.inl rfl, Int.le_refl x.units, Int.le_of_lt hlt⟩
  · rename_i hge
    exact ⟨.inr rfl, Int.not_lt.1 hge, Int.le_refl y.units⟩

end Binary64

namespace Tally

structure Of (xs : List Binary64) (t : Tally) : Prop where
  count : t.count = xs.length
  sum : t.sum = sumOf xs
  least : IsLeast {x | x ∈ xs} t.least
  greatest : IsGreatest {x | x ∈ xs} t.greatest

theorem of_start (x : Binary64) : Of [x] (start x) where
  count := rfl
  sum := rfl
  least := by
    constructor
    · exact List.mem_singleton_self x
    · intro y hy
      rw [List.mem_singleton.1 hy]
      exact Int.le_refl x.units
  greatest := by
    constructor
    · exact List.mem_singleton_self x
    · intro y hy
      rw [List.mem_singleton.1 hy]
      exact Int.le_refl x.units

theorem Of.add {t : Tally} (h : t.Of xs) (x : Binary64) : (t.add x).Of (xs ++ [x]) where
  count := by
    rw [Tally.add, h.count, List.length_append, List.length_singleton]
  sum := by
    rw [Tally.add, h.sum, sumOf, sumOf, List.foldl_append]
    rfl
  least := by
    obtain ⟨hcases, hle, hle'⟩ := Binary64.least_cases t.least x
    constructor
    · change t.least.least x ∈ xs ++ [x]
      rcases hcases with heq | heq
      · rw [heq]
        exact List.mem_append_left [x] h.least.1
      · rw [heq]
        exact List.mem_append_right xs (List.mem_singleton_self x)
    · intro y hy
      rcases List.mem_append.1 hy with hy | hy
      · exact Int.le_trans hle (h.least.2 hy)
      · rw [List.mem_singleton.1 hy]
        exact hle'
  greatest := by
    obtain ⟨hcases, hle, hle'⟩ := Binary64.greatest_cases t.greatest x
    constructor
    · change t.greatest.greatest x ∈ xs ++ [x]
      rcases hcases with heq | heq
      · rw [heq]
        exact List.mem_append_left [x] h.greatest.1
      · rw [heq]
        exact List.mem_append_right xs (List.mem_singleton_self x)
    · intro y hy
      rcases List.mem_append.1 hy with hy | hy
      · exact Int.le_trans (h.greatest.2 hy) hle
      · rw [List.mem_singleton.1 hy]
        exact hle'

def ofNumbers? (xs : List Binary64) : Option Tally :=
  xs.foldl (fun t x ↦ some (t.elim (start x) (·.add x))) none

theorem ofNumbers_concat (xs : List Binary64) (x : Binary64) :
    ofNumbers? (xs ++ [x]) = some ((ofNumbers? xs).elim (start x) (·.add x)) := by
  unfold ofNumbers?
  rw [List.foldl_append, List.foldl_cons, List.foldl_nil]

theorem ofNumbers_cases (xs : List Binary64) :
    (xs = [] ∧ ofNumbers? xs = none) ∨ ∃ t, ofNumbers? xs = some t ∧ t.Of xs := by
  induction xs using List.reverseRecOn with
  | nil => exact .inl ⟨rfl, rfl⟩
  | append_singleton xs x ih =>
    right
    rw [ofNumbers_concat]
    rcases ih with ⟨rfl, hnone⟩ | ⟨t, ht, hof⟩
    · rw [hnone]
      exact ⟨_, rfl, of_start x⟩
    · rw [ht]
      exact ⟨_, rfl, hof.add x⟩

end Tally

namespace Group

def numbersAmong (parameters : List (String × Json.Value)) : List (String × Binary64) :=
  parameters.filterMap fun p ↦ p.2.binary64?.map fun x ↦ (p.1, x)

theorem addParameters_eq (tallies : List (String × Tally))
    (parameters : List (String × Json.Value)) : addParameters tallies parameters =
      (numbersAmong parameters).foldl (fun tallies p ↦ addNumber tallies p.1 p.2) tallies := by
  induction parameters generalizing tallies with
  | nil => rfl
  | cons p parameters ih =>
    obtain ⟨name, v⟩ := p
    cases v with
    | number n => exact ih (addNumber tallies name n.toBinary64)
    | _ => exact ih tallies

theorem numbersAmong_cons (key : String) (v : Json.Value)
    (parameters : List (String × Json.Value)) : numbersAmong ((key, v) :: parameters) =
      (v.binary64?.toList.map fun x ↦ (key, x)) ++ numbersAmong parameters := by
  unfold numbersAmong
  rw [List.filterMap_cons]
  cases v.binary64? <;> rfl

theorem numbersAmong_absent {parameters : List (String × Json.Value)}
    (h : name ∉ parameters.map Prod.fst) : (numbersAmong parameters).filter (·.1 = name) = [] := by
  apply List.filter_eq_nil_iff.2
  intro p hp hname
  obtain ⟨q, hq, hx⟩ := List.mem_filterMap.1 hp
  obtain ⟨x, -, rfl⟩ := Option.map_eq_some_iff.1 hx
  exact h (List.mem_map.2 ⟨q, hq, of_decide_eq_true hname⟩)

theorem filter_numbersAmong {parameters : List (String × Json.Value)}
    (h : (parameters.map Prod.fst).Nodup) :
    ((numbersAmong parameters).filter (·.1 = name)).map Prod.snd =
      ((parameters.lookup name).bind Json.Value.binary64?).toList := by
  induction parameters with
  | nil => rfl
  | cons p parameters ih =>
    obtain ⟨key, v⟩ := p
    obtain ⟨hfirst, hrest⟩ := List.nodup_cons.1 h
    rw [Keyed.lookup_cons_eq, numbersAmong_cons, List.filter_append, List.map_append]
    by_cases hname : name = key
    · subst hname
      rw [numbersAmong_absent hfirst, if_pos rfl, Option.bind_some]
      cases v.binary64? <;> simp
    · rw [ih hrest, if_neg hname]
      cases v.binary64? <;> simp [Ne.symm hname]

def ofRecords (records : List ActionRecord) : Group := records.foldl add empty

theorem ofRecords_concat (records : List ActionRecord) (r : ActionRecord) :
    ofRecords (records ++ [r]) = (ofRecords records).add r := by
  unfold ofRecords
  rw [List.foldl_append, List.foldl_cons, List.foldl_nil]

theorem count_ofRecords (records : List ActionRecord) :
    (ofRecords records).count = records.length := by
  induction records using List.reverseRecOn with
  | nil => rfl
  | append_singleton records r ih =>
    rw [ofRecords_concat, add, ih, List.length_append, List.length_singleton]

def numbersOf (records : List ActionRecord) : List (String × Binary64) :=
  records.flatMap fun r ↦ numbersAmong (r.parameters.asObject?.getD [])

theorem tallies_ofRecords (records : List ActionRecord) :
    (ofRecords records).tallies =
      (numbersOf records).foldl (fun tallies p ↦ addNumber tallies p.1 p.2) [] := by
  induction records using List.reverseRecOn with
  | nil => rfl
  | append_singleton records r ih =>
    rw [ofRecords_concat, add, ih, addParameters_eq, numbersOf, numbersOf, List.flatMap_append,
      List.foldl_append, List.flatMap_cons, List.flatMap_nil, List.append_nil]

theorem filter_numbersOf (h : ∀ r ∈ records, r.DistinctNames) :
    ((numbersOf records).filter (·.1 = k)).map Prod.snd = numbersNamed k records := by
  unfold numbersOf numbersNamed
  rw [List.filter_flatMap, List.map_flatMap, List.filterMap_eq_flatMap_toList]
  apply List.flatMap_congr
  intro r hr
  rw [filter_numbersAmong (h r hr).nodup, ActionRecord.numberOf?, Json.Value.get?]
  cases r.parameters.asObject? <;> rfl

theorem lookup_ofRecords (h : ∀ r ∈ records, r.DistinctNames) :
    Keyed.Sorted (ofRecords records).tallies ∧
      (ofRecords records).tallies.lookup k = Tally.ofNumbers? (numbersNamed k records) := by
  obtain ⟨hsorted, hlookup⟩ := Keyed.lookup_foldl_alter k Prod.fst
    (fun p t ↦ t.elim (Tally.start p.2) (Tally.add · p.2)) (numbersOf records)
    (List.Pairwise.nil : Keyed.Sorted ([] : List (String × Tally)))
  rw [tallies_ofRecords]
  refine ⟨hsorted, hlookup.trans ?_⟩
  rw [← filter_numbersOf h, Tally.ofNumbers?, List.foldl_map]
  rfl

end Group

namespace GroupSummary

theorem append_injective {start start' k' : String} (hstart : start ∈ starts)
    (hstart' : start' ∈ starts) (h : start ++ k = start' ++ k') : start = start' ∧ k = k' := by
  have hlength : ∀ start ∈ starts, start.toList.length = 4 := by decide
  have hlists := congrArg String.toList h
  rw [String.toList_append, String.toList_append] at hlists
  obtain ⟨hs, hk⟩ := List.append_inj hlists ((hlength _ hstart).trans (hlength _ hstart').symm)
  exact ⟨String.toList_injective hs, String.toList_injective hk⟩

/-- No two values have the same name, even if a parameter is itself named like a value. -/
theorem nodup_valueNames {names : List String} (h : names.Nodup) :
    (names.flatMap valueNames).Nodup := by
  apply List.nodup_flatMap.2
  constructor
  · intro k _
    apply List.Nodup.map_on
    · intro start hstart start' hstart' heq
      exact (append_injective hstart hstart' heq).1
    · decide
  · apply h.imp
    intro k k' hne name hname hname'
    obtain ⟨start, hstart, rfl⟩ := List.mem_map.1 hname
    obtain ⟨start', hstart', heq⟩ := List.mem_map.1 hname'
    exact hne (append_injective hstart' hstart heq).2.symm

theorem mem_flatMap_valueNames {names : List String} {start : String} (hstart : start ∈ starts) :
    start ++ k ∈ names.flatMap valueNames ↔ k ∈ names := by
  constructor
  · intro h
    obtain ⟨k', hk', hmem⟩ := List.mem_flatMap.1 h
    obtain ⟨start', hstart', heq⟩ := List.mem_map.1 hmem
    rwa [(append_injective hstart' hstart heq).2] at hk'
  · intro h
    exact List.mem_flatMap.2 ⟨k, h, List.mem_map.2 ⟨start, hstart, rfl⟩⟩

theorem dropStart_eq_some {start s : String} : dropStart? start s = some k ↔ s = start ++ k := by
  unfold dropStart?
  constructor
  · intro h
    split at h
    · rename_i hprefix
      obtain ⟨rest, hrest⟩ := List.isPrefixOf_iff_prefix.1 hprefix
      rw [← hrest, ← String.length_toList, List.drop_left, Option.some.injEq] at h
      subst h
      apply String.toList_injective
      rw [← hrest, String.toList_append, String.toList_ofList]
    · cases h
  · rintro rfl
    have hprefix : start.toList.isPrefixOf (start ++ k).toList = true := by
      rw [String.toList_append]
      exact List.isPrefixOf_iff_prefix.2 (List.prefix_append _ _)
    rw [if_pos hprefix, String.toList_append, ← String.length_toList, List.drop_left,
      String.ofList_toList]

theorem mem_numericNames {g : GroupSummary} :
    k ∈ g.numericNames ↔ "avg_" ++ k ∈ g.values.map Prod.fst := by
  unfold numericNames
  rw [List.mem_filterMap, List.mem_map]
  simp only [dropStart_eq_some]

theorem lt_of_append_lt {a b : String} (h : "avg_" ++ a < "avg_" ++ b) : a < b := by
  rw [String.lt_iff_toList_lt] at h ⊢
  simpa using h

theorem sorted_numericNames {g : GroupSummary} (h : Keyed.Sorted g.values) :
    g.numericNames.Pairwise (· < ·) := by
  unfold numericNames
  rw [List.pairwise_filterMap]
  apply h.imp
  intro p q hlt a ha b hb
  rw [dropStart_eq_some.1 ha, dropStart_eq_some.1 hb] at hlt
  exact lt_of_append_lt hlt

end GroupSummary

namespace Group

open GroupSummary (valueNames nodup_valueNames mem_flatMap_valueNames mem_numericNames
  sorted_numericNames starts)

variable {g : Group} {t : Tally}

def valuesOf (p : String × Tally) : List (String × Extended) :=
  [("avg_" ++ p.1, p.2.average), ("min_" ++ p.1, .finite p.2.least),
    ("max_" ++ p.1, .finite p.2.greatest)]

theorem sorted_summary (g : Group) : Keyed.Sorted g.summary.values := Keyed.sorted_ofList _

theorem map_valuesOf (tallies : List (String × Tally)) :
    (tallies.flatMap valuesOf).map Prod.fst = (tallies.map Prod.fst).flatMap valueNames := by
  rw [List.map_flatMap, List.flatMap_map]
  rfl

theorem perm_summary (h : Keyed.Sorted g.tallies) :
    g.summary.values.Perm (g.tallies.flatMap valuesOf) := by
  apply Keyed.perm_ofList
  change ((g.tallies.flatMap valuesOf).map Prod.fst).Nodup
  rw [map_valuesOf]
  exact nodup_valueNames h.nodup

theorem perm_names (h : Keyed.Sorted g.tallies) :
    (g.summary.values.map Prod.fst).Perm ((g.tallies.map Prod.fst).flatMap valueNames) := by
  rw [← map_valuesOf]
  exact (perm_summary h).map Prod.fst

theorem get_summary (h : Keyed.Sorted g.tallies) (ht : g.tallies.lookup k = some t) {name : String}
    {x : Extended} (hx : (name, x) ∈ valuesOf (k, t)) : g.summary.get? name = some x := by
  apply Keyed.lookup_of_mem (sorted_summary g).nodup
  apply (perm_summary h).mem_iff.2
  exact List.mem_flatMap.2 ⟨(k, t), Keyed.mem_of_lookup ht, hx⟩

theorem numericNames_summary (h : Keyed.Sorted g.tallies) :
    g.summary.numericNames = g.tallies.map Prod.fst := by
  apply List.Pairwise.eq_of_mem_iff (sorted_numericNames (sorted_summary g)) (List.pairwise_map.2 h)
  intro k
  rw [mem_numericNames, (perm_names h).mem_iff, mem_flatMap_valueNames (by decide)]

end Group

theorem binary64_eq_some {v : Json.Value} {x : Binary64} :
    v.binary64? = some x ↔ ∃ n, v = .number n ∧ n.toBinary64 = x := by
  cases v <;> simp [Json.Value.binary64?]

theorem numbersNamed_ne_nil : numbersNamed k records ≠ [] ↔
    ∃ r ∈ records, ∃ n, r.parameters.get? k = some (.number n) := by
  constructor
  · intro hne
    obtain ⟨x, hx⟩ := List.exists_mem_of_ne_nil _ hne
    obtain ⟨r, hr, hx⟩ := List.mem_filterMap.1 hx
    obtain ⟨v, hv, hx⟩ := Option.bind_eq_some_iff.1 hx
    obtain ⟨n, rfl, -⟩ := binary64_eq_some.1 hx
    exact ⟨r, hr, n, hv⟩
  · rintro ⟨r, hr, n, hn⟩
    have hx : r.numberOf? k = some n.toBinary64 := by
      rw [ActionRecord.numberOf?, hn]
      rfl
    exact List.ne_nil_of_mem (List.mem_filterMap.2 ⟨r, hr, hx⟩)

namespace Tally

/-- The definition, stated of the function: of one tally, its unfolding would be checked by
computing with the number of all units. -/
theorem average_def : average = fun t ↦
    match (Binary64.ofNat t.count).finite? with
    | some n => t.sum.div n
    | none => .nan := by
  delta average
  exact rfl

theorem average_eq {t : Tally} (h : t.Of xs) (hlength : xs.length ≤ 2 ^ 64) :
    ∃ n, Binary64.ofNat xs.length = .finite n ∧ t.average = (sumOf xs).div n := by
  obtain ⟨n, hn⟩ := Binary64.exists_ofNat hlength
  refine ⟨n, hn, ?_⟩
  rw [average_def]
  dsimp only
  rw [h.count, hn, h.sum]
  rfl

end Tally

theorem Group.summarizes (h : ∀ r ∈ records, r.DistinctNames) :
    (Group.ofRecords records).summary.Summarizes records := by
  have hsorted := (lookup_ofRecords (k := "") h).1
  have hlookup (k : String) := (lookup_ofRecords (k := k) h).2
  have hnames := numericNames_summary hsorted
  constructor
  · exact count_ofRecords records
  · rw [hnames]
    exact List.pairwise_map.2 (hsorted.imp Json.ofString_lt_iff.2)
  · intro k
    rw [hnames, ← numbersNamed_ne_nil]
    constructor
    · intro hk hnil
      obtain ⟨⟨k', t⟩, ht, rfl⟩ := List.mem_map.1 hk
      have hsome := Keyed.lookup_of_mem hsorted.nodup ht
      rw [hlookup, hnil] at hsome
      cases hsome
    · intro hne
      rcases Tally.ofNumbers_cases (numbersNamed k records) with ⟨hnil, -⟩ | ⟨t, ht, -⟩
      · exact absurd hnil hne
      · exact List.mem_map_of_mem (Keyed.mem_of_lookup ((hlookup k).trans ht))
  · exact (sorted_summary _).nodup
  · rw [hnames]
    exact perm_names hsorted
  · intro k hk
    rw [hnames] at hk
    obtain ⟨⟨k', t⟩, ht, rfl⟩ := List.mem_map.1 hk
    have hsome := Keyed.lookup_of_mem hsorted.nodup ht
    -- the tally under the name is the one that its numbers make
    rcases Tally.ofNumbers_cases (numbersNamed k' records) with ⟨-, hnone⟩ | ⟨t', ht', hof⟩
    · rw [hlookup, hnone] at hsome
      cases hsome
    obtain rfl : t' = t := by
      rw [hlookup, ht'] at hsome
      exact Option.some.inj hsome
    refine ⟨t'.average, t'.least, t'.greatest, ?_, ?_, ?_, hof.least, hof.greatest,
      Tally.average_eq hof⟩
    · exact get_summary hsorted hsome (by simp [valuesOf])
    · exact get_summary hsorted hsome (by simp [valuesOf])
    · exact get_summary hsorted hsome (by simp [valuesOf])

theorem GroupSummary.Summarizes.alike {g g' : GroupSummary} (h : g.Summarizes records)
    (h' : g'.Summarizes records') (hperm : records.Perm records') : g.Alike g' := by
  have hnames : g'.numericNames = g.numericNames := by
    apply List.Pairwise.eq_of_mem_iff (h'.ordered.imp Json.ofString_lt_iff.1)
      (h.ordered.imp Json.ofString_lt_iff.1)
    intro k
    rw [h'.mem_numericNames, h.mem_numericNames]
    simp only [hperm.mem_iff]
  have hnumbers (k : String) (x : Binary64) :
      x ∈ numbersNamed k records' ↔ x ∈ numbersNamed k records :=
    (hperm.filterMap (ActionRecord.numberOf? k)).mem_iff.symm
  refine ⟨?_, hnames, ?_⟩
  · rw [h'.count, h.count, hperm.length_eq]
  · intro k hk start hstart
    obtain ⟨-, least, greatest, -, hleast, hgreatest, hisLeast, hisGreatest, -⟩ := h.values k hk
    obtain ⟨-, least', greatest', -, hleast', hgreatest', hisLeast', hisGreatest', -⟩ :=
      h'.values k (hnames ▸ hk)
    simp only [hnumbers] at hisLeast' hisGreatest'
    rcases List.mem_pair.1 hstart with rfl | rfl
    · refine ⟨least, least', hleast, hleast', ?_⟩
      exact Int.le_antisymm (hisLeast.2 hisLeast'.1) (hisLeast'.2 hisLeast.1)
    · refine ⟨greatest, greatest', hgreatest, hgreatest', ?_⟩
      exact Int.le_antisymm (hisGreatest'.2 hisGreatest.1) (hisGreatest.2 hisGreatest'.1)

namespace Statistics

variable {g : GroupSummary} {groupBy key : String}

def membersOf (groupBy key : String) (records : List ActionRecord) : List ActionRecord :=
  records.filter (groupOf groupBy · = key)

theorem foldl_add (o : Option Group) (records : List ActionRecord) :
    (records.foldl (fun g r ↦ some ((g.getD .empty).add r)) o).getD .empty =
      records.foldl Group.add (o.getD .empty) := by
  induction records generalizing o with
  | nil => rfl
  | cons r records ih => exact ih _

theorem eq_of_mem_groups (h : (key, g) ∈ (collect records groupBy).groups) :
    g = (Group.ofRecords (membersOf groupBy key records)).summary := by
  obtain ⟨hsorted, hlookup⟩ := Keyed.lookup_foldl_alter key (groupOf groupBy)
    (fun r g ↦ (g.getD .empty).add r) records
    (List.Pairwise.nil : Keyed.Sorted ([] : List (String × Group)))
  rw [groups_collect] at h
  obtain ⟨⟨k, group⟩, hgroup, heq⟩ := List.mem_map.1 h
  change (k, group.summary) = (key, g) at heq
  obtain ⟨rfl, rfl⟩ := Prod.mk.inj heq
  have hsome := Keyed.lookup_of_mem hsorted.nodup hgroup
  have hfold := foldl_add none (membersOf groupBy k records)
  rw [hsome, List.lookup_nil] at hlookup
  rw [membersOf, ← hlookup] at hfold
  exact congrArg Group.summary hfold

theorem mem_keys_iff : key ∈ (collect records groupBy).groups.map Prod.fst ↔
    ∃ r ∈ records, groupOf groupBy r = key := by
  rw [mem_keys_collect, countOf_collect, List.countP_pos_iff]
  simp

/-- Every group of records whose parameters have distinct names is summarized as it should, and in
another order the records have the same groups with like summaries. -/
theorem collect_summarizes (records : List ActionRecord) (groupBy : String)
    (hdistinct : ∀ r ∈ records, r.DistinctNames) :
    let st := collect records groupBy
    (st.groups.map Prod.fst).Nodup ∧
    (∀ key, key ∈ st.groups.map Prod.fst ↔ ∃ r ∈ records, groupOf groupBy r = key) ∧
    (∀ key g, (key, g) ∈ st.groups → g.Summarizes (membersOf groupBy key records)) ∧
    ∀ records', records.Perm records' →
      let st' := collect records' groupBy
      st'.total = st.total ∧ st'.groups.map Prod.fst = st.groups.map Prod.fst ∧
      ∀ key g g', (key, g) ∈ st.groups → (key, g') ∈ st'.groups → g.Alike g' := by
  intro st
  have hsummarizes (records : List ActionRecord) (h : ∀ r ∈ records, r.DistinctNames)
      {key : String} {g : GroupSummary} (hg : (key, g) ∈ (collect records groupBy).groups) :
      g.Summarizes (membersOf groupBy key records) := by
    rw [eq_of_mem_groups hg]
    apply Group.summarizes
    intro r hr
    exact h r (List.mem_of_mem_filter hr)
  refine ⟨(sorted_collect records groupBy).nodup, fun key ↦ mem_keys_iff, fun key g ↦
    hsummarizes records hdistinct, ?_⟩
  intro records' hperm st'
  have hdistinct' : ∀ r ∈ records', r.DistinctNames := by
    intro r hr
    exact hdistinct r (hperm.mem_iff.2 hr)
  refine ⟨hperm.length_eq.symm, ?_, ?_⟩
  · apply List.Pairwise.eq_of_mem_iff (List.pairwise_map.2 (sorted_collect records' groupBy))
      (List.pairwise_map.2 (sorted_collect records groupBy))
    intro key
    rw [mem_keys_iff, mem_keys_iff]
    simp only [hperm.mem_iff]
  · intro key g g' hg hg'
    exact (hsummarizes records hdistinct hg).alike (hsummarizes records' hdistinct' hg')
      (hperm.filter _)

theorem collect_summarizes_starts :
    let one : Json.Value := .number (.integer 1 (by decide))
    let r : ActionRecord := { (default : ActionRecord) with
      parameters := .object [("", one), ("avg_", one), ("min_avg_", one), ("max_", .null)] }
    (∀ s ∈ [r, default], s.DistinctNames) ∧
      (∀ g, ("", g) ∈ (collect [r, default] "skill_name").groups → g.Summarizes [r, default]) ∧
      ∀ g g', ("", g) ∈ (collect [r, default] "skill_name").groups →
        ("", g') ∈ (collect [default, r] "skill_name").groups → g.Alike g' := by
  intro one r
  have hdistinct : ∀ s ∈ [r, default], s.DistinctNames := by
    intro s hs
    rcases List.mem_pair.1 hs with rfl | rfl
    · exact ⟨by decide⟩
    · exact ⟨by decide⟩
  have hmembers : membersOf "skill_name" "" [r, default] = [r, default] := rfl
  obtain ⟨-, -, hsummarizes, hperm⟩ := collect_summarizes [r, default] "skill_name" hdistinct
  refine ⟨hdistinct, ?_, ?_⟩
  · intro g hg
    rw [← hmembers]
    exact hsummarizes "" g hg
  · exact (hperm [default, r] (List.Perm.swap _ _ _)).2.2 ""

end Statistics

end ActionCatalog
