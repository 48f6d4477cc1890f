import ActionCatalog.Proofs.Catalog.Validity
import Mathlib.Data.List.Nodup

namespace ActionCatalog

/-- Whether a manifest lists each file once, and as many records as there are of it. -/
structure Baseline.Counted (b : Baseline) : Prop where
  distinct : (b.manifest.map ManifestEntry.file).Nodup
  counted : ∀ m ∈ b.manifest, (b.recordsOf m.file).length = m.actions

theorem Snapshot.Valid.counted_baseline {s : Snapshot} (h : s.Valid) :
    (Baseline.ofSnapshot s).Counted := by
  refine ⟨List.pairwise_map.2 (h.listed.imp fun hlt heq ↦ ?_), fun m hm ↦ (h.counted m hm).1⟩
  rw [heq] at hlt
  exact List.lt_irrefl _ hlt

namespace Baseline

variable {b : Baseline} {file : CorpusFile} {name : String} {m : ManifestEntry}

theorem counted_empty : Baseline.empty.Counted := ⟨List.nodup_nil, List.forall_mem_nil _⟩

theorem Counted.of_outline {s : Snapshot} {records : List ActionRecord}
    (h : (Baseline.ofSnapshot s).Counted)
    (hsame : s.records.map ActionRecord.outline = records.map ActionRecord.outline) :
    Counted ⟨s.manifest, records⟩ := by
  refine ⟨h.distinct, fun m hm ↦ ?_⟩
  rw [← h.counted m hm]
  have hcount := congrArg (List.countP fun r ↦ r.skillFile = m.file) hsame
  rw [List.countP_map, List.countP_map] at hcount
  simp only [recordsOf, ofSnapshot, ← List.countP_eq_length_filter]
  exact hcount.symm

/-- Whether a file is listed with the change marker that it has, and not as failed. -/
def Lists (b : Baseline) (file : CorpusFile) : Prop :=
  ∃ m ∈ b.manifest, m.file = file.name ∧ m.failed = false ∧ m.marker = file.marker

instance (b : Baseline) (file : CorpusFile) : Decidable (b.Lists file) :=
  inferInstanceAs (Decidable (∃ m ∈ b.manifest, _))

theorem Counted.entry_eq_some (h : b.Counted) :
    b.entry? name = some m ↔ m ∈ b.manifest ∧ m.file = name := by
  refine ⟨mem_of_entry, fun ⟨hm, hname⟩ ↦ ?_⟩
  have hmem : m ∈ b.manifest.filter fun m ↦ m.file = name :=
    List.mem_filter.2 ⟨hm, decide_eq_true hname⟩
  obtain ⟨m', hm'⟩ := Option.isSome_iff_exists.1
    (List.getLast?_isSome.2 (List.ne_nil_of_mem hmem))
  obtain ⟨hmem', hname'⟩ := mem_of_entry hm'
  unfold entry?
  rw [hm', List.inj_on_of_nodup_map h.distinct hmem' hm (hname'.trans hname.symm)]

theorem Counted.reusable_eq_some (h : b.Counted) {f : SkillDocument.Flattened} :
    b.reusable? file = some f ↔ ∃ m ∈ b.manifest, m.file = file.name ∧ m.failed = false ∧
      m.marker = file.marker ∧ f = ⟨b.recordsOf file.name, m.skipped⟩ := by
  rw [Baseline.reusable_eq_some]
  constructor
  · rintro ⟨m, hm, hfailed, hmarker, -, hf⟩
    obtain ⟨hmem, hname⟩ := h.entry_eq_some.1 hm
    exact ⟨m, hmem, hname, hfailed, hmarker, hf⟩
  · rintro ⟨m, hm, hname, hfailed, hmarker, hf⟩
    have hcount := h.counted m hm
    rw [hname] at hcount
    exact ⟨m, h.entry_eq_some.2 ⟨hm, hname⟩, hfailed, hmarker, hcount, hf⟩

theorem Counted.not_lists (h : b.Counted) (hm : m ∈ b.manifest) (hname : m.file = file.name)
    (hfailed : m.failed = true) : ¬b.Lists file := by
  rintro ⟨m', hm', hname', hread, -⟩
  rw [List.inj_on_of_nodup_map h.distinct hm' hm (hname'.trans hname.symm), hfailed] at hread
  cases hread

end Baseline

namespace Catalog

variable {b : Baseline} {file : CorpusFile} {files : List CorpusFile} {shownParameters now : Nat}

def freshOutcome (shownParameters : Nat) (file : CorpusFile) : Outcome :=
  match readDocument file shownParameters with
  | .ok f => .read f
  | .error reason => .failed reason

/-- Whether a file is taken over if the baseline lists it unchanged, with all records that the
baseline has of it, and is read otherwise, as it is if it failed before. -/
structure ReusesExactly (b : Baseline) (shownParameters : Nat) (file : CorpusFile) (o : Outcome) :
    Prop where
  listed : ∀ m ∈ b.manifest, m.file = file.name → m.failed = false → m.marker = file.marker →
    o = .reused ⟨b.recordsOf file.name, m.skipped⟩
  other : ¬b.Lists file → o = freshOutcome shownParameters file
  failed : ∀ m ∈ b.manifest, m.file = file.name → m.failed = true →
    o = freshOutcome shownParameters file

theorem reusesExactly_outcomeOf (h : b.Counted) (shownParameters : Nat) (file : CorpusFile) :
    ReusesExactly b shownParameters file (outcomeOf b shownParameters file) := by
  have hother (hnot : ¬b.Lists file) :
      outcomeOf b shownParameters file = freshOutcome shownParameters file := by
    have hnone : b.reusable? file = none := by
      refine Option.eq_none_iff_forall_ne_some.2 fun f hf ↦ ?_
      obtain ⟨m, hm, hname, hfailed, hmarker, -⟩ := h.reusable_eq_some.1 hf
      exact hnot ⟨m, hm, hname, hfailed, hmarker⟩
    rw [outcomeOf, hnone]
    rfl
  refine ⟨fun m hm hname hfailed hmarker ↦ ?_, hother, fun m hm hname hfailed ↦ ?_⟩
  · rw [outcomeOf, h.reusable_eq_some.2 ⟨m, hm, hname, hfailed, hmarker, rfl⟩]
  · exact hother (h.not_lists hm hname hfailed)

theorem isReused_freshOutcome (shownParameters : Nat) (file : CorpusFile) :
    (freshOutcome shownParameters file).isReused = false := by
  unfold freshOutcome
  cases readDocument file shownParameters <;> rfl

theorem ReusesExactly.isReused {o : Outcome} (h : ReusesExactly b shownParameters file o) :
    o.isReused = true ↔ b.Lists file := by
  constructor
  · intro ho
    by_contra hnot
    rw [h.other hnot, isReused_freshOutcome] at ho
    cases ho
  · rintro ⟨m, hm, hname, hfailed, hmarker⟩
    rw [h.listed m hm hname hfailed hmarker]
    rfl

/-- What becomes of a file in the build after the one that made it what it was. -/
def again : Outcome → Outcome
  | .reused f | .read f => .reused f
  | .failed reason => .failed reason

theorem again_records (o : Outcome) : (again o).records = o.records := by cases o <;> rfl

theorem again_skipped (o : Outcome) : (again o).skipped = o.skipped := by cases o <;> rfl

theorem again_isFailed (o : Outcome) : (again o).isFailed = o.isFailed := by cases o <;> rfl

theorem again_isReused (o : Outcome) : (again o).isReused = !o.isFailed := by cases o <;> rfl

theorem again_failure (o : Outcome) : failure? file (again o) = failure? file o := by
  cases o <;> rfl

theorem again_of_not_failed {o : Outcome} (h : o.isFailed = false) :
    again o = .reused ⟨o.records, o.skipped⟩ := by
  cases o with
  | reused f => rfl
  | read f => rfl
  | failed reason => cases h

theorem freshOutcome_of_isFailed (h : (outcomeOf b shownParameters file).isFailed = true) :
    freshOutcome shownParameters file = again (outcomeOf b shownParameters file) := by
  rcases outcomeOf_cases b shownParameters file with ⟨f, -, ho⟩ | ⟨f, -, ho⟩ | ⟨reason, hread, ho⟩
  · rw [ho] at h
    cases h
  · rw [ho] at h
    cases h
  · rw [freshOutcome, hread, ho]
    rfl

theorem outcomeOf_again (hb : b.Sound) (hlisted : files.Pairwise fun f g ↦ f.name < g.name)
    (hfile : file ∈ files) :
    outcomeOf (.ofSnapshot (snapshotOf (files.map fun file ↦
      (file, outcomeOf b shownParameters file)) now)) shownParameters file =
        again (outcomeOf b shownParameters file) := by
  have hown (file : CorpusFile) := ofFile_of_outcomeOf hb shownParameters file
  have hvalid : (snapshotOf (files.map fun file ↦
      (file, outcomeOf b shownParameters file)) now).Valid :=
    valid_snapshotOf (List.pairwise_map.2 hlisted)
      (List.forall_mem_map.2 fun file _ ↦ hown file) now
  have hexact := reusesExactly_outcomeOf hvalid.counted_baseline shownParameters file
  -- the build before lists every file with what became of it then
  generalize houtcomes : files.map (fun file ↦ (file, outcomeOf b shownParameters file)) =
    outcomes at hvalid hexact ⊢
  generalize ho : outcomeOf b shownParameters file = o
  have hmem : (file, o) ∈ outcomes := by
    rw [← houtcomes, ← ho]
    exact List.mem_map_of_mem hfile
  have hentry : manifestEntry file o ∈ (snapshotOf outcomes now).manifest :=
    List.mem_map_of_mem hmem
  cases hfailed : o.isFailed with
  | false =>
    have hrecords : (Baseline.ofSnapshot (snapshotOf outcomes now)).recordsOf file.name =
        o.records := by
      refine filter_records_flatMap (fun p : CorpusFile × Outcome ↦ p.1.name) (fun p ↦ p.2.records)
        (fun p hp ↦ ?_) ?_ hmem
      · rw [← houtcomes] at hp
        obtain ⟨file, -, rfl⟩ := List.mem_map.1 hp
        exact (hown file).skillFile
      · rw [← houtcomes]
        exact List.pairwise_map.2 (hlisted.imp fun h ↦ h.ne)
    rw [hexact.listed _ hentry rfl hfailed rfl, hrecords, again_of_not_failed hfailed]
    rfl
  | true =>
    rw [hexact.failed _ hentry rfl hfailed, ← ho]
    exact freshOutcome_of_isFailed (ho ▸ hfailed)

variable {outcomes : List (CorpusFile × Outcome)}

theorem snapshotOf_again (outcomes : List (CorpusFile × Outcome)) (now now' : Nat) :
    snapshotOf (outcomes.map fun p ↦ (p.1, again p.2)) now' =
      { snapshotOf outcomes now with builtAt := now' } := by
  simp only [snapshotOf, List.flatMap_map, List.map_map, List.filterMap_map, Function.comp_def,
    manifestEntry, again_records, again_skipped, again_isFailed, again_failure]

theorem reportOf_again (outcomes : List (CorpusFile × Outcome)) :
    reportOf (outcomes.map fun p ↦ (p.1, again p.2)) =
      { reportOf outcomes with reusedFiles := (reportOf outcomes).indexedFiles } := by
  simp only [reportOf, List.length_map, List.countP_map, List.map_map, List.filterMap_map,
    Function.comp_def, again_records, again_skipped, again_isFailed, again_isReused, again_failure]

end Catalog

end ActionCatalog
