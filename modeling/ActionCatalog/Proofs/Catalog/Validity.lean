import ActionCatalog.Proofs.Catalog.ArtifactRoundTrip
import ActionCatalog.Proofs.Catalog.Build
import ActionCatalog.Proofs.Corpus.Reach
import ActionCatalog.Proofs.SkillDocument.Flatten

namespace ActionCatalog

open ActionRecord (Before Placed address)
open Json (Source)

structure Snapshot.Valid (s : Snapshot) : Prop where
  ordered : s.records.Pairwise Before
  placed : ∀ r ∈ s.records, r.Placed
  distinct : (s.records.map address).Nodup
  found : ∀ file locator i, positionOf? s.records file locator = some i ↔
    (s.records[i]?).map address = some (file, locator)
  listed : s.manifest.Pairwise fun m n ↦ Source.ofString m.file < Source.ofString n.file
  known : ∀ r ∈ s.records, ∃ m ∈ s.manifest, m.file = r.skillFile ∧ m.failed = false
  counted : ∀ m ∈ s.manifest, (s.records.filter fun r ↦ r.skillFile = m.file).length = m.actions ∧
    (m.failed = true → m.actions = 0)
  failures : s.failures.map FailedFile.file =
    (s.manifest.filter ManifestEntry.failed).map ManifestEntry.file

/-- What the report of a build says of the snapshot. -/
structure BuildReport.Describes (report : BuildReport) (s : Snapshot) : Prop where
  files : report.totalFiles = s.manifest.length
  failures : report.failures = s.failures
  totalFiles : report.totalFiles = report.indexedFiles + report.failures.length
  reusedFiles : report.reusedFiles ≤ report.indexedFiles
  totalActions : report.totalActions = s.records.length
  counted : report.totalActions = (s.manifest.map ManifestEntry.actions).sum
  skippedActions : report.skippedActions = (s.manifest.map ManifestEntry.skipped).sum

structure ActionRecord.OfFile (file : String) (records : List ActionRecord) : Prop where
  skillFile : ∀ r ∈ records, r.skillFile = file
  ordered : records.Pairwise Before
  placed : ∀ r ∈ records, r.Placed

/-- Whether the records of an earlier build can be taken over. -/
structure Baseline.Sound (b : Baseline) : Prop where
  ordered : b.records.Pairwise Before
  placed : ∀ r ∈ b.records, r.Placed

theorem Snapshot.Valid.sound {s : Snapshot} (h : s.Valid) : (Baseline.ofSnapshot s).Sound :=
  ⟨h.ordered, h.placed⟩

theorem Baseline.sound_empty : Baseline.empty.Sound := ⟨.nil, List.forall_mem_nil _⟩

theorem Baseline.Sound.of_outline {b b' : Baseline} (h : b.Sound)
    (hsame : b.records.map ActionRecord.outline = b'.records.map ActionRecord.outline) :
    b'.Sound := by
  have hordered : (b.records.map ActionRecord.outline).Pairwise Before :=
    List.pairwise_map.2 h.ordered
  have hplaced : ∀ r ∈ b.records.map ActionRecord.outline, r.Placed := by
    intro r hr
    obtain ⟨q, hq, rfl⟩ := List.mem_map.1 hr
    exact ⟨(h.placed q hq).locator, (h.placed q hq).typed, (h.placed q hq).trimmed⟩
  rw [hsame] at hordered hplaced
  refine ⟨(List.pairwise_map.1 hordered).imp id, fun r hr ↦ ?_⟩
  have houtline := hplaced _ (List.mem_map_of_mem hr)
  exact ⟨houtline.locator, houtline.typed, houtline.trimmed⟩

namespace Catalog

variable {file : CorpusFile} {b : Baseline} {shownParameters now : Nat}
  {outcomes : List (CorpusFile × Outcome)}

theorem ofFile_of_readDocument {f : SkillDocument.Flattened}
    (h : readDocument file shownParameters = .ok f) : ActionRecord.OfFile file.name f.records := by
  obtain ⟨content, -, h⟩ := exists_of_bind_ok h
  obtain ⟨document, -, h⟩ := exists_of_bind_ok h
  have hf := mapError_eq_ok.1 h
  refine ⟨fun r hr ↦ ?_, SkillDocument.pairwise_flatten hf, fun r hr ↦ ?_⟩
  · obtain ⟨_, _, hat⟩ := SkillDocument.exists_at_of_flatten hf hr
    exact hat.skillFile
  · obtain ⟨_, _, hat⟩ := SkillDocument.exists_at_of_flatten hf hr
    exact hat.placed

theorem ofFile_of_outcomeOf (hb : b.Sound) (shownParameters : Nat) (file : CorpusFile) :
    ActionRecord.OfFile file.name (outcomeOf b shownParameters file).records := by
  rcases outcomeOf_cases b shownParameters file with ⟨f, hf, ho⟩ | ⟨f, hf, ho⟩ | ⟨reason, -, ho⟩
  · obtain ⟨m, -, -, -, -, rfl⟩ := Baseline.reusable_eq_some.1 hf
    rw [ho]
    refine ⟨fun r hr ↦ ?_, hb.ordered.filter _, fun r hr ↦ hb.placed r (List.mem_of_mem_filter hr)⟩
    exact of_decide_eq_true (List.mem_filter.1 hr).2
  · rw [ho]
    exact ofFile_of_readDocument hf
  · rw [ho]
    exact ⟨List.forall_mem_nil _, .nil, List.forall_mem_nil _⟩

theorem records_of_isFailed {o : Outcome} (h : o.isFailed = true) : o.records = [] := by
  cases o with
  | failed reason => rfl
  | reused f => cases h
  | read f => cases h

theorem records_snapshotOf :
    (snapshotOf outcomes now).records = outcomes.flatMap fun p ↦ p.2.records := rfl

theorem manifest_snapshotOf :
    (snapshotOf outcomes now).manifest = outcomes.map fun p ↦ manifestEntry p.1 p.2 := rfl

theorem failures_snapshotOf : (snapshotOf outcomes now).failures.map FailedFile.file =
    ((snapshotOf outcomes now).manifest.filter ManifestEntry.failed).map ManifestEntry.file := by
  change (outcomes.filterMap fun p ↦ failure? p.1 p.2).map FailedFile.file =
    ((outcomes.map fun p ↦ manifestEntry p.1 p.2).filter ManifestEntry.failed).map
      ManifestEntry.file
  induction outcomes with
  | nil => rfl
  | cons p outcomes ih =>
    obtain ⟨file, o⟩ := p
    cases o with
    | failed reason => exact congrArg (file.name :: ·) ih
    | reused f => exact ih
    | read f => exact ih

theorem valid_snapshotOf (hlisted : outcomes.Pairwise fun p q ↦ p.1.name < q.1.name)
    (hfile : ∀ p ∈ outcomes, ActionRecord.OfFile p.1.name p.2.records) (now : Nat) :
    (snapshotOf outcomes now).Valid := by
  have hordered : (snapshotOf outcomes now).records.Pairwise Before := by
    refine List.pairwise_flatMap.2 ⟨fun p hp ↦ (hfile p hp).ordered, ?_⟩
    refine hlisted.imp_of_mem fun hp hq hlt r hr s hs ↦ ?_
    -- records of different files are ordered by the names of the files
    left
    rw [(hfile _ hp).skillFile r hr, (hfile _ hq).skillFile s hs]
    exact Json.ofString_lt_iff.2 hlt
  have hplaced : ∀ r ∈ (snapshotOf outcomes now).records, r.Placed := by
    intro r hr
    rw [records_snapshotOf] at hr
    obtain ⟨p, hp, hr⟩ := List.mem_flatMap.1 hr
    exact (hfile p hp).placed r hr
  have hdistinct := ActionRecord.nodup_address hordered hplaced
  refine ⟨hordered, hplaced, hdistinct, fun _ _ _ ↦ positionOf_eq_some hdistinct, ?_, ?_, ?_,
    failures_snapshotOf⟩
  · exact List.pairwise_map.2 (hlisted.imp Json.ofString_lt_iff.2)
  · intro r hr
    rw [records_snapshotOf] at hr
    obtain ⟨p, hp, hr⟩ := List.mem_flatMap.1 hr
    refine ⟨manifestEntry p.1 p.2, List.mem_map_of_mem hp, ((hfile p hp).skillFile r hr).symm, ?_⟩
    refine Bool.eq_false_iff.2 fun hfailed ↦ ?_
    rw [records_of_isFailed hfailed] at hr
    cases hr
  · intro m hm
    obtain ⟨p, hp, rfl⟩ := List.mem_map.1 hm
    -- names in order are distinct, so the records that name a file are those of its outcome
    have hown := filter_records_flatMap (fun p : CorpusFile × Outcome ↦ p.1.name)
      (fun p ↦ p.2.records) (fun p hp ↦ (hfile p hp).skillFile) (hlisted.imp fun h ↦ h.ne) hp
    refine ⟨congrArg List.length hown, fun hfailed ↦ ?_⟩
    exact congrArg List.length (records_of_isFailed hfailed)

theorem describes_reportOf (outcomes : List (CorpusFile × Outcome)) (now : Nat) :
    (reportOf outcomes).Describes (snapshotOf outcomes now) := by
  have hlength : (reportOf outcomes).failures.length = outcomes.countP fun p ↦ p.2.isFailed := by
    refine List.length_filterMap_eq_countP.trans (List.countP_congr fun p _ ↦ ?_)
    obtain ⟨file, o⟩ := p
    cases o <;> exact Iff.rfl
  refine ⟨(List.length_map _).symm, rfl, ?_, ?_, ?_, ?_, ?_⟩
  · rw [hlength, Nat.add_comm]
    refine (List.length_eq_countP_add_countP fun p ↦ p.2.isFailed).trans ?_
    refine congrArg _ (List.countP_congr fun p _ ↦ ?_)
    simp only [decide_not, Bool.decide_eq_true]
  · refine List.countP_mono_left fun p _ hreused ↦ ?_
    obtain ⟨file, o⟩ := p
    cases o with
    | reused f => rfl
    | read f => rfl
    | failed reason => cases hreused
  · exact List.length_flatMap.symm
  · rw [manifest_snapshotOf, List.map_map]
    rfl
  · rw [manifest_snapshotOf, List.map_map]
    rfl

variable {t : FileTree} {root : String} {s : Snapshot} {report : BuildReport}

/-- What a build gives is valid, if what it may take over is sound. -/
theorem valid_of_build (hb : b.Sound)
    (h : build t root b shownParameters now = .ok (s, report)) : s.Valid := by
  obtain ⟨files, hscan, rfl, -⟩ := build_eq_ok.1 h
  refine valid_snapshotOf ?_ ?_ now
  · exact List.pairwise_map.2 (Corpus.scan_listed hscan)
  · intro p hp
    obtain ⟨file, -, rfl⟩ := List.mem_map.1 hp
    exact ofFile_of_outcomeOf hb shownParameters file

theorem describes_of_build (h : build t root b shownParameters now = .ok (s, report)) :
    report.Describes s := by
  obtain ⟨files, -, rfl, rfl⟩ := build_eq_ok.1 h
  exact describes_reportOf _ now

end Catalog

theorem Snapshot.valid_empty : Snapshot.empty.Valid := by
  change (Catalog.snapshotOf [] 0).Valid
  exact Catalog.valid_snapshotOf .nil (List.forall_mem_nil _) 0

end ActionCatalog
