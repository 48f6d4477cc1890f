import ActionCatalog.Proofs.Catalog.Build
import ActionCatalog.Proofs.Keyed
import ActionCatalog.Proofs.SkillDocument.Flatten

namespace ActionCatalog

open SkillDocument (Flattened)

def Outcome.forget : Outcome → Except String Flattened
  | .reused f | .read f => .ok f
  | .failed reason => .error reason

namespace Catalog

variable {files : List CorpusFile} {file : CorpusFile} {b : Baseline} {shownParameters now : Nat}

def flattenedOf (shownParameters : Nat) (file : CorpusFile) : Flattened :=
  (readDocument file shownParameters).toOption.getD ⟨[], 0⟩

def isFailed (shownParameters : Nat) (file : CorpusFile) : Bool :=
  (readDocument file shownParameters).toOption.isNone

def entryOf (shownParameters : Nat) (file : CorpusFile) : ManifestEntry :=
  ⟨file.name, file.marker, (flattenedOf shownParameters file).records.length,
    (flattenedOf shownParameters file).skipped, isFailed shownParameters file⟩

/-- The snapshot of documents that are each read by itself, one after the other. -/
def reference (files : List CorpusFile) (shownParameters now : Nat) : Snapshot where
  records := files.flatMap fun file ↦ (flattenedOf shownParameters file).records
  manifest := files.map (entryOf shownParameters)
  failures := files.filterMap fun file ↦
    match readDocument file shownParameters with
    | .ok _ => none
    | .error reason => some ⟨file.name, reason⟩
  builtAt := now

def referenceOf (shown : List (CorpusFile × Nat)) (now : Nat) : Snapshot where
  records := shown.flatMap fun p ↦ (flattenedOf p.2 p.1).records
  manifest := shown.map fun p ↦ entryOf p.2 p.1
  failures := shown.filterMap fun p ↦
    match readDocument p.1 p.2 with
    | .ok _ => none
    | .error reason => some ⟨p.1.name, reason⟩
  builtAt := now

theorem reference_eq (files : List CorpusFile) (shownParameters now : Nat) :
    reference files shownParameters now =
      referenceOf (files.map fun file ↦ (file, shownParameters)) now := by
  unfold reference referenceOf
  rw [List.flatMap_map, List.map_map, List.filterMap_map]
  rfl

/-- The report of documents that are each read by itself, but for the number of those that need not
be. -/
def referenceReport (files : List CorpusFile) (shownParameters reusedFiles : Nat) :
    BuildReport where
  totalFiles := files.length
  indexedFiles := files.countP fun file ↦ !isFailed shownParameters file
  reusedFiles := reusedFiles
  totalActions := (files.map fun file ↦ (flattenedOf shownParameters file).records.length).sum
  skippedActions := (files.map fun file ↦ (flattenedOf shownParameters file).skipped).sum
  failures := (reference files shownParameters 0).failures

theorem Outcome.of_forget {o : Outcome} (h : o.forget = readDocument file shownParameters) :
    o.records = (flattenedOf shownParameters file).records ∧
      o.skipped = (flattenedOf shownParameters file).skipped ∧
      o.isFailed = isFailed shownParameters file ∧
      failure? file o =
        match readDocument file shownParameters with
        | .ok _ => none
        | .error reason => some ⟨file.name, reason⟩ := by
  unfold flattenedOf isFailed
  rw [← h]
  cases o <;> exact ⟨rfl, rfl, rfl, rfl⟩

/-- Whether whatever is taken over for a file is what reading it would give. -/
def Faithful (b : Baseline) (shownParameters : Nat) (file : CorpusFile) : Prop :=
  ∀ f, b.reusable? file = some f → readDocument file shownParameters = .ok f

theorem forget_outcomeOf (h : Faithful b shownParameters file) :
    (outcomeOf b shownParameters file).forget = readDocument file shownParameters := by
  unfold outcomeOf
  split
  · rename_i f hf
    exact (h f hf).symm
  · cases hread : readDocument file shownParameters <;> rfl

theorem snapshotOf_eq_referenceOf (outcome : CorpusFile → Outcome) (now : Nat)
    {shown : List (CorpusFile × Nat)}
    (h : ∀ p ∈ shown, (outcome p.1).forget = readDocument p.1 p.2) :
    snapshotOf (shown.map fun p ↦ (p.1, outcome p.1)) now = referenceOf shown now := by
  have hforget (p) (hp : p ∈ shown) := Outcome.of_forget (h p hp)
  unfold snapshotOf referenceOf
  congr 1
  · rw [List.flatMap_map]
    exact List.flatMap_congr fun p hp ↦ (hforget p hp).1
  · rw [List.map_map]
    refine List.map_congr_left fun p hp ↦ ?_
    obtain ⟨hrecords, hskipped, hfailed, -⟩ := hforget p hp
    simp only [Function.comp_apply, manifestEntry, entryOf, hrecords, hskipped, hfailed]
  · rw [List.filterMap_map]
    exact List.filterMap_congr fun p hp ↦ (hforget p hp).2.2.2

theorem snapshotOf_eq (h : ∀ file ∈ files, Faithful b shownParameters file) :
    snapshotOf (files.map fun file ↦ (file, outcomeOf b shownParameters file)) now =
      reference files shownParameters now := by
  have hforget : ∀ p ∈ files.map fun file ↦ (file, shownParameters),
      (outcomeOf b shownParameters p.1).forget = readDocument p.1 p.2 := by
    intro p hp
    obtain ⟨file, hf, rfl⟩ := List.mem_map.1 hp
    exact forget_outcomeOf (h file hf)
  have hsnapshot := snapshotOf_eq_referenceOf (outcomeOf b shownParameters) now hforget
  rw [List.map_map] at hsnapshot
  rw [reference_eq]
  exact hsnapshot

def reusedCount (b : Baseline) (shownParameters : Nat) (files : List CorpusFile) : Nat :=
  files.countP fun file ↦ (outcomeOf b shownParameters file).isReused

theorem reusedCount_empty : reusedCount .empty shownParameters files = 0 := by
  refine List.countP_eq_zero.2 fun file _ ↦ ?_
  unfold outcomeOf
  change ¬(match readDocument file shownParameters with
    | .ok f => Outcome.read f
    | .error reason => .failed reason).isReused = true
  cases readDocument file shownParameters <;> exact Bool.false_ne_true

theorem reportOf_eq (h : ∀ file ∈ files, Faithful b shownParameters file) :
    reportOf (files.map fun file ↦ (file, outcomeOf b shownParameters file)) =
      referenceReport files shownParameters (reusedCount b shownParameters files) := by
  have hforget (file) (hf : file ∈ files) := Outcome.of_forget (forget_outcomeOf (h file hf))
  unfold reportOf referenceReport
  congr 1
  · exact List.length_map _
  · rw [List.countP_map]
    refine List.countP_congr fun file hf ↦ ?_
    simp only [Function.comp_apply, (hforget file hf).2.2.1]
  · rw [List.countP_map]
    rfl
  · rw [List.map_map]
    refine congrArg List.sum (List.map_congr_left fun file hf ↦ ?_)
    simp only [Function.comp_apply, (hforget file hf).1]
  · rw [List.map_map]
    refine congrArg List.sum (List.map_congr_left fun file hf ↦ ?_)
    simp only [Function.comp_apply, (hforget file hf).2.1]
  · exact congrArg Snapshot.failures (snapshotOf_eq h)

theorem faithful_empty : Faithful .empty shownParameters file := nofun

theorem readDocument_congr {g : CorpusFile} (shownParameters : Nat) (hname : g.name = file.name)
    (hcontent : g.content = file.content) :
    readDocument g shownParameters = readDocument file shownParameters := by
  unfold readDocument
  rw [hname, hcontent]

theorem skillFile_of_readDocument {f : Flattened} {r : ActionRecord}
    (h : readDocument file shownParameters = .ok f) (hr : r ∈ f.records) :
    r.skillFile = file.name := by
  obtain ⟨content, -, h⟩ := exists_of_bind_ok h
  obtain ⟨document, -, h⟩ := exists_of_bind_ok h
  exact SkillDocument.skillFile_of_flatten (mapError_eq_ok.1 h) hr

theorem skillFile_of_flattenedOf {r : ActionRecord}
    (hr : r ∈ (flattenedOf shownParameters file).records) : r.skillFile = file.name := by
  unfold flattenedOf at hr
  cases hread : readDocument file shownParameters with
  | error e =>
    rw [hread] at hr
    cases hr
  | ok f =>
    rw [hread] at hr
    exact skillFile_of_readDocument hread hr

def Listed (files : List CorpusFile) : Prop := files.Pairwise fun f g ↦ f.name < g.name

theorem filter_records {shown : List (CorpusFile × Nat)} (h : Listed (shown.map Prod.fst))
    {p : CorpusFile × Nat} (hp : p ∈ shown) :
    ((shown.flatMap fun p ↦ (flattenedOf p.2 p.1).records).filter fun r ↦
      r.skillFile = p.1.name) = (flattenedOf p.2 p.1).records :=
  filter_records_flatMap (fun p ↦ p.1.name) (fun p ↦ (flattenedOf p.2 p.1).records)
    (fun _ _ _ hr ↦ skillFile_of_flattenedOf hr) ((List.pairwise_map.1 h).imp fun hlt ↦ hlt.ne) hp

theorem readDocument_of_isFailed (h : isFailed shownParameters file = false) :
    readDocument file shownParameters = .ok (flattenedOf shownParameters file) := by
  unfold isFailed at h
  unfold flattenedOf
  cases hread : readDocument file shownParameters with
  | error e =>
    rw [hread] at h
    cases h
  | ok f => rfl

theorem exists_of_reusable {shown : List (CorpusFile × Nat)} (h : Listed (shown.map Prod.fst))
    {f : Flattened} (hf : (Baseline.ofSnapshot (referenceOf shown now)).reusable? file = some f) :
    ∃ p ∈ shown, p.1.name = file.name ∧ p.1.marker = file.marker ∧
      readDocument p.1 p.2 = .ok f := by
  obtain ⟨m, hm, hfailed, hmarker, -, rfl⟩ := Baseline.reusable_eq_some.1 hf
  obtain ⟨hmem, hname⟩ := Baseline.mem_of_entry hm
  obtain ⟨p, hp, rfl⟩ := List.mem_map.1 hmem
  have hname : p.1.name = file.name := hname
  have hrecords : (Baseline.ofSnapshot (referenceOf shown now)).recordsOf file.name =
      (flattenedOf p.2 p.1).records := by
    rw [← hname]
    exact filter_records h hp
  refine ⟨p, hp, hname, hmarker, ?_⟩
  rw [readDocument_of_isFailed hfailed, hrecords]
  rfl

theorem faithful_reference (h : Listed files)
    (hsame : ∀ g ∈ files, g.name = file.name → g.marker = file.marker → g.content = file.content) :
    Faithful (.ofSnapshot (reference files shownParameters now)) shownParameters file := by
  intro f hf
  rw [reference_eq] at hf
  have hlisted : Listed ((files.map fun file ↦ (file, shownParameters)).map Prod.fst) := by
    rw [List.map_map]
    simpa only [Function.comp_def, List.map_id'] using h
  obtain ⟨p, hp, hname, hmarker, hread⟩ := exists_of_reusable hlisted hf
  obtain ⟨g, hg, rfl⟩ := List.mem_map.1 hp
  rwa [readDocument_congr shownParameters hname (hsame g hg hname hmarker)] at hread

/-- On a baseline that is faithful about every file, a build gives what the documents give by
themselves. -/
theorem build_eq_reference {t : FileTree} {root : String} (hscan : Corpus.scan t root = .ok files)
    (h : ∀ file ∈ files, Faithful b shownParameters file) :
    build t root b shownParameters now = .ok (reference files shownParameters now,
      referenceReport files shownParameters (reusedCount b shownParameters files)) := by
  rw [← reportOf_eq h, ← snapshotOf_eq h, build, hscan]
  rfl

end Catalog

end ActionCatalog
