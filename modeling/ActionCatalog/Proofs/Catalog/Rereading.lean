import ActionCatalog.Proofs.ActionRecord.RoundTrip
import ActionCatalog.Proofs.Catalog.Reuse
import ActionCatalog.Proofs.SkillDocument.Contents

namespace ActionCatalog

open Json (Value)

namespace Catalog

variable {file : CorpusFile} {b : Baseline} {allowed : Nat → Prop} {shownParameters now : Nat}

def documentOf (file : CorpusFile) : Except String Value := do
  let content ← file.content.mapError fun e ↦ s!"read error: {e.message}"
  (Value.read content).mapError fun e ↦ s!"invalid JSON: {e.message}"

theorem readDocument_eq (file : CorpusFile) (shownParameters : Nat) :
    readDocument file shownParameters = documentOf file >>= fun document ↦
      (SkillDocument.flatten file.name ((UnixPath.stem? file.name).getD file.name) shownParameters
        document).mapError SkillDocument.ShapeError.message := by
  unfold readDocument documentOf
  cases file.content.mapError fun e ↦ s!"read error: {e.message}" <;> rfl

/-- Whether all numbers of a document are read back from the text that they are written as; integers
that fit a word always are. -/
def Exact (file : CorpusFile) : Prop :=
  ∀ v ∈ (documentOf file).toOption, ∀ x ∈ v.doubles, x.reread? = some x

instance (file : CorpusFile) : Decidable (Exact file) :=
  inferInstanceAs (Decidable (∀ v ∈ (documentOf file).toOption, _))

theorem exact_of_readDocument {f : SkillDocument.Flattened} (hexact : Exact file)
    (h : readDocument file shownParameters = .ok f) {r : ActionRecord} (hr : r ∈ f.records) :
    ∀ x ∈ r.parameters.doubles, x.reread? = some x := by
  rw [readDocument_eq] at h
  obtain ⟨document, hdocument, h⟩ := exists_of_bind_ok h
  have hsubset := SkillDocument.doubles_flatten (mapError_eq_ok.1 h) hr
  exact fun x hx ↦ hexact document (toOption_eq_some.2 hdocument) x (hsubset hx)

theorem exact_of_flattenedOf (hexact : Exact file) {r : ActionRecord}
    (hr : r ∈ (flattenedOf shownParameters file).records) :
    ∀ x ∈ r.parameters.doubles, x.reread? = some x := by
  unfold flattenedOf at hr
  cases hread : readDocument file shownParameters with
  | error e =>
    rw [hread] at hr
    cases hr
  | ok f =>
    rw [hread] at hr
    exact exact_of_readDocument hexact hread hr

theorem readDocument_summarized (file : CorpusFile) (shownParameters k : Nat) :
    readDocument file k =
      (readDocument file shownParameters).map (SkillDocument.Flattened.summarized k) := by
  rw [readDocument_eq, readDocument_eq]
  cases documentOf file with
  | error e => rfl
  | ok document =>
    change ((SkillDocument.flatten _ _ k document).mapError _) =
      ((SkillDocument.flatten _ _ shownParameters document).mapError _).map _
    rw [SkillDocument.flatten_summarized _ _ shownParameters k document]
    cases SkillDocument.flatten file.name ((UnixPath.stem? file.name).getD file.name)
      shownParameters document <;> rfl

theorem records_summarized (file : CorpusFile) (shownParameters k : Nat) :
    (flattenedOf k file).records =
      (flattenedOf shownParameters file).records.map (ActionRecord.summarized k) := by
  unfold flattenedOf
  rw [readDocument_summarized file shownParameters k]
  cases readDocument file shownParameters <;> rfl

theorem summarized_of_mem {r : ActionRecord} (hr : r ∈ (flattenedOf shownParameters file).records) :
    r.summarized shownParameters = r := by
  have hmap := records_summarized file shownParameters shownParameters
  exact List.map_inj_left.1 (hmap.symm.trans (List.map_id _).symm) r hr

theorem entryOf_eq (file : CorpusFile) (shownParameters k : Nat) :
    entryOf k file = entryOf shownParameters file := by
  unfold entryOf flattenedOf isFailed
  rw [readDocument_summarized file shownParameters k]
  cases readDocument file shownParameters with
  | error e => rfl
  | ok f =>
    simp only [Except.map, Except.toOption, Option.getD_some, SkillDocument.Flattened.summarized,
      List.length_map, Option.isNone_some]

/-- Whether two snapshots differ at most in the summaries, which show an allowed number of
parameters. -/
structure AgreeButSummaries (allowed : Nat → Prop) (s s' : Snapshot) : Prop where
  manifest : s.manifest = s'.manifest
  failures : s.failures = s'.failures
  records : List.Forall₂ (fun r r' ↦ ∃ k, allowed k ∧ r = r'.summarized k) s.records s'.records

theorem agree_referenceOf {shown : List (CorpusFile × Nat)} (hallowed : ∀ p ∈ shown, allowed p.2)
    (shownParameters now : Nat) : AgreeButSummaries allowed (referenceOf shown now)
      (reference (shown.map Prod.fst) shownParameters now) := by
  refine ⟨?_, ?_, ?_⟩
  · change shown.map (fun p ↦ entryOf p.2 p.1) = (shown.map Prod.fst).map (entryOf shownParameters)
    rw [List.map_map]
    exact List.map_congr_left fun p _ ↦ entryOf_eq p.1 shownParameters p.2
  · change shown.filterMap _ = (shown.map Prod.fst).filterMap _
    rw [List.filterMap_map]
    refine List.filterMap_congr fun p _ ↦ ?_
    rw [Function.comp_apply, readDocument_summarized p.1 shownParameters p.2]
    cases readDocument p.1 shownParameters <;> rfl
  · change List.Forall₂ _ (shown.flatMap fun p ↦ (flattenedOf p.2 p.1).records)
      ((shown.map Prod.fst).flatMap fun file ↦ (flattenedOf shownParameters file).records)
    induction shown with
    | nil => exact .nil
    | cons p shown ih =>
      obtain ⟨hp, hshown⟩ := List.forall_mem_cons.1 hallowed
      rw [List.map_cons, List.flatMap_cons, List.flatMap_cons,
        records_summarized p.1 shownParameters p.2]
      refine List.rel_append ?_ (ih hshown)
      rw [List.forall₂_map_left_iff]
      exact List.forall₂_same.2 fun r _ ↦ ⟨p.2, hp, rfl⟩

theorem agree_self {shown : List (CorpusFile × Nat)} (hallowed : ∀ p ∈ shown, allowed p.2)
    (now : Nat) :
    AgreeButSummaries allowed (referenceOf shown now) (referenceOf shown now) := by
  refine ⟨rfl, rfl, List.forall₂_same.2 fun r hr ↦ ?_⟩
  obtain ⟨p, hp, hr⟩ := List.mem_flatMap.1 hr
  exact ⟨p.2, hallowed p hp, (summarized_of_mem hr).symm⟩

theorem eq_of_reread {records records' : List ActionRecord}
    (hexact : ∀ r ∈ records, ∀ x ∈ r.parameters.doubles, x.reread? = some x)
    (h : records.mapM ActionRecord.reread? = some records') : records' = records := by
  have hsame : records.mapM ActionRecord.reread? = some records := by
    refine mapM_eq_some_self.2 fun r hr ↦ ?_
    obtain ⟨r', -, hr'⟩ := exists_of_mem_mapM h hr
    obtain ⟨htrack, haction, -⟩ := ActionRecord.reread_eq_some.1 hr'
    exact ActionRecord.reread_eq_self.2 ⟨htrack, haction, hexact r hr⟩
  exact Option.some.inj (h.symm.trans hsame)

theorem exists_shown {files : List CorpusFile}
    (h : ∀ file ∈ files, ∃ k, allowed k ∧
      (outcomeOf b shownParameters file).forget = readDocument file k) :
    ∃ shown : List (CorpusFile × Nat), shown.map Prod.fst = files ∧ ∀ p ∈ shown, allowed p.2 ∧
      (outcomeOf b shownParameters p.1).forget = readDocument p.1 p.2 := by
  choose! k hk using h
  refine ⟨files.map fun file ↦ (file, k file), ?_, List.forall_mem_map.2 hk⟩
  rw [List.map_map]
  exact List.map_id files

theorem exists_forget (hallowed : allowed shownParameters)
    (h : ∀ f, b.reusable? file = some f → ∃ k, allowed k ∧ readDocument file k = .ok f) :
    ∃ k, allowed k ∧ (outcomeOf b shownParameters file).forget = readDocument file k := by
  rcases outcomeOf_cases b shownParameters file with ⟨f, hf, ho⟩ | ⟨f, hf, ho⟩ | ⟨reason, hf, ho⟩
  · obtain ⟨k, hk, hread⟩ := h f hf
    exact ⟨k, hk, by rw [ho, hread]; rfl⟩
  · exact ⟨shownParameters, hallowed, by rw [ho, hf]; rfl⟩
  · exact ⟨shownParameters, hallowed, by rw [ho, hf]; rfl⟩

end Catalog

end ActionCatalog
