import ActionCatalog.Catalog.Build
import ActionCatalog.Proofs.Outcomes

namespace ActionCatalog

open SkillDocument (Flattened)

variable {b : Baseline} {file : CorpusFile} {f : Flattened}

theorem Baseline.reusable_eq_some : b.reusable? file = some f ↔
    ∃ m, b.entry? file.name = some m ∧ m.failed = false ∧ m.marker = file.marker ∧
      (b.recordsOf file.name).length = m.actions ∧ f = ⟨b.recordsOf file.name, m.skipped⟩ := by
  unfold reusable?
  split
  · rename_i hnone
    simp [hnone]
  · rename_i m hm
    simp only [hm, Option.some.injEq, exists_eq_left']
    split
    · rename_i hnot
      constructor
      · exact nofun
      · rintro ⟨hfailed, hmarker, hlength, -⟩
        rcases hnot with h | h | h
        · rw [hfailed] at h
          cases h
        · exact absurd hmarker h
        · exact absurd hlength h
    · rename_i hkept
      simp only [not_or, not_not, Bool.not_eq_true] at hkept
      obtain ⟨hfailed, hmarker, hlength⟩ := hkept
      simp [hfailed, hmarker, hlength, eq_comm]

theorem Baseline.mem_of_entry {m : ManifestEntry} {name : String} (h : b.entry? name = some m) :
    m ∈ b.manifest ∧ m.file = name := by
  obtain ⟨hmem, hname⟩ := List.mem_filter.1 (List.mem_of_getLast? h)
  exact ⟨hmem, of_decide_eq_true hname⟩

namespace Catalog

variable {shownParameters now : Nat}

theorem outcomeOf_cases (b : Baseline) (shownParameters : Nat) (file : CorpusFile) :
    (∃ f, b.reusable? file = some f ∧ outcomeOf b shownParameters file = .reused f) ∨
    (∃ f, readDocument file shownParameters = .ok f ∧
      outcomeOf b shownParameters file = .read f) ∨
    ∃ reason, readDocument file shownParameters = .error reason ∧
      outcomeOf b shownParameters file = .failed reason := by
  unfold outcomeOf
  cases b.reusable? file with
  | some f => exact .inl ⟨f, rfl, rfl⟩
  | none =>
    right
    cases readDocument file shownParameters with
    | ok f => exact .inl ⟨f, rfl, rfl⟩
    | error reason => exact .inr ⟨reason, rfl, rfl⟩

theorem build_eq_ok {t : FileTree} {root : String} {s : Snapshot} {report : BuildReport} :
    build t root b shownParameters now = .ok (s, report) ↔ ∃ files,
      Corpus.scan t root = .ok files ∧
      s = snapshotOf (files.map fun file ↦ (file, outcomeOf b shownParameters file)) now ∧
      report = reportOf (files.map fun file ↦ (file, outcomeOf b shownParameters file)) := by
  unfold build
  cases Corpus.scan t root with
  | error e => simp [bind, Except.bind]
  | ok files => simp [bind, Except.bind, pure, Except.pure, eq_comm]

theorem build_error {t : FileTree} {root : String} {e : CorpusError}
    (hscan : Corpus.scan t root = .error e) : build t root b shownParameters now = .error e := by
  rw [build, hscan]
  rfl

/-- If items name themselves in their records, the records that name an item are its own. -/
theorem filter_records_flatMap {ι : Type} (name : ι → String) (records : ι → List ActionRecord)
    {is : List ι} {i : ι} (hname : ∀ i ∈ is, ∀ r ∈ records i, r.skillFile = name i)
    (hdistinct : is.Pairwise fun i j ↦ name i ≠ name j) (hi : i ∈ is) :
    ((is.flatMap records).filter fun r ↦ r.skillFile = name i) = records i := by
  -- all records of an item are kept or dropped together
  have hkeep {j k : ι} (hj : ∀ r ∈ records j, r.skillFile = name j) (hsame : name j = name k) :
      ((records j).filter fun r ↦ r.skillFile = name k) = records j := by
    refine List.filter_eq_self.2 fun r hr ↦ ?_
    rw [hj r hr, hsame, decide_eq_true rfl]
  have hdrop {j k : ι} (hj : ∀ r ∈ records j, r.skillFile = name j) (hother : name j ≠ name k) :
      ((records j).filter fun r ↦ r.skillFile = name k) = [] := by
    refine List.filter_eq_nil_iff.2 fun r hr ↦ ?_
    rw [hj r hr, decide_eq_true_eq]
    exact hother
  induction is with
  | nil => cases hi
  | cons j is ih =>
    obtain ⟨hj, his⟩ := List.forall_mem_cons.1 hname
    obtain ⟨hfirst, hrest⟩ := List.pairwise_cons.1 hdistinct
    rw [List.flatMap_cons, List.filter_append]
    rcases List.mem_cons.1 hi with rfl | hi
    · rw [hkeep hj rfl, List.filter_flatMap]
      have hnone : (is.flatMap fun k ↦ (records k).filter fun r ↦ r.skillFile = name i) = [] :=
        List.flatMap_eq_nil_iff.2 fun k hk ↦ hdrop (his k hk) (hfirst k hk).symm
      rw [hnone, List.append_nil]
    · rw [hdrop hj (hfirst i hi), List.nil_append, ih his hrest hi]

end Catalog

end ActionCatalog
