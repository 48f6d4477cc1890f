import ActionCatalog.Proofs.Catalog.Attainable
import ActionCatalog.Proofs.FileTree.NewDirectories

namespace ActionCatalog

open FileTree (piecesOf IsEntryName NamesLink)

theorem Attempt.exists_of_step {a : Attempt} {f : FileTree → Except FileError FileTree}
    (h : (a.step f).failure? = none) :
    ∃ t, a.failure? = none ∧ f a.tree = .ok t ∧ (a.step f).tree = t := by
  unfold step at h ⊢
  split at h
  · rename_i hfailed
    rw [h] at hfailed
    cases hfailed
  rename_i hgood
  rw [if_neg hgood]
  cases hf : f a.tree with
  | error e =>
    rw [hf] at h
    cases h
  | ok t => exact ⟨t, by simpa using hgood, rfl, rfl⟩

namespace Artifact

variable {t : FileTree} {directory root : String} {s : Snapshot} {now : Nat}

def saving (t : FileTree) (directory root : String) (s : Snapshot) (now : Nat) : Attempt :=
  ((t.makeDirectories directory).step fun t ↦
    t.write (draftIn directory) (ofSnapshot root s).encode now).step fun t ↦
      t.rename (draftIn directory) (fileIn directory)

/-- Whether a snapshot is saved, and no link stands where its artifact or the draft of it goes. -/
structure Saves (t : FileTree) (directory root : String) (s : Snapshot) (now : Nat) : Prop where
  done : (saving t directory root s now).failure? = none
  draft : ¬(t.makeDirectories directory).tree.NamesLink (draftIn directory)
  file : ¬(t.makeDirectories directory).tree.NamesLink (fileIn directory)

instance (t : FileTree) (directory root : String) (s : Snapshot) (now : Nat) :
    Decidable (Saves t directory root s now) :=
  decidable_of_iff ((saving t directory root s now).failure? = none ∧
    ¬(t.makeDirectories directory).tree.NamesLink (draftIn directory) ∧
    ¬(t.makeDirectories directory).tree.NamesLink (fileIn directory))
    ⟨fun h ↦ ⟨h.1, h.2.1, h.2.2⟩, fun h ↦ ⟨h.1, h.2, h.3⟩⟩

theorem exists_pieces (directory : String) : ∃ outer,
    piecesOf (fileIn directory) = outer ++ ["snapshot.json"] ∧
      piecesOf (draftIn directory) = outer ++ ["snapshot.json.tmp"] ∧
      UnixPath.isAbsolute (draftIn directory) = UnixPath.isAbsolute (fileIn directory) := by
  have hfile : piecesOf "snapshot.json" = ["snapshot.json"] := by decide +kernel
  have hdraft : piecesOf "snapshot.json.tmp" = ["snapshot.json.tmp"] := by decide +kernel
  by_cases hnone : directory = ""
  · subst hnone
    exact ⟨[], hfile, hdraft, by decide +kernel⟩
  have habsolute : UnixPath.isAbsolute "snapshot.json" = false := by decide +kernel
  obtain ⟨outer, hjoin, -⟩ := UnixPath.exists_join hnone habsolute
  have hname : fileIn directory = outer ++ "/" ++ "snapshot.json" := hjoin
  have hdraftName : draftIn directory = outer ++ "/" ++ "snapshot.json.tmp" := by
    rw [draftIn, hname, String.append_assoc]
    rfl
  refine ⟨piecesOf outer, ?_, ?_, ?_⟩
  · rw [hname, FileTree.piecesOf_append, hfile]
  · rw [hdraftName, FileTree.piecesOf_append, hdraft]
  · rw [hname, hdraftName, UnixPath.isAbsolute, UnixPath.isAbsolute]
    cases houter : outer.toList <;> simp [houter]

theorem read_save (h : Saves t directory root s now) :
    (save t directory root s now).read (fileIn directory) = .ok (ofSnapshot root s).encode := by
  obtain ⟨t₂, hwritten, hrename, htree⟩ := Attempt.exists_of_step h.done
  obtain ⟨t₁, -, hwrite, htree₁⟩ := Attempt.exists_of_step hwritten
  obtain ⟨outer, hfile, hdraft, habsolute⟩ := exists_pieces directory
  have hfileName : IsEntryName "snapshot.json" := ⟨by decide, by decide, by decide, by decide⟩
  have hdraftName : IsEntryName "snapshot.json.tmp" := ⟨by decide, by decide, by decide, by decide⟩
  change (saving t directory root s now).tree.read _ = _
  rw [saving, htree]
  rw [htree₁] at hrename
  exact FileTree.read_of_rename hdraftName hfileName (by decide) hdraft hfile habsolute h.draft
    h.file hwrite hrename

end Artifact

/-- Whether the numbers of a snapshot fit the words that they are kept in. -/
structure Snapshot.InWords (s : Snapshot) : Prop where
  builtAt : s.builtAt < 2 ^ 64
  manifest : ∀ m ∈ s.manifest, m.Storable
  records : ∀ r ∈ s.records, r.trackIndex < 2 ^ 64 ∧ r.actionIndex < 2 ^ 64

instance (s : Snapshot) : Decidable s.InWords :=
  decidable_of_iff (s.builtAt < 2 ^ 64 ∧ (∀ m ∈ s.manifest, m.Storable) ∧
    ∀ r ∈ s.records, r.trackIndex < 2 ^ 64 ∧ r.actionIndex < 2 ^ 64)
    ⟨fun h ↦ ⟨h.1, h.2.1, h.2.2⟩, fun h ↦ ⟨h.1, h.2, h.3⟩⟩

namespace Artifact

variable {corpus t : FileTree} {b : Baseline} {directory root : String}
  {shownParameters builtAt now : Nat} {s : Snapshot} {report : BuildReport}

theorem load_of_build (hb : b.Attainable)
    (hbuild : Catalog.build corpus root b shownParameters builtAt = .ok (s, report))
    (hsave : Saves t directory root s now) :
    load? (save t directory root s now) directory root =
      (ofSnapshot root s).reread?.map fun a ↦ ⟨a.manifest, a.records⟩ := by
  have hformed := Catalog.wellFormed_of_build hb.wellFormed hbuild
  have hsame : UnixPath.samePath root root = true := beq_self_eq_true _
  rw [load_of_read hformed (read_save hsave), if_pos hsame]

theorem mapM_reread_self (hwords : s.InWords) :
    s.records.mapM ActionRecord.reread? = some s.records ↔
      ∀ r ∈ s.records, ∀ x ∈ r.parameters.doubles, x.reread? = some x := by
  rw [mapM_eq_some_self]
  refine forall₂_congr fun r hr ↦ ActionRecord.reread_eq_self.trans ?_
  obtain ⟨htrack, haction⟩ := hwords.records r hr
  exact ⟨fun h ↦ h.2.2, fun h ↦ ⟨htrack, haction, h⟩⟩

/-- A saved snapshot is loaded as it was exactly if the shortest decimals of the binary64 numbers
among its parameters are read back to them. -/
theorem load_save (hb : b.Attainable)
    (hbuild : Catalog.build corpus root b shownParameters builtAt = .ok (s, report))
    (hwords : s.InWords) (hsave : Saves t directory root s now) :
    load? (save t directory root s now) directory root = some (.ofSnapshot s) ↔
      ∀ r ∈ s.records, ∀ x ∈ r.parameters.doubles, x.reread? = some x := by
  rw [load_of_build hb hbuild hsave, ← mapM_reread_self hwords]
  constructor
  · intro h
    obtain ⟨a, ha, h⟩ := Option.map_eq_some_iff.1 h
    obtain ⟨-, -, rs, hrs, rfl⟩ := reread_eq_some.1 ha
    exact hrs.trans (congrArg (fun b ↦ some (Baseline.records b)) h)
  · intro h
    have hreread := (reread_eq_some (a := ofSnapshot root s)).2
      ⟨hwords.builtAt, hwords.manifest, s.records, h, rfl⟩
    rw [hreread]
    rfl

/-- The only document of the corpus `/c`, with a date that does not fit a word. -/
def withDocument (content : String) : FileTree :=
  ⟨.directory [("c", .directory
    [("a.json", .file (Json.Source.ofString content) (2 ^ 64 + 5))])], []⟩

theorem exists_report
    (h : (Catalog.build t root b shownParameters builtAt).toOption.map Prod.fst = some s) :
    ∃ report, Catalog.build t root b shownParameters builtAt = .ok (s, report) := by
  obtain ⟨⟨_, report⟩, hbuild, rfl⟩ := Option.map_eq_some_iff.1 h
  exact ⟨report, toOption_eq_some.1 hbuild⟩

theorem load_save_half :
    let t := withDocument
      "\x7b\"tracks\":[\x7b\"actions\":[\x7b\"type\":\"A\",\"x\":0.5\x7d]\x7d]\x7d"
    ∃ s report, Catalog.build t "/c" .empty 4 7 = .ok (s, report) ∧
      load? (save t "/x" "/c" s 9) "/x" "/c" = some (.ofSnapshot s) := by
  intro t
  let s := ((Catalog.build t "/c" .empty 4 7).toOption.map Prod.fst).getD .empty
  have hsome : (Catalog.build t "/c" .empty 4 7).toOption.map Prod.fst = some s := by decide +kernel
  obtain ⟨report, hbuild⟩ := exists_report hsome
  have hsave : Saves t "/x" "/c" s 9 := by decide +kernel
  refine ⟨s, report, hbuild, (load_save .empty hbuild (by decide +kernel) hsave).2 ?_⟩
  decide +kernel

/-- What `5e32` is read as has a shortest text that is read as the number before it. -/
theorem load_save_inexact :
    let t := withDocument
      "\x7b\"tracks\":[\x7b\"actions\":[\x7b\"type\":\"A\",\"x\":5e32\x7d]\x7d]\x7d"
    ∃ s report, Catalog.build t "/c" .empty 4 7 = .ok (s, report) ∧ Saves t "/x" "/c" s 9 ∧
      load? (save t "/x" "/c" s 9) "/x" "/c" ≠ some (.ofSnapshot s) := by
  intro t
  let s := ((Catalog.build t "/c" .empty 4 7).toOption.map Prod.fst).getD .empty
  have hsome : (Catalog.build t "/c" .empty 4 7).toOption.map Prod.fst = some s := by decide +kernel
  obtain ⟨report, hbuild⟩ := exists_report hsome
  have hsave : Saves t "/x" "/c" s 9 := by decide +kernel
  refine ⟨s, report, hbuild, hsave, ?_⟩
  rw [load_of_build .empty hbuild hsave]
  decide +kernel

end Artifact

end ActionCatalog
