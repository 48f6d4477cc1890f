import ActionCatalog.Proofs.Catalog.Reload

namespace ActionCatalog

open FileTree (piecesOf IsEntryName IsFileName NamesLink)

theorem Attempt.step_cases (a : Attempt) (f : FileTree → Except FileError FileTree) :
    (a.step f).tree = a.tree ∨ a.failure? = none ∧ f a.tree = .ok (a.step f).tree := by
  unfold step
  split
  · exact .inl rfl
  rename_i hgood
  cases hf : f a.tree with
  | error e => exact .inl rfl
  | ok t => exact .inr ⟨by simpa using hgood, rfl⟩

namespace Artifact

variable {t : FileTree} {directory root : String} {s : Snapshot} {now : Nat} {content : List UInt8}

/-- Whether the path of a directory never leads up, and no link stands where the draft goes. -/
structure Undiverted (t : FileTree) (directory : String) : Prop where
  up : ".." ∉ piecesOf directory
  draft : ¬(t.makeDirectories directory).tree.NamesLink (draftIn directory)

instance (t : FileTree) (directory : String) : Decidable (Undiverted t directory) :=
  decidable_of_iff (".." ∉ piecesOf directory ∧
    ¬(t.makeDirectories directory).tree.NamesLink (draftIn directory))
    ⟨fun h ↦ ⟨h.1, h.2⟩, fun h ↦ ⟨h.1, h.2⟩⟩

theorem read_of_remove (h : (remove t directory).read (fileIn directory) = .ok content) :
    t.read (fileIn directory) = .ok content := by
  unfold remove at h
  dsimp only at h
  split at h
  · cases hremove : t.removeFile (fileIn directory) with
    | error e =>
      rw [hremove] at h
      exact h
    | ok t' =>
      obtain ⟨l, n, -, -, -, rfl⟩ := FileTree.exists_of_removeFile hremove
      rw [hremove] at h
      exact FileTree.read_of_remove h
  · exact h

def drafting (t : FileTree) (directory root : String) (s : Snapshot) (now : Nat) : Attempt :=
  (t.makeDirectories directory).step fun t ↦
    t.write (draftIn directory) (ofSnapshot root s).encode now

theorem read_of_drafting (hup : ".." ∉ piecesOf directory)
    (h : (drafting t directory root s now).tree.read (fileIn directory) = .ok content) :
    content = (ofSnapshot root s).encode ∨ t.read (fileIn directory) = .ok content := by
  have hname : IsFileName "snapshot.json" :=
    ⟨⟨by decide, by decide, by decide, by decide⟩, by decide, by decide⟩
  have hmade (h : (t.makeDirectories directory).tree.read (fileIn directory) = .ok content) :
      t.read (fileIn directory) = .ok content := FileTree.read_of_makeDirectories hup hname h
  unfold drafting at h
  rcases Attempt.step_cases (t.makeDirectories directory) fun t ↦
      t.write (draftIn directory) (ofSnapshot root s).encode now with hsame | ⟨-, hwrite⟩
  · rw [hsame] at h
    exact .inr (hmade h)
  · obtain ⟨l, -, hput⟩ := FileTree.exists_of_write hwrite
    rw [hput] at h
    exact (FileTree.read_of_put h).imp_right hmade

/-- Whatever step of saving fails, the artifact that can be read, if any, is the new one or the one
before. -/
theorem read_of_save (hplace : Undiverted t directory)
    (h : (save t directory root s now).read (fileIn directory) = .ok content) :
    content = (ofSnapshot root s).encode ∨ t.read (fileIn directory) = .ok content := by
  change ((drafting t directory root s now).step fun t ↦
    t.rename (draftIn directory) (fileIn directory)).tree.read _ = _ at h
  rcases Attempt.step_cases (drafting t directory root s now) fun t ↦
      t.rename (draftIn directory) (fileIn directory) with hsame | ⟨hdone, hrename⟩
  · rw [hsame] at h
    exact read_of_drafting hplace.up h
  obtain ⟨t', -, hwrite, htree⟩ := Attempt.exists_of_step hdone
  change (drafting t directory root s now).tree = t' at htree
  obtain ⟨l, m, n, hl, -, hn, hmoved⟩ := FileTree.exists_of_rename hrename
  -- what is moved is what has just been written
  have hdraftName : IsEntryName "snapshot.json.tmp" := ⟨by decide, by decide, by decide, by decide⟩
  obtain ⟨outer, -, hdraft, -⟩ := exists_pieces directory
  rw [htree] at hl hn
  obtain ⟨-, hn'⟩ := FileTree.put_of_write hdraftName hdraft hplace.draft hwrite hl
  obtain rfl := Option.some.inj (hn.symm.trans hn')
  rcases hmoved with ⟨-, hsame⟩ | ⟨-, -, hmoved⟩
  · rw [hsame] at h
    exact read_of_drafting hplace.up h
  · rw [hmoved] at h
    rcases FileTree.read_of_put h with hnew | h
    · exact .inl hnew
    · exact read_of_drafting hplace.up (FileTree.read_of_remove h)

end Artifact

end ActionCatalog
