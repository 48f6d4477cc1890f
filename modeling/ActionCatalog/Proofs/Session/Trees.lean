import ActionCatalog.Proofs.FileTree.Changes
import ActionCatalog.Proofs.Session.Steps

namespace ActionCatalog

theorem Artifact.remove_cases (t : FileTree) (directory : String) : remove t directory = t ∨
    ∃ l n, t.entryLocation (fileIn directory) = .ok l ∧ t.at? l = some n ∧ n.isDirectory = false ∧
      remove t directory = t.remove l := by
  unfold remove
  dsimp only
  split
  · cases hr : t.removeFile (fileIn directory) with
    | error e => exact .inl rfl
    | ok t' =>
      obtain ⟨l, n, hl, hn, hfile, rfl⟩ := FileTree.exists_of_removeFile hr
      exact .inr ⟨l, n, hl, hn, hfile, rfl⟩
  · exact .inl rfl

/-- Dropping the artifact changes nothing or takes one entry away, which is no directory. -/
theorem Session.dropArtifact_cases (s : Session) : s.dropArtifact = s ∨
    ∃ d l n, s.index.buildDirectory = some d ∧
      s.tree.entryLocation (Artifact.fileIn d) = .ok l ∧ s.tree.at? l = some n ∧
      n.isDirectory = false ∧ s.dropArtifact = { s with tree := s.tree.remove l } := by
  unfold dropArtifact
  cases hd : s.index.buildDirectory with
  | none => exact .inl rfl
  | some d =>
    change { s with tree := Artifact.remove s.tree d } = s ∨ _
    rcases Artifact.remove_cases s.tree d with hsame | ⟨l, n, hl, hn, hfile, hremove⟩
    · rw [hsame]
      exact .inl rfl
    · exact .inr ⟨d, l, n, rfl, hl, hn, hfile, congrArg (fun tree ↦ { s with tree }) hremove⟩

end ActionCatalog

namespace ActionCatalog.FileTree.Kept

variable {P : Node → Prop} (hP : Kept P)

include hP

theorem save {t : FileTree} (h : P t.top) (directory root : String) (s : Snapshot) (now : Nat) :
    P (Artifact.save t directory root s now).top := by
  have hmade := hP.makeDirectories h directory
  have hwritten : P ((t.makeDirectories directory).step fun t ↦ t.write (Artifact.draftIn directory)
      (Artifact.ofSnapshot root s).encode now).tree.top := kept_step hmade fun t' ↦ hP.write hmade
  exact kept_step hwritten fun t' ↦ hP.rename hwritten

theorem buildDirectory {t t' : FileTree} {dataHome root directory : String} {settings : Settings}
    (h : P t.top) (hd : Places.buildDirectory t dataHome settings root = .ok (directory, t')) :
    P t'.top := by
  unfold Places.buildDirectory at hd
  dsimp only at hd
  split at hd
  · obtain ⟨-, rfl⟩ := Prod.mk.inj (Except.ok.inj hd)
    exact h
  · obtain ⟨made, hmade, hd⟩ := exists_of_bind_ok hd
    obtain ⟨-, rfl⟩ := Prod.mk.inj (Except.ok.inj hd)
    exact kept_result (hP.makeDirectories h _) hmade

theorem start {t : FileTree} (h : P t.top) (dataHome corpus : String) (settings : Settings) :
    P (Session.start t dataHome corpus settings).tree.top := by
  cases hd : Places.buildDirectory t dataHome settings ((t.realPath? corpus).getD corpus) with
  | error e =>
    simp only [Session.start, hd]
    exact h
  | ok made =>
    simp only [Session.start, hd]
    exact hP.buildDirectory h hd

variable {s : Session}

theorem dropArtifact (h : P s.tree.top) : P s.dropArtifact.tree.top := by
  rcases s.dropArtifact_cases with hsame | ⟨d, l, n, -, -, -, -, hdrop⟩
  · rw [hsame]
    exact h
  · rw [hdrop]
    exact hP.remove h

theorem cleared (h : P s.tree.top) (force : Bool) : P (s.cleared force).tree.top := by
  cases force with
  | false => exact h
  | true => exact hP.dropArtifact h

theorem keep (h : P s.tree.top) (snapshot : Snapshot) (now : Nat) :
    P (s.keep snapshot now).top := by
  unfold Session.keep
  split
  · split
    · exact hP.save h _ _ _ _
    · exact h
  · exact h

theorem build (h : P s.tree.top) (force : Bool) (now : Nat) :
    P (s.build force now).2.tree.top := by
  have hcleared := hP.cleared h force
  rcases s.build_cases force now with ⟨e, hbuild⟩ | ⟨snapshot, report, -, hbuild⟩
  · rw [hbuild]
    exact hcleared
  · rw [hbuild]
    exact hP.keep hcleared snapshot now

theorem step (h : P s.tree.top) (now : Nat) (e : Event) : P (s.step now e).2.tree.top := by
  rcases s.step_cases now e with ⟨-, force, hstep⟩ | ⟨-, -, hquiet⟩
  · rw [hstep]
    exact hP.build h force now
  · generalize (s.step now e).2 = next at hquiet
    cases hquiet with
    | edited e => exact hP.edit h e
    | restarted settings => exact hP.start h _ _ settings
    | answered e cache => exact h

theorem run (h : P s.tree.top) (events : List (Nat × Event)) : P (s.run events).tree.top := by
  induction events generalizing s with
  | nil => exact h
  | cons event events ih => exact ih (hP.step h event.1 event.2)

end ActionCatalog.FileTree.Kept
