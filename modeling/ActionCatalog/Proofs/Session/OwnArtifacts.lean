import ActionCatalog.Proofs.Catalog.Saving
import ActionCatalog.Proofs.Session.Steps

namespace ActionCatalog.Session

variable {s : Session} {known : List (String × Snapshot)} {now : Nat}

def saved (s : Session) : String × Snapshot := (s.index.root, s.active)

/-- Whether the artifact, if there is one, was saved from one of the known snapshots. -/
def OwnArtifact (known : List (String × Snapshot)) (s : Session) : Prop :=
  ∀ d ∈ s.index.buildDirectory, ∀ content ∈ (s.tree.read (Artifact.fileIn d)).toOption,
    ∃ p ∈ known, content = (Artifact.ofSnapshot p.1 p.2).encode

instance (known : List (String × Snapshot)) (s : Session) : Decidable (s.OwnArtifact known) :=
  inferInstanceAs (Decidable (∀ d ∈ s.index.buildDirectory, ∀ content ∈ _, ∃ p ∈ known, _))

theorem read_of_saves {force : Bool} {d : String} (hbuilt : (s.build force now).1.toOption.isSome)
    (hd : s.index.buildDirectory = some d) (hkeep : s.index.settings.keepsBuilds = true)
    (hsaves : Artifact.Saves (s.cleared force).tree d s.index.root
      (s.build force now).2.active now) :
    (s.build force now).2.tree.read (Artifact.fileIn d) =
      .ok (Artifact.ofSnapshot s.index.root (s.build force now).2.active).encode := by
  rcases s.build_cases force now with ⟨e, hbuild⟩ | ⟨snapshot, report, -, hbuild⟩
  · rw [hbuild] at hbuilt
    cases hbuilt
  rw [hbuild] at hsaves ⊢
  have htree : ((s.cleared force).renewed snapshot now).tree =
      Artifact.save (s.cleared force).tree d s.index.root snapshot now := by
    simp only [renewed, keep, index_cleared, hd, hkeep, if_true]
  rw [htree]
  exact Artifact.read_save hsaves

theorem OwnArtifact.mono {known' : List (String × Snapshot)} (h : s.OwnArtifact known)
    (hknown : known ⊆ known') : s.OwnArtifact known' := by
  intro d hd content hcontent
  obtain ⟨p, hp, heq⟩ := h d hd content hcontent
  exact ⟨p, hknown hp, heq⟩

theorem OwnArtifact.of_same {s' : Session} (h : s.OwnArtifact known) (htree : s'.tree = s.tree)
    (hd : s'.index.buildDirectory = s.index.buildDirectory) : s'.OwnArtifact known := by
  unfold OwnArtifact
  rw [htree, hd]
  exact h

theorem OwnArtifact.cleared (h : s.OwnArtifact known) (force : Bool) :
    (s.cleared force).OwnArtifact known := by
  cases force with
  | false => exact h
  | true =>
    intro d hd content hcontent
    have hd' : s.index.buildDirectory = some d := hd
    have htree : (s.cleared true).tree = Artifact.remove s.tree d := by
      change s.index.buildDirectory.elim s.tree (Artifact.remove s.tree) = _
      rw [hd']
      rfl
    rw [htree] at hcontent
    have hread := Artifact.read_of_remove (toOption_eq_some.1 hcontent)
    exact h d hd content (toOption_eq_some.2 hread)

def Undiverted (s : Session) : Prop :=
  ∀ force, ∀ d ∈ s.index.buildDirectory, Artifact.Undiverted (s.cleared force).tree d

instance (s : Session) : Decidable s.Undiverted :=
  inferInstanceAs (Decidable (∀ _ : Bool, ∀ d ∈ s.index.buildDirectory, _))

/-- A build leaves the artifact before, its own, or none that can be read. -/
theorem OwnArtifact.build (h : s.OwnArtifact known) (hplace : s.Undiverted) (force : Bool)
    (now : Nat) : (s.build force now).2.OwnArtifact ((s.build force now).2.saved :: known) := by
  have hcleared := h.cleared force
  rcases s.build_cases force now with ⟨e, hbuild⟩ | ⟨snapshot, report, -, hbuild⟩
  · rw [hbuild]
    exact hcleared.mono (List.subset_cons_self _ _)
  rw [hbuild]
  intro d hd content hcontent
  have hd : s.index.buildDirectory = some d := by
    rw [← index_cleared s force]
    exact hd
  have htree : ((s.cleared force).renewed snapshot now).tree =
      if s.index.settings.keepsBuilds then
        Artifact.save (s.cleared force).tree d s.index.root snapshot now
      else (s.cleared force).tree := by
    simp only [renewed, keep, index_cleared, hd]
  rw [htree] at hcontent
  -- an artifact that was there before the build was known before it
  have hbefore (hread : (s.cleared force).tree.read (Artifact.fileIn d) = .ok content) :
      ∃ p ∈ ((s.cleared force).renewed snapshot now).saved :: known,
        content = (Artifact.ofSnapshot p.1 p.2).encode := by
    obtain ⟨p, hp, heq⟩ := hcleared d (by rw [index_cleared]; exact hd) content
      (toOption_eq_some.2 hread)
    exact ⟨p, List.mem_cons_of_mem _ hp, heq⟩
  split at hcontent
  · rcases Artifact.read_of_save (hplace force d hd) (toOption_eq_some.1 hcontent) with hnew | hread
    · refine ⟨_, List.mem_cons_self, ?_⟩
      rw [hnew, saved, renewed, index_cleared]
      rfl
    · exact hbefore hread
  · exact hbefore (toOption_eq_some.1 hcontent)

/-- Whether the artifact is at all times one that was saved from a snapshot known by then. Builds
see to that themselves, see `OwnArtifact.keepsArtifact`. -/
def KeepsArtifact (known : List (String × Snapshot)) (s : Session) : List (Nat × Event) → Prop
  | [] => s.OwnArtifact (s.saved :: known)
  | (now, e) :: events =>
    s.OwnArtifact (s.saved :: known) ∧ (s.step now e).2.KeepsArtifact (s.saved :: known) events

/-- Whether an event may put an artifact in place that no build has saved there. -/
def replacesArtifact : Event → Bool
  | .edit _ | .restart _ => true
  | _ => false

/-- Whether edits and restarts bring in no other artifacts, and builds put theirs nowhere else. -/
def SavesAlone (known : List (String × Snapshot)) (s : Session) : List (Nat × Event) → Prop
  | [] => True
  | (now, e) :: events =>
    let next := (s.step now e).2
    (s.builds e = true → s.Undiverted) ∧
      (replacesArtifact e = true → next.OwnArtifact (next.saved :: s.saved :: known)) ∧
      next.SavesAlone (s.saved :: known) events

instance decidableSavesAlone (known : List (String × Snapshot)) (s : Session) :
    (events : List (Nat × Event)) → Decidable (s.SavesAlone known events)
  | [] => .isTrue trivial
  | (now, e) :: events =>
    have := decidableSavesAlone (s.saved :: known) (s.step now e).2 events
    inferInstanceAs (Decidable (_ ∧ _ ∧ _))

theorem OwnArtifact.keepsArtifact {events : List (Nat × Event)}
    (h : s.OwnArtifact (s.saved :: known)) (hevents : s.SavesAlone known events) :
    s.KeepsArtifact known events := by
  induction events generalizing s known with
  | nil => exact h
  | cons event events ih =>
    obtain ⟨now, e⟩ := event
    obtain ⟨hbuilds, houtside, hrest⟩ := hevents
    refine ⟨h, ih ?_ hrest⟩
    rcases s.step_cases now e with ⟨hbuild, force, hstep⟩ | ⟨-, -, hquiet⟩
    · rw [hstep]
      exact h.build (hbuilds hbuild) force now
    · generalize (s.step now e).2 = next at hquiet houtside
      cases hquiet with
      | edited e => exact houtside rfl
      | restarted settings => exact houtside rfl
      | answered e cache => exact (h.of_same rfl rfl).mono (List.subset_cons_self _ _)

def Storable (known : List (String × Snapshot)) : Prop :=
  ∀ p ∈ known, ∀ r ∈ p.2.records, r.WellFormed

theorem wellFormed_offered (h : ∀ r ∈ s.active.records, r.WellFormed) (force : Bool) :
    ∀ r ∈ (s.offered force).records, r.WellFormed := by
  cases force with
  | true => exact List.forall_mem_nil _
  | false =>
    change ∀ r ∈ s.baseline.records, r.WellFormed
    unfold baseline
    split
    · exact h
    cases hload : s.index.buildDirectory.bind fun d ↦ Artifact.load? s.tree d s.index.root with
    | none => exact List.forall_mem_nil _
    | some b =>
      obtain ⟨d, -, hload⟩ := Option.bind_eq_some_iff.1 hload
      exact Artifact.wellFormed_of_load hload

theorem wellFormed_start (t : FileTree) (dataHome corpus : String) (settings : Settings) :
    ∀ r ∈ (start t dataHome corpus settings).active.records, r.WellFormed :=
  List.forall_mem_nil _

theorem wellFormed_step (h : ∀ r ∈ s.active.records, r.WellFormed) (now : Nat) (e : Event) :
    ∀ r ∈ (s.step now e).2.active.records, r.WellFormed := by
  rcases s.step_cases now e with ⟨-, force, hstep⟩ | ⟨-, -, hquiet⟩
  · rw [hstep]
    rcases s.build_cases force now with ⟨e, hbuild⟩ | ⟨snapshot, report, hsome, hbuild⟩
    · rw [hbuild, active, index_cleared]
      exact h
    · rw [hbuild]
      exact Catalog.wellFormed_of_build (wellFormed_offered h force) hsome
  · generalize (s.step now e).2 = next at hquiet
    cases hquiet with
    | edited e => exact h
    | restarted settings => exact List.forall_mem_nil _
    | answered e cache => exact h

theorem wellFormed_build (h : ∀ r ∈ s.active.records, r.WellFormed) (force : Bool) (now : Nat) :
    ∀ r ∈ (s.build force now).2.active.records, r.WellFormed := wellFormed_step h now (.build force)

inductive Offers (known : List (String × Snapshot)) (s : Session) : Baseline → Prop
  | active : Offers known s (.ofSnapshot s.active)
  | nothing : Offers known s .empty
  | loaded {root : String} {snapshot : Snapshot} {records : List ActionRecord}
    (hknown : (root, snapshot) ∈ known)
    (hroot : UnixPath.samePath root s.index.root = true)
    (hrecords : snapshot.records.mapM ActionRecord.reread? = some records) :
    Offers known s ⟨snapshot.manifest, records⟩

theorem offers_baseline (hstorable : Storable known) (h : s.OwnArtifact known) :
    s.Offers known s.baseline := by
  unfold baseline
  split
  · exact .active
  cases hload : s.index.buildDirectory.bind fun d ↦ Artifact.load? s.tree d s.index.root with
  | none => exact .nothing
  | some b =>
    obtain ⟨d, hd, hload⟩ := Option.bind_eq_some_iff.1 hload
    cases hread : s.tree.read (Artifact.fileIn d) with
    | error e =>
      rw [Artifact.load?, hread] at hload
      cases hload
    | ok content =>
      obtain ⟨⟨root, snapshot⟩, hknown, rfl⟩ := h d hd content (by rw [hread]; rfl)
      rw [Artifact.load_of_read (hstorable _ hknown) hread] at hload
      split at hload
      · rename_i hroot
        obtain ⟨a, ha, rfl⟩ := Option.map_eq_some_iff.1 hload
        obtain ⟨-, -, records, hrecords, rfl⟩ := Artifact.reread_eq_some.1 ha
        exact .loaded hknown hroot hrecords
      · cases hload

theorem offers_offered (hstorable : Storable known) (h : s.OwnArtifact known) (force : Bool) :
    s.Offers known (s.offered force) := by
  cases force with
  | false => exact offers_baseline hstorable h
  | true => exact .nothing

end ActionCatalog.Session
