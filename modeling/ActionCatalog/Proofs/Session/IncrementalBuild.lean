import ActionCatalog.Proofs.Catalog.Reuse
import ActionCatalog.Proofs.Corpus.LinkFree
import ActionCatalog.Proofs.Session.Trees

namespace ActionCatalog

open Catalog (Faithful Listed reference referenceReport)
open FileTree (kept_ordered)

/-- Whether a file is never seen with another content under the same change marker. -/
def Truthful (files : List CorpusFile) : Prop :=
  ∀ f ∈ files, ∀ g ∈ files, f.name = g.name → f.marker = g.marker → f.content = g.content

theorem Truthful.mono {files files' : List CorpusFile} (h : Truthful files') (hs : files ⊆ files') :
    Truthful files := fun f hf g hg ↦ h f (hs hf) g (hs hg)

namespace Session

variable {s : Session} {seen files : List CorpusFile} {b : Baseline} {now : Nat}

def listing (s : Session) : List CorpusFile :=
  (Corpus.scan s.tree s.index.root).toOption.getD []

/-- The files that the builds of a run see, each as it is then. -/
def listings (s : Session) : List (Nat × Event) → List CorpusFile
  | [] => []
  | (now, e) :: events =>
    (if s.builds e then s.listing else []) ++ (s.step now e).2.listings events

def HasArtifact (s : Session) : Prop :=
  ∃ d ∈ s.index.buildDirectory, s.tree.exists? (Artifact.fileIn d) = true

instance (s : Session) : Decidable s.HasArtifact :=
  inferInstanceAs (Decidable (∃ d ∈ s.index.buildDirectory, _))

/-- Whether the artifact is out of reach of the corpus. -/
def ArtifactApart (s : Session) : Prop :=
  ∀ d ∈ s.index.buildDirectory, ∀ l, s.tree.entryLocation (Artifact.fileIn d) = .ok l →
    Corpus.OutOfReach s.tree s.index.root l

theorem artifactApart_of_linkFree {m : Location} (h : s.tree.top.isLinkFree = true ∧
      (∀ name ∈ s.tree.top.names, Corpus.isPlainName name = true) ∧
      (s.index.root ≠ "" ∧ s.index.root.toList.getLast? ≠ some '/' ∧
        ".." ∉ FileTree.piecesOf s.index.root) ∧
      (s.tree.resolve s.index.root).toOption = some m ∧
      ∀ d ∈ s.index.buildDirectory,
        ∀ l ∈ (s.tree.entryLocation (Artifact.fileIn d)).toOption, ¬m <+: l ∧ ¬l <+: m) :
    s.ArtifactApart := by
  obtain ⟨hfree, hnames, ⟨hne, hslash, hup⟩, hm, hl⟩ := h
  intro d hd l hlocation
  obtain ⟨hbelow, habove⟩ := hl d hd l (by rw [hlocation]; rfl)
  exact Corpus.outOfReach_of_linkFree hfree hnames hne hslash hup (toOption_eq_some.1 hm) hbelow
    habove

/-- Whether an event is one of a single process, and makes no artifact from outside. -/
def Admits (s : Session) : Event → Prop
  | .edit e => { s with tree := s.tree.edit e }.HasArtifact → s.HasArtifact
  | .restart _ => False
  | _ => True

/-- Whether all events are admitted and the artifact is out of reach of the corpus at every build
and at the end. -/
def Undisturbed (s : Session) : List (Nat × Event) → Prop
  | [] => s.ArtifactApart
  | (now, e) :: events =>
    (s.builds e = true → s.ArtifactApart) ∧ s.Admits e ∧ (s.step now e).2.Undisturbed events

/-- The active snapshot is that of documents that were each read by itself, all of them seen. -/
structure Consistent (seen : List CorpusFile) (s : Session) : Prop where
  ordered : s.tree.Ordered
  fresh : s.index.store.generation = 0 → ¬s.HasArtifact
  built : 0 < s.index.store.generation → ∃ files builtAt, (∀ f ∈ files, f ∈ seen) ∧
    Listed files ∧ s.active = reference files s.index.settings.shownParameters builtAt

theorem read_of_not_exists {t : FileTree} {path : String} (h : t.exists? path = false) :
    (t.read path).toOption = none := by
  unfold FileTree.exists? FileTree.node? at h
  unfold FileTree.read
  cases hl : t.resolve path with
  | error e => rfl
  | ok l =>
    rw [hl] at h
    have hnone : t.at? l = none := Option.isSome_eq_false_iff.1 h |> Option.isNone_iff_eq_none.1
    simp only [bind, Except.bind, hnone]
    rfl

theorem load_of_not_hasArtifact (h : ¬s.HasArtifact) :
    (s.index.buildDirectory.bind fun d ↦ Artifact.load? s.tree d s.index.root) = none := by
  refine Option.bind_eq_none_iff.2 fun d hd ↦ ?_
  have hnot : s.tree.exists? (Artifact.fileIn d) = false :=
    Bool.eq_false_iff.2 fun hex ↦ h ⟨d, hd, hex⟩
  unfold Artifact.load?
  rw [read_of_not_exists hnot]
  rfl

theorem ne_nil_of_entryLocation {t : FileTree} {path : String} {l : Location}
    (h : t.entryLocation path = .ok l) : l ≠ [] := by
  obtain ⟨pieces, -, h⟩ := exists_of_bind_ok h
  split at h
  · cases h
  obtain ⟨directory, -, h⟩ := exists_of_bind_ok h
  split at h
  · cases h
  split at h
  · cases h
  split at h
  · cases h
  · cases h
    simp

theorem dropArtifact_of_not_hasArtifact (h : ¬s.HasArtifact) : s.dropArtifact = s := by
  have htree : s.index.buildDirectory.elim s.tree (Artifact.remove s.tree) = s.tree := by
    cases hd : s.index.buildDirectory with
    | none => rfl
    | some d => exact if_neg fun hex ↦ h ⟨d, hd, hex⟩
  rw [dropArtifact, htree]

theorem scan_dropArtifact (h : s.tree.Ordered) (hapart : s.ArtifactApart) :
    Corpus.scan s.dropArtifact.tree s.index.root = Corpus.scan s.tree s.index.root := by
  rcases s.dropArtifact_cases with hsame | ⟨d, l, n, hd, hl, hn, hfile, hdrop⟩
  · rw [hsame]
  · rw [hdrop]
    refine Corpus.scan_remove (hapart d hd l hl) (ne_nil_of_entryLocation hl) (fun m hm ↦ ?_) h
    rw [← Option.some.inj (hn.symm.trans hm), hfile]

theorem Consistent.faithful (h : s.Consistent seen) (ht : Truthful (seen ++ s.listing))
    {file : CorpusFile} (hf : file ∈ s.listing) :
    Faithful s.baseline s.index.settings.shownParameters file := by
  unfold baseline
  split
  · rename_i hpos
    obtain ⟨files, builtAt, hseen, hlisted, hactive⟩ := h.built hpos
    rw [hactive]
    exact Catalog.faithful_reference hlisted fun g hg ↦
      ht g (List.mem_append_left _ (hseen g hg)) file (List.mem_append_right _ hf)
  · rename_i hzero
    rw [load_of_not_hasArtifact (h.fresh (by omega))]
    exact Catalog.faithful_empty

def rebuilt (s : Session) (t : FileTree) (files : List CorpusFile) (now : Nat) : Session :=
  let snapshot := reference files s.index.settings.shownParameters (now / 10 ^ 9)
  { s with
    tree := t
    index := { s.index with
      store := (s.index.store.swap snapshot).2
      cache := s.index.cache.clear } }

theorem buildOn_ok (h : Corpus.scan s.tree s.index.root = .ok files)
    (hf : ∀ file ∈ files, Faithful b s.index.settings.shownParameters file) :
    s.buildOn b now =
      (.ok (referenceReport files s.index.settings.shownParameters
        (Catalog.reusedCount b s.index.settings.shownParameters files)),
        s.rebuilt (s.keep (reference files s.index.settings.shownParameters (now / 10 ^ 9)) now)
          files now) := by
  rw [buildOn, Catalog.build_eq_reference h hf]
  rfl

theorem buildOn_error {e : CorpusError} (h : Corpus.scan s.tree s.index.root = .error e) :
    s.buildOn b now = (.error e, s) := by
  rw [buildOn, Catalog.build_error h]

theorem mem_listing (h : Corpus.scan s.tree s.index.root = .ok files) : s.listing = files := by
  rw [listing, h]
  rfl

theorem Consistent.build_ok (h : s.Consistent seen) (hapart : s.ArtifactApart)
    (ht : Truthful (seen ++ s.listing)) (hscan : Corpus.scan s.tree s.index.root = .ok files)
    (force : Bool) (now : Nat) : ∃ t' reusedFiles, t'.Ordered ∧
      s.build force now =
        (.ok (referenceReport files s.index.settings.shownParameters reusedFiles),
          s.rebuilt t' files now) ∧
      (force = true → reusedFiles = 0) := by
  cases force with
  | false =>
    have hf : ∀ file ∈ files, Faithful s.baseline s.index.settings.shownParameters file :=
      fun file hf ↦ h.faithful ht (mem_listing hscan ▸ hf)
    exact ⟨_, _, kept_ordered.keep h.ordered _ _, buildOn_ok hscan hf, nofun⟩
  | true =>
    have hscan' : Corpus.scan s.dropArtifact.tree s.dropArtifact.index.root = .ok files :=
      (scan_dropArtifact h.ordered hapart).trans hscan
    exact ⟨_, _, kept_ordered.keep (kept_ordered.dropArtifact h.ordered) _ _,
      buildOn_ok hscan' fun file _ ↦ Catalog.faithful_empty, fun _ ↦ Catalog.reusedCount_empty⟩

theorem Consistent.build_error (h : s.Consistent seen) (hapart : s.ArtifactApart) {e : CorpusError}
    (hscan : Corpus.scan s.tree s.index.root = .error e) (force : Bool) (now : Nat) :
    ∃ t', t'.Ordered ∧ s.build force now = (.error e, { s with tree := t' }) ∧
      (¬s.HasArtifact → t' = s.tree) := by
  cases force with
  | false => exact ⟨s.tree, h.ordered, buildOn_error hscan, fun _ ↦ rfl⟩
  | true =>
    have hscan' : Corpus.scan s.dropArtifact.tree s.dropArtifact.index.root = .error e :=
      (scan_dropArtifact h.ordered hapart).trans hscan
    exact ⟨s.dropArtifact.tree, kept_ordered.dropArtifact h.ordered, buildOn_error hscan',
      fun hnot ↦ congrArg tree (dropArtifact_of_not_hasArtifact hnot)⟩

theorem Consistent.after_build (h : s.Consistent seen) (hapart : s.ArtifactApart)
    (ht : Truthful (seen ++ s.listing)) (force : Bool) (now : Nat) :
    (s.build force now).2.Consistent (seen ++ s.listing) := by
  cases hscan : Corpus.scan s.tree s.index.root with
  | error e =>
    obtain ⟨t', hordered, hbuild, hsame⟩ := h.build_error hapart hscan force now
    rw [hbuild]
    refine ⟨hordered, fun hzero ↦ ?_, fun hpos ↦ ?_⟩
    · rw [hsame (h.fresh hzero)]
      exact h.fresh hzero
    · obtain ⟨files, builtAt, hseen, hlisted, hactive⟩ := h.built hpos
      exact ⟨files, builtAt, fun f hf ↦ List.mem_append_left _ (hseen f hf), hlisted, hactive⟩
  | ok files =>
    obtain ⟨t', reusedFiles, hordered, hbuild, -⟩ := h.build_ok hapart ht hscan force now
    rw [hbuild]
    exact ⟨hordered, nofun, fun _ ↦ ⟨files, now / 10 ^ 9,
      fun f hf ↦ List.mem_append_right _ (mem_listing hscan ▸ hf), Corpus.scan_listed hscan, rfl⟩⟩

theorem Consistent.withCache (h : s.Consistent seen) (cache : ResultCache ActionRecord) :
    { s with index.cache := cache }.Consistent seen := ⟨h.ordered, h.fresh, h.built⟩

theorem Consistent.step (h : s.Consistent seen) (now : Nat) {e : Event}
    (hapart : s.builds e = true → s.ArtifactApart) (hevent : s.Admits e)
    (ht : Truthful (seen ++ if s.builds e then s.listing else [])) :
    (s.step now e).2.Consistent (seen ++ if s.builds e then s.listing else []) := by
  rcases s.step_cases now e with ⟨hbuilds, force, hstep⟩ | ⟨hbuilds, -, hquiet⟩
  · rw [if_pos hbuilds] at ht ⊢
    rw [hstep]
    exact h.after_build (hapart hbuilds) ht force now
  · rw [hbuilds, if_neg Bool.false_ne_true, List.append_nil]
    generalize (s.step now e).2 = next at hquiet
    cases hquiet with
    | edited e =>
      exact ⟨kept_ordered.edit h.ordered e, fun hzero hhas ↦ h.fresh hzero (hevent hhas), h.built⟩
    | restarted settings => exact hevent.elim
    | answered e cache => exact h.withCache cache

theorem Consistent.run {events : List (Nat × Event)} (h : s.Consistent seen)
    (hu : s.Undisturbed events) (ht : Truthful (seen ++ s.listings events)) :
    (s.run events).Consistent (seen ++ s.listings events) ∧ (s.run events).ArtifactApart := by
  induction events generalizing s seen with
  | nil => exact ⟨(List.append_nil seen).symm ▸ h, hu⟩
  | cons event events ih =>
    obtain ⟨now, e⟩ := event
    obtain ⟨hapart, hevent, hrest⟩ := hu
    rw [listings, ← List.append_assoc] at ht ⊢
    have hstep := h.step now hapart hevent (ht.mono (List.subset_append_left _ _))
    exact ih hstep hrest ht

theorem start_consistent {t : FileTree} {dataHome corpus : String} {settings : Settings}
    (ht : t.Ordered) (hfresh : ¬(start t dataHome corpus settings).HasArtifact) :
    (start t dataHome corpus settings).Consistent [] :=
  ⟨kept_ordered.start ht dataHome corpus settings, fun _ ↦ hfresh, nofun⟩

/-- An incremental and a full build both fail, or both give what the documents give, each read by
itself, in the order of their names; only the number of documents taken over is another one. -/
def BuildsAgree (s : Session) (now : Nat) : Prop :=
  let incremental := s.build false now
  let full := s.build true now
  match Corpus.scan s.tree s.index.root with
  | .error e => incremental.1 = .error e ∧ full.1 = .error e ∧
      incremental.2.active = s.active ∧ full.2.active = s.active
  | .ok files => files.Pairwise (fun f g ↦ f.name < g.name) ∧
      incremental.2.active = reference files s.index.settings.shownParameters (now / 10 ^ 9) ∧
      full.2.active = reference files s.index.settings.shownParameters (now / 10 ^ 9) ∧
      full.1 = .ok (referenceReport files s.index.settings.shownParameters 0) ∧
      ∃ reusedFiles, incremental.1 =
        .ok (referenceReport files s.index.settings.shownParameters reusedFiles)

theorem BuildsAgree.active (h : s.BuildsAgree now) :
    (s.build false now).2.active = (s.build true now).2.active := by
  unfold BuildsAgree at h
  dsimp only at h
  split at h
  · exact h.2.2.1.trans h.2.2.2.symm
  · exact h.2.1.trans h.2.2.1.symm

end Session

end ActionCatalog
