import ActionCatalog.Proofs.Catalog.Rereading
import ActionCatalog.Proofs.Session.IncrementalBuild
import ActionCatalog.Proofs.Session.OwnArtifacts

namespace ActionCatalog

open Catalog (AgreeButSummaries Listed outcomeOf readDocument reference referenceOf)
open FileTree (kept_ordered)

structure Sighting where
  root : String
  file : CorpusFile

/-- Whether no path is seen with another content under the same change marker. -/
def Sighting.Truthful (seen : List Sighting) : Prop :=
  ∀ f ∈ seen, ∀ g ∈ seen, UnixPath.samePath f.root g.root = true → f.file.name = g.file.name →
    f.file.marker = g.file.marker → f.file.content = g.file.content

theorem Sighting.Truthful.mono {seen seen' : List Sighting} (h : Truthful seen')
    (hs : seen ⊆ seen') : Truthful seen := fun f hf g hg ↦ h f (hs hf) g (hs hg)

namespace Session

variable {s : Session} {allowed : Nat → Prop} {seen : List Sighting}
  {known : List (String × Snapshot)} {now : Nat}

/-- Whether a snapshot is that of documents that have all been seen, each read by itself with some
allowed number of shown parameters. -/
def Accounted (allowed : Nat → Prop) (seen : List Sighting) (p : String × Snapshot) : Prop :=
  ∃ shown builtAt, Listed (shown.map Prod.fst) ∧
    (∀ q ∈ shown, ⟨p.1, q.1⟩ ∈ seen ∧ allowed q.2) ∧ p.2 = referenceOf shown builtAt

theorem Accounted.mono {seen' : List Sighting} {p : String × Snapshot}
    (h : Accounted allowed seen p) (hs : seen ⊆ seen') : Accounted allowed seen' p := by
  obtain ⟨shown, builtAt, hlisted, hseen, heq⟩ := h
  exact ⟨shown, builtAt, hlisted, fun q hq ↦ ⟨hs (hseen q hq).1, (hseen q hq).2⟩, heq⟩

theorem accounted_empty (root : String) : Accounted allowed seen (root, .empty) :=
  ⟨[], 0, .nil, List.forall_mem_nil _, rfl⟩

def sighted (s : Session) : List Sighting := s.listing.map (Sighting.mk s.index.root)

/-- What the builds of a run see. -/
def sightings (s : Session) : List (Nat × Event) → List Sighting
  | [] => []
  | (now, e) :: events =>
    (if s.builds e then s.sighted else []) ++ (s.step now e).2.sightings events

/-- Whether the artifact is out of reach of the corpus at every build and at the end. -/
def StaysApart (s : Session) : List (Nat × Event) → Prop
  | [] => s.ArtifactApart
  | (now, e) :: events => (s.builds e = true → s.ArtifactApart) ∧ (s.step now e).2.StaysApart events

/-- Whatever has been active is accounted for by what has been seen. -/
structure Explained (allowed : Nat → Prop) (seen : List Sighting) (known : List (String × Snapshot))
    (s : Session) : Prop where
  ordered : s.tree.Ordered
  current : allowed s.index.settings.shownParameters
  storable : Storable (s.saved :: known)
  accounted : ∀ p ∈ s.saved :: known, Accounted allowed seen p

theorem exact_of_accounted {p : String × Snapshot} (h : Accounted allowed seen p)
    (hexact : ∀ f ∈ seen, Catalog.Exact f.file) {r : ActionRecord} (hr : r ∈ p.2.records) :
    ∀ x ∈ r.parameters.doubles, x.reread? = some x := by
  obtain ⟨shown, builtAt, -, hseen, heq⟩ := h
  rw [heq] at hr
  obtain ⟨q, hq, hr⟩ := List.mem_flatMap.1 hr
  exact Catalog.exact_of_flattenedOf (hexact _ (hseen q hq).1) hr

theorem exists_read_of_accounted {p : String × Snapshot} (h : Accounted allowed seen p)
    (hroot : UnixPath.samePath p.1 s.index.root = true)
    (ht : Sighting.Truthful (seen ++ s.sighted)) {file : CorpusFile} (hfile : file ∈ s.listing)
    {f : SkillDocument.Flattened} (hf : (Baseline.ofSnapshot p.2).reusable? file = some f) :
    ∃ k, allowed k ∧ readDocument file k = .ok f := by
  obtain ⟨shown, builtAt, hlisted, hseen, heq⟩ := h
  rw [heq] at hf
  obtain ⟨q, hq, hname, hmarker, hread⟩ := Catalog.exists_of_reusable hlisted hf
  obtain ⟨hsighted, hk⟩ := hseen q hq
  -- both sightings show the same marker, so the content is the same
  have hcontent : q.1.content = file.content :=
    ht _ (List.mem_append_left _ hsighted) ⟨s.index.root, file⟩
      (List.mem_append_right _ (List.mem_map_of_mem hfile)) hroot hname hmarker
  exact ⟨q.2, hk, Catalog.readDocument_congr q.2 hname hcontent ▸ hread⟩

theorem Explained.exists_read (h : s.Explained allowed seen known) {b : Baseline}
    (hb : s.Offers (s.saved :: known) b) (hexact : ∀ f ∈ seen, Catalog.Exact f.file)
    (ht : Sighting.Truthful (seen ++ s.sighted)) {file : CorpusFile} (hfile : file ∈ s.listing)
    {f : SkillDocument.Flattened} (hf : b.reusable? file = some f) :
    ∃ k, allowed k ∧ readDocument file k = .ok f := by
  cases hb with
  | active =>
    have hsame : UnixPath.samePath s.saved.1 s.index.root = true := beq_self_eq_true _
    exact exists_read_of_accounted (h.accounted _ List.mem_cons_self) hsame ht hfile hf
  | nothing => cases hf
  | loaded hp hroot hrecords =>
    have haccounted := h.accounted _ hp
    rw [Catalog.eq_of_reread (fun r ↦ exact_of_accounted haccounted hexact) hrecords] at hf
    exact exists_read_of_accounted haccounted hroot ht hfile hf

theorem scan_cleared (h : s.tree.Ordered) (hapart : s.ArtifactApart) (force : Bool) :
    Corpus.scan (s.cleared force).tree s.index.root = Corpus.scan s.tree s.index.root := by
  cases force with
  | false => rfl
  | true => exact scan_dropArtifact h hapart

theorem full_build (h : s.tree.Ordered) (hapart : s.ArtifactApart) {files : List CorpusFile}
    (hscan : Corpus.scan s.tree s.index.root = .ok files) (now : Nat) :
    (s.build true now).2.active =
      reference files s.index.settings.shownParameters (now / 10 ^ 9) := by
  rw [build_of_scan_ok ((scan_cleared h hapart true).trans hscan)]
  exact Catalog.snapshotOf_eq fun _ _ ↦ Catalog.faithful_empty

theorem Explained.build_ok (h : s.Explained allowed seen known)
    (hown : s.OwnArtifact (s.saved :: known)) (hapart : s.ArtifactApart)
    (hexact : ∀ f ∈ seen, Catalog.Exact f.file) (ht : Sighting.Truthful (seen ++ s.sighted))
    {files : List CorpusFile} (hscan : Corpus.scan s.tree s.index.root = .ok files) (force : Bool)
    (now : Nat) : ∃ shown : List (CorpusFile × Nat), shown.map Prod.fst = files ∧
      (∀ p ∈ shown, allowed p.2) ∧
      (s.build force now).2 = (s.cleared force).renewed (referenceOf shown (now / 10 ^ 9)) now := by
  have hoffers := offers_offered h.storable hown force
  have hread : ∀ file ∈ files, ∃ k, allowed k ∧
      (outcomeOf (s.offered force) s.index.settings.shownParameters file).forget =
        readDocument file k := by
    intro file hfile
    refine Catalog.exists_forget h.current fun f hf ↦ ?_
    exact h.exists_read hoffers hexact ht (mem_listing hscan ▸ hfile) hf
  obtain ⟨shown, rfl, hshown⟩ := Catalog.exists_shown hread
  refine ⟨shown, rfl, fun p hp ↦ (hshown p hp).1, ?_⟩
  rw [build_of_scan_ok ((scan_cleared h.ordered hapart force).trans hscan), List.map_map]
  have hsnapshot := Catalog.snapshotOf_eq_referenceOf
    (outcomeOf (s.offered force) s.index.settings.shownParameters) (now / 10 ^ 9)
    fun p hp ↦ (hshown p hp).2
  exact congrArg ((s.cleared force).renewed · now) hsnapshot

theorem Explained.build_error (h : s.Explained allowed seen known) (hapart : s.ArtifactApart)
    {e : CorpusError} (hscan : Corpus.scan s.tree s.index.root = .error e) (force : Bool)
    (now : Nat) : (s.build force now).2 = s.cleared force := by
  rw [build_of_scan_error ((scan_cleared h.ordered hapart force).trans hscan)]

theorem Explained.next (h : s.Explained allowed seen known) {s' : Session} {seen' : List Sighting}
    (hordered : s'.tree.Ordered) (hcurrent : allowed s'.index.settings.shownParameters)
    (hformed : ∀ r ∈ s'.active.records, r.WellFormed) (hseen : seen ⊆ seen')
    (haccounted : Accounted allowed seen' s'.saved) :
    s'.Explained allowed seen' (s.saved :: known) where
  ordered := hordered
  current := hcurrent
  storable := List.forall_mem_cons.2 ⟨hformed, h.storable⟩
  accounted := List.forall_mem_cons.2 ⟨haccounted, fun p hp ↦ (h.accounted p hp).mono hseen⟩

theorem Explained.after_build (h : s.Explained allowed seen known)
    (hown : s.OwnArtifact (s.saved :: known)) (hapart : s.ArtifactApart)
    (hexact : ∀ f ∈ seen, Catalog.Exact f.file) (ht : Sighting.Truthful (seen ++ s.sighted))
    (force : Bool) (now : Nat) :
    (s.build force now).2.Explained allowed (seen ++ s.sighted) (s.saved :: known) := by
  have hordered := kept_ordered.cleared h.ordered force
  have hformed : ∀ r ∈ (s.build force now).2.active.records, r.WellFormed :=
    wellFormed_build (h.storable _ List.mem_cons_self) force now
  have hindex := s.index_cleared force
  have hseen := List.subset_append_left seen s.sighted
  cases hscan : Corpus.scan s.tree s.index.root with
  | error e =>
    have hsaved : (s.cleared force).saved = s.saved := by rw [saved, saved, active, active, hindex]
    rw [h.build_error hapart hscan force now] at hformed ⊢
    refine h.next hordered (hindex ▸ h.current) hformed hseen ?_
    rw [hsaved]
    exact (h.accounted _ List.mem_cons_self).mono hseen
  | ok files =>
    obtain ⟨shown, rfl, hallowed, hbuild⟩ := h.build_ok hown hapart hexact ht hscan force now
    rw [hbuild] at hformed ⊢
    have hcurrent : allowed (s.cleared force).index.settings.shownParameters := hindex ▸ h.current
    refine h.next (kept_ordered.keep hordered _ now) hcurrent hformed hseen ?_
    refine ⟨shown, now / 10 ^ 9, Corpus.scan_listed hscan, fun q hq ↦ ⟨?_, hallowed q hq⟩, rfl⟩
    have hlisting : q.1 ∈ s.listing := mem_listing hscan ▸ List.mem_map_of_mem hq
    refine List.mem_append_right _ (List.mem_map.2 ⟨q.1, hlisting, ?_⟩)
    rw [saved, renewed, hindex]

theorem Explained.step (h : s.Explained allowed seen known)
    (hown : s.OwnArtifact (s.saved :: known)) (now : Nat) {e : Event}
    (hapart : s.builds e = true → s.ArtifactApart)
    (hsettings : ∀ settings, e = .restart settings → allowed settings.shownParameters)
    (hexact : ∀ f ∈ seen, Catalog.Exact f.file)
    (ht : Sighting.Truthful (seen ++ if s.builds e then s.sighted else [])) :
    (s.step now e).2.Explained allowed (seen ++ if s.builds e then s.sighted else [])
      (s.saved :: known) := by
  have hformed : ∀ r ∈ s.active.records, r.WellFormed := h.storable _ List.mem_cons_self
  have hactive : Accounted allowed seen s.saved := h.accounted _ List.mem_cons_self
  have hself : seen ⊆ seen := List.Subset.refl seen
  rcases s.step_cases now e with ⟨hbuilds, force, hstep⟩ | ⟨hbuilds, -, hquiet⟩
  · rw [if_pos hbuilds] at ht ⊢
    rw [hstep]
    exact h.after_build hown (hapart hbuilds) hexact ht force now
  · rw [hbuilds, if_neg Bool.false_ne_true, List.append_nil]
    generalize (s.step now e).2 = next at hquiet
    cases hquiet with
    | edited e => exact h.next (kept_ordered.edit h.ordered e) h.current hformed hself hactive
    | restarted settings =>
      exact h.next (kept_ordered.start h.ordered _ _ settings) (hsettings settings rfl)
        (List.forall_mem_nil _) hself (accounted_empty _)
    | answered e cache => exact h.next h.ordered h.current hformed hself hactive

def shownParametersOf (settings : Settings) (events : List (Nat × Event)) : List Nat :=
  settings.shownParameters :: events.filterMap fun
    | (_, .restart settings) => some settings.shownParameters
    | _ => none

theorem Explained.run {events : List (Nat × Event)} (h : s.Explained allowed seen known)
    (hkeeps : s.KeepsArtifact known events) (hapart : s.StaysApart events)
    (hsettings : ∀ now settings, (now, .restart settings) ∈ events →
      allowed settings.shownParameters)
    (hexact : ∀ f ∈ seen ++ s.sightings events, Catalog.Exact f.file)
    (ht : Sighting.Truthful (seen ++ s.sightings events)) :
    ∃ known', (s.run events).OwnArtifact ((s.run events).saved :: known') ∧
      (s.run events).ArtifactApart ∧
      (s.run events).Explained allowed (seen ++ s.sightings events) known' := by
  induction events generalizing s seen known with
  | nil => exact ⟨known, hkeeps, hapart, (List.append_nil seen).symm ▸ h⟩
  | cons event events ih =>
    obtain ⟨now, e⟩ := event
    obtain ⟨hown, hkeeps⟩ := hkeeps
    obtain ⟨hfirst, hapart⟩ := hapart
    have hrestart (settings : Settings) (he : e = .restart settings) :
        allowed settings.shownParameters := hsettings now settings (he ▸ List.mem_cons_self)
    rw [sightings, ← List.append_assoc] at hexact ht ⊢
    have hstep := h.step hown now hfirst hrestart
      (fun f hf ↦ hexact f (List.mem_append_left _ (List.mem_append_left _ hf)))
      (ht.mono (List.subset_append_left _ _))
    exact ih hstep hkeeps hapart
      (fun now settings hmem ↦ hsettings now settings (List.mem_cons_of_mem _ hmem)) hexact ht

theorem Explained.agree (h : s.Explained allowed seen known)
    (hown : s.OwnArtifact (s.saved :: known)) (hapart : s.ArtifactApart)
    (hexact : ∀ f ∈ seen, Catalog.Exact f.file) (ht : Sighting.Truthful (seen ++ s.sighted))
    (now : Nat) :
    AgreeButSummaries allowed (s.build false now).2.active (s.build true now).2.active ∧
    ((∀ k, allowed k → k = s.index.settings.shownParameters) →
      (s.build false now).2.active = (s.build true now).2.active) := by
  cases hscan : Corpus.scan s.tree s.index.root with
  | error e =>
    have hactive (force : Bool) : (s.build force now).2.active = s.active := by
      rw [h.build_error hapart hscan force now, active, index_cleared, active]
    obtain ⟨shown, builtAt, -, hshown, hsaved⟩ := h.accounted _ List.mem_cons_self
    have hsaved : s.active = referenceOf shown builtAt := hsaved
    rw [hactive, hactive, hsaved]
    exact ⟨Catalog.agree_self (fun p hp ↦ (hshown p hp).2) builtAt, fun _ ↦ rfl⟩
  | ok files =>
    obtain ⟨shown, rfl, hallowed, hbuild⟩ := h.build_ok hown hapart hexact ht hscan false now
    have hfull := full_build h.ordered hapart hscan now
    have hincremental : (s.build false now).2.active = referenceOf shown (now / 10 ^ 9) := by
      rw [hbuild]
      rfl
    rw [hincremental, hfull]
    refine ⟨Catalog.agree_referenceOf hallowed _ _, fun hsame ↦ ?_⟩
    rw [Catalog.reference_eq, List.map_map]
    refine congrArg (referenceOf · _) ((List.map_id shown).symm.trans ?_)
    refine List.map_congr_left fun p hp ↦ ?_
    exact Prod.ext rfl (hsame p.2 (hallowed p hp))

/-- After any run of a session, with restarts under any settings, an incremental build gives the
records of a full one, but that summaries may show as many parameters as earlier settings said. -/
theorem restarted_build {t : FileTree} {dataHome corpus : String} {settings : Settings}
    {events : List (Nat × Event)} (hordered : t.Ordered)
    (hkeeps : (start t dataHome corpus settings).KeepsArtifact [] events)
    (hapart : (start t dataHome corpus settings).StaysApart events)
    (hexact : ∀ f ∈ (start t dataHome corpus settings).sightings events, Catalog.Exact f.file)
    (htruthful : Sighting.Truthful ((start t dataHome corpus settings).sightings events ++
      ((start t dataHome corpus settings).run events).sighted)) (now : Nat) :
    let s := (start t dataHome corpus settings).run events
    AgreeButSummaries (· ∈ shownParametersOf settings events)
      (s.build false now).2.active (s.build true now).2.active ∧
    ((∀ k ∈ shownParametersOf settings events, k = s.index.settings.shownParameters) →
      (s.build false now).2.active = (s.build true now).2.active) := by
  have hstart : (start t dataHome corpus settings).Explained
      (· ∈ shownParametersOf settings events) [] [] :=
    ⟨kept_ordered.start hordered dataHome corpus settings, List.mem_cons_self,
      List.forall_mem_singleton.2 (List.forall_mem_nil _),
      List.forall_mem_singleton.2 (accounted_empty _)⟩
  have hsettings (now : Nat) (settings' : Settings) (h : (now, .restart settings') ∈ events) :
      settings'.shownParameters ∈ shownParametersOf settings events :=
    List.mem_cons_of_mem _ (List.mem_filterMap.2 ⟨_, h, rfl⟩)
  obtain ⟨known, hown, hapart, h⟩ := hstart.run hkeeps hapart hsettings hexact
    (htruthful.mono (List.subset_append_left _ _))
  exact h.agree hown hapart hexact htruthful now

theorem tree_restart {settings : Settings} (h : settings.buildDirectory.isSome) :
    (s.restart settings).tree = s.tree := by
  obtain ⟨base, h⟩ := Option.isSome_iff_exists.1 h
  unfold restart start Places.buildDirectory
  rw [h]

theorem keepsArtifact_restart {settings : Settings} (hfirst : s.OwnArtifact [s.saved])
    (hplace : s.Undiverted) (hbase : settings.buildDirectory.isSome)
    (hd : ((s.build false now).2.restart settings).index.buildDirectory =
      (s.build false now).2.index.buildDirectory) (now' : Nat) :
    s.KeepsArtifact [] [(now, .build false), (now', .restart settings)] := by
  have hown := hfirst.build hplace false now
  have hnext := hown.of_same (tree_restart hbase) hd
  exact ⟨hfirst, hown, hnext.mono (List.subset_cons_self _ _)⟩

theorem run_restart (settings : Settings) (now' : Nat) :
    s.run [(now, .build false), (now', .restart settings)] =
      (s.build false now).2.restart settings := by
  simp only [run, List.foldl_cons, List.foldl_nil, step_build, step_restart]

theorem full_build_restart (h : s.tree.Ordered) {settings : Settings}
    (hapart : ((s.build false now).2.restart settings).ArtifactApart)
    (hscan : (Corpus.scan ((s.build false now).2.restart settings).tree
      ((s.build false now).2.restart settings).index.root).toOption.isSome) (now' : Nat) :
    (((s.build false now).2.restart settings).build true now').2.active =
      reference ((s.build false now).2.restart settings).listing
        settings.shownParameters (now' / 10 ^ 9) := by
  have hordered : ((s.build false now).2.restart settings).tree.Ordered :=
    kept_ordered.start (kept_ordered.build h false now) _ _ _
  obtain ⟨files, hfiles⟩ := Option.isSome_iff_exists.1 hscan
  have hfiles := toOption_eq_some.1 hfiles
  rw [full_build hordered hapart hfiles, mem_listing hfiles]
  rfl

theorem build_of_baseline {b : Baseline} (h : s.baseline = b) (now : Nat) :
    s.build false now = s.buildOn b now := by
  rw [← h]
  rfl

theorem baseline_restart {settings : Settings} {d : String}
    (hformed : ∀ r ∈ s.active.records, r.WellFormed)
    (hread : s.tree.read (Artifact.fileIn d) =
      .ok (Artifact.ofSnapshot s.index.root s.active).encode)
    (hbase : settings.buildDirectory.isSome)
    (hd : (s.restart settings).index.buildDirectory = some d)
    (hroot : (s.restart settings).index.root = s.index.root)
    (hreread : (Artifact.ofSnapshot s.index.root s.active).reread? =
      some (.ofSnapshot s.index.root s.active)) :
    (s.restart settings).baseline = .ofSnapshot s.active := by
  rw [← tree_restart (s := s) hbase] at hread
  have hload : Artifact.load? (s.restart settings).tree d s.index.root = _ :=
    Artifact.load_of_read hformed hread
  have hsame : UnixPath.samePath s.index.root s.index.root = true := beq_self_eq_true _
  rw [if_pos hsame, hreread] at hload
  have hstart : ¬ 0 < (s.restart settings).index.store.generation := Nat.lt_irrefl 0
  rw [baseline, if_neg hstart, hd, hroot, Option.bind_some, hload]
  rfl

def firstSettings : Settings := { Settings.default with buildDirectory := some "/x" }

def secondSettings : Settings := { firstSettings with shownParameters := 0 }

def firstDocument : String :=
  "\x7b\"tracks\":[\x7b\"actions\":[\x7b\"type\":\"A\",\"x\":5\x7d]\x7d]\x7d"

def firstProcess : Session := start (Artifact.withDocument firstDocument) "/d" "/c" firstSettings

def firstEvents : List (Nat × Event) := [(0, .build false), (1, .restart secondSettings)]

theorem ordered_withDocument (content : String) : (Artifact.withDocument content).Ordered :=
  ⟨List.pairwise_singleton _ _, ⟨List.pairwise_singleton _ _, trivial, trivial⟩, trivial⟩

theorem firstProcess_saves :
    firstProcess.OwnArtifact [firstProcess.saved] ∧ firstProcess.Undiverted ∧
      (firstProcess.build false 0).1.toOption.isSome ∧
      firstProcess.index.buildDirectory = some "/x/c-a5aab11f01229582" ∧
      firstProcess.index.settings.keepsBuilds = true ∧
      Artifact.Saves (firstProcess.cleared false).tree "/x/c-a5aab11f01229582"
        firstProcess.index.root (firstProcess.build false 0).2.active 0 ∧
      ((firstProcess.build false 0).2.restart secondSettings).index.buildDirectory =
        some "/x/c-a5aab11f01229582" ∧
      ((firstProcess.build false 0).2.restart secondSettings).index.root =
        (firstProcess.build false 0).2.index.root ∧
      (Artifact.ofSnapshot (firstProcess.build false 0).2.index.root
          (firstProcess.build false 0).2.active).reread? =
        some (.ofSnapshot (firstProcess.build false 0).2.index.root
          (firstProcess.build false 0).2.active) := by
  decide +kernel

theorem keepsArtifact_firstProcess : firstProcess.KeepsArtifact [] firstEvents := by
  obtain ⟨hfirst, hplace, -, hd, -, -, hnext, -⟩ := firstProcess_saves
  have hbuilt := (place_build firstProcess false 0).2.trans hd
  exact keepsArtifact_restart hfirst hplace rfl (hnext.trans hbuilt.symm) 1

theorem ordered_firstProcess : firstProcess.tree.Ordered := by
  rw [firstProcess]
  exact kept_ordered.start (ordered_withDocument _) _ _ _

theorem apart_firstProcess :
    firstProcess.ArtifactApart ∧ (firstProcess.run firstEvents).ArtifactApart :=
  ⟨artifactApart_of_linkFree (m := ["c"]) (by decide +kernel),
    artifactApart_of_linkFree (m := ["c"]) (by decide +kernel)⟩

theorem staysApart_firstProcess : firstProcess.StaysApart firstEvents :=
  ⟨fun _ ↦ apart_firstProcess.1, nofun, apart_firstProcess.2⟩

theorem restarted_build_fewer : AgreeButSummaries (· ∈ shownParametersOf firstSettings firstEvents)
    ((firstProcess.run firstEvents).build false 9).2.active
    ((firstProcess.run firstEvents).build true 9).2.active := by
  have hexact : ∀ f ∈ firstProcess.sightings firstEvents, Catalog.Exact f.file := by
    decide +kernel
  have hsame : ∀ f ∈ firstProcess.sightings firstEvents ++
      (firstProcess.run firstEvents).sighted,
      f.file.content.toOption = some (Json.Source.ofString firstDocument) := by
    decide +kernel
  have htruthful : Sighting.Truthful (firstProcess.sightings firstEvents ++
      (firstProcess.run firstEvents).sighted) := by
    intro f hf g hg _ _ _
    rw [toOption_eq_some.1 (hsame f hf), toOption_eq_some.1 (hsame g hg)]
  exact (restarted_build (ordered_withDocument _) keepsArtifact_firstProcess
    staysApart_firstProcess hexact htruthful 9).1

theorem baseline_secondProcess : (firstProcess.run firstEvents).baseline =
    .ofSnapshot (firstProcess.build false 0).2.active := by
  obtain ⟨-, -, hbuilt, hd, hkeep, hsaves, hnext, hroot, hreread⟩ := firstProcess_saves
  have hread := read_of_saves hbuilt hd hkeep hsaves
  have hstart : ∀ r ∈ firstProcess.active.records, r.WellFormed := by
    rw [firstProcess]
    exact wellFormed_start _ _ _ _
  rw [← (place_build firstProcess false 0).1] at hread
  rw [firstEvents, run_restart]
  exact baseline_restart (wellFormed_build hstart false 0) hread rfl hnext hroot hreread

/-- The second process takes over a summary that it would not write. -/
theorem restarted_build_stale : ((firstProcess.run firstEvents).build false 9).2.active.records ≠
    ((firstProcess.run firstEvents).build true 9).2.active.records := by
  have hscan : (Corpus.scan (firstProcess.run firstEvents).tree
      (firstProcess.run firstEvents).index.root).toOption.isSome := by decide +kernel
  have hapart := apart_firstProcess.2
  have hbaseline := baseline_secondProcess
  rw [firstEvents, run_restart] at *
  rw [full_build_restart ordered_firstProcess hapart hscan, build_of_baseline hbaseline]
  decide +kernel

end Session

end ActionCatalog
