import ActionCatalog.Proofs.Catalog.Exactness
import ActionCatalog.Proofs.Corpus.Apart
import ActionCatalog.Proofs.Session.Trees
import ActionCatalog.Proofs.Session.Validity

namespace ActionCatalog

open Catalog (ReusesExactly again freshOutcome outcomeOf reportOf snapshotOf)
open FileTree (kept_ordered)

namespace Session

variable {s : Session} {known : List (String × Snapshot)} {now now' : Nat} {e : Event}
  {events : List (Nat × Event)} {report : BuildReport}

/-- Whether a build has succeeded since the index was opened the last time. -/
def BuiltSince (s : Session) (events : List (Nat × Event)) : Prop :=
  ∃ before now e after report, events = before ++ (now, e) :: after ∧
    ((s.run before).step now e).1 = .built (.ok report) ∧
      ∀ p ∈ after, ∀ settings, p.2 ≠ .restart settings

theorem builtSince_build {force : Bool} (h : (s.build force now).1 = .ok report) :
    s.BuiltSince [(now, .build force)] :=
  ⟨[], now, _, [], report, rfl, congrArg Reply.built h, List.forall_mem_nil _⟩

theorem builtSince_concat : s.BuiltSince (events ++ [(now, e)]) ↔
    (∃ report, ((s.run events).step now e).1 = .built (.ok report)) ∨
      s.BuiltSince events ∧ ∀ settings, e ≠ .restart settings := by
  constructor
  · rintro ⟨before, now', e', after, report, heq, hbuilt, hafter⟩
    obtain rfl | ⟨after, last, rfl⟩ := after.eq_nil_or_concat'
    · obtain ⟨rfl, hlast⟩ := List.append_inj' heq rfl
      cases hlast
      exact .inl ⟨report, hbuilt⟩
    · rw [← List.cons_append, ← List.append_assoc] at heq
      obtain ⟨rfl, hlast⟩ := List.append_inj' heq rfl
      cases hlast
      refine .inr ⟨⟨before, now', e', after, report, rfl, hbuilt, fun p hp ↦ ?_⟩, ?_⟩
      · exact hafter p (List.mem_append_left _ hp)
      · exact hafter (now, e) (List.mem_append_right _ List.mem_cons_self)
  · rintro (⟨report, hbuilt⟩ | ⟨⟨before, now', e', after, report, rfl, hbuilt, hafter⟩, hlast⟩)
    · exact ⟨events, now, e, [], report, rfl, hbuilt, List.forall_mem_nil _⟩
    · refine ⟨before, now', e', after ++ [(now, e)], report, ?_, hbuilt, ?_⟩
      · rw [List.append_assoc, List.cons_append]
      · exact List.forall_mem_append.2 ⟨hafter, List.forall_mem_singleton.2 hlast⟩

theorem generation_step : 0 < (s.step now e).2.index.store.generation ↔
    (∃ report, (s.step now e).1 = .built (.ok report)) ∨
      0 < s.index.store.generation ∧ ∀ settings, e ≠ .restart settings := by
  rcases s.step_cases now e with ⟨hbuilds, force, hstep⟩ | ⟨-, hnot, hquiet⟩
  · have hopen : ∀ settings, e ≠ .restart settings := by
      rintro settings rfl
      cases hbuilds
    rcases s.build_cases force now with ⟨cause, hbuild⟩ | ⟨snapshot, report, -, hbuild⟩
    · simp [hstep, hbuild, hopen]
    · simp [hstep, hbuild, renewed, Store.swap]
  · simp only [hnot, exists_false, false_or]
    by_cases hrestart : ∃ settings, e = .restart settings
    · obtain ⟨settings, rfl⟩ := hrestart
      have hzero : (s.step now (.restart settings)).2.index.store.generation = 0 := rfl
      simp [hzero]
    · have hopen : ∀ settings, e ≠ .restart settings := fun settings he ↦ hrestart ⟨settings, he⟩
      generalize (s.step now e).2 = next at hquiet
      cases hquiet with
      | edited e => simp
      | restarted settings => exact absurd rfl (hopen settings)
      | answered e cache => simp [hopen]

theorem generation_pos (hs : s.index.store.generation = 0) (events : List (Nat × Event)) :
    0 < (s.run events).index.store.generation ↔ s.BuiltSince events := by
  induction events using List.reverseRecOn with
  | nil =>
    rw [run, List.foldl_nil, hs]
    simp [BuiltSince]
  | append_singleton events event ih =>
    obtain ⟨now, e⟩ := event
    rw [run_append, builtSince_concat, ← ih]
    exact generation_step

theorem Offers.counted {b : Baseline} (h : s.Offers known b) (hactive : s.active.Valid)
    (hknown : ∀ p ∈ known, p.2.Valid) : b.Counted := by
  cases h with
  | active => exact hactive.counted_baseline
  | nothing => exact Baseline.counted_empty
  | loaded hp _ hrecords =>
    exact (hknown _ hp).counted_baseline.of_outline (ActionRecord.map_outline_of_reread hrecords)

/-- Whether an event neither builds nor opens the index, nor changes the tree. -/
def Idle (s : Session) (e : Event) : Prop :=
  s.builds e = false ∧ (∀ edit, e ≠ .edit edit) ∧ ∀ settings, e ≠ .restart settings

theorem step_idle (h : s.Idle e) (now : Nat) :
    ∃ cache, (s.step now e).2 = { s with index.cache := cache } := by
  obtain ⟨hbuilds, hedit, hrestart⟩ := h
  rcases s.step_cases now e with ⟨hbuilds', -⟩ | ⟨-, -, hquiet⟩
  · rw [hbuilds] at hbuilds'
    cases hbuilds'
  · generalize (s.step now e).2 = next at hquiet
    cases hquiet with
    | edited edit => exact absurd rfl (hedit edit)
    | restarted settings => exact absurd rfl (hrestart settings)
    | answered e cache => exact ⟨cache, rfl⟩

theorem run_idle (h : ∀ p ∈ events, s.Idle p.2) :
    ∃ cache, s.run events = { s with index.cache := cache } := by
  induction events generalizing s with
  | nil => exact ⟨s.index.cache, rfl⟩
  | cons event events ih =>
    obtain ⟨now, e⟩ := event
    obtain ⟨hfirst, hrest⟩ := List.forall_mem_cons.1 h
    obtain ⟨cache, hstep⟩ := step_idle hfirst now
    obtain ⟨cache', hrun⟩ := @ih { s with index.cache := cache } hrest
    refine ⟨cache', ?_⟩
    change (s.step now e).2.run events = _
    rw [hstep, hrun]

/-- What an event that builds makes of the documents that a tree has below the root: its report and
its snapshot say what has become of each. -/
structure Yields (s : Session) (now : Nat) (e : Event) (t : FileTree)
    (outcomes : List (CorpusFile × Outcome)) : Prop where
  scanned : Corpus.scan t s.index.root = .ok (outcomes.map Prod.fst)
  built : (s.step now e).1 = .built (.ok (reportOf outcomes))
  active : (s.step now e).2.active = snapshotOf outcomes (now / 10 ^ 9)

theorem yields_build {force : Bool} (h : (s.build force now).1 = .ok report) :
    ∃ outcomes, s.Yields now (.build force) (s.cleared force).tree outcomes ∧
      report = reportOf outcomes ∧ ∀ p ∈ outcomes,
        p.2 = outcomeOf (s.offered force) s.index.settings.shownParameters p.1 := by
  cases hscan : Corpus.scan (s.cleared force).tree s.index.root with
  | error cause =>
    rw [build_of_scan_error hscan] at h
    cases h
  | ok files =>
    have hbuild : s.build force now = _ := build_of_scan_ok hscan
    have hbuilt := congrArg Prod.fst hbuild
    refine ⟨_, ⟨?_, congrArg Reply.built hbuilt, ?_⟩, ?_, List.forall_mem_map.2 fun file _ ↦ rfl⟩
    · rw [hscan, List.map_map]
      exact congrArg Except.ok (List.map_id files).symm
    · rw [step_build, hbuild]
      rfl
    · exact Except.ok.inj (h.symm.trans hbuilt)

theorem yields_incremental (hcounted : s.baseline.Counted) (he : e ≠ .build true)
    (h : (s.step now e).1 = .built (.ok report)) :
    ∃ outcomes, s.Yields now e s.tree outcomes ∧
      (∀ p ∈ outcomes, ReusesExactly s.baseline s.index.settings.shownParameters p.1 p.2) ∧
      report.reusedFiles = outcomes.countP fun p ↦ s.baseline.Lists p.1 := by
  obtain ⟨force, hforce, hstep⟩ := of_step_built h
  obtain rfl : force = false := Bool.eq_false_iff.2 (mt hforce.2 he)
  rw [hstep] at h
  have hbuilt : (s.build false now).1 = .ok report := Reply.built.inj h
  obtain ⟨outcomes, ⟨hscanned, hreply, hactive⟩, rfl, hown⟩ := yields_build hbuilt
  have hexact : ∀ p ∈ outcomes,
      ReusesExactly s.baseline s.index.settings.shownParameters p.1 p.2 := by
    intro p hp
    rw [hown p hp]
    exact Catalog.reusesExactly_outcomeOf hcounted _ p.1
  refine ⟨outcomes, ⟨hscanned, hstep ▸ hreply, hstep ▸ hactive⟩, hexact, ?_⟩
  refine List.countP_congr fun p hp ↦ ?_
  rw [decide_eq_true_iff]
  exact (hexact p hp).isReused

theorem yields_full (h : (s.build true now).1 = .ok report) :
    ∃ outcomes, s.Yields now (.build true) s.dropArtifact.tree outcomes ∧
      (∀ p ∈ outcomes, p.2 = freshOutcome s.index.settings.shownParameters p.1) ∧
      report.reusedFiles = 0 := by
  obtain ⟨outcomes, hyields, rfl, hown⟩ := yields_build h
  have hfresh : ∀ p ∈ outcomes, p.2 = freshOutcome s.index.settings.shownParameters p.1 := hown
  refine ⟨outcomes, hyields, hfresh, List.countP_eq_zero.2 fun p hp ↦ ?_⟩
  have hread := Catalog.isReused_freshOutcome s.index.settings.shownParameters p.1
  rw [← hfresh p hp] at hread
  exact Bool.eq_false_iff.1 hread

theorem baseline_of_built (h : 0 < s.index.store.generation) :
    s.baseline = .ofSnapshot s.active := if_pos h

theorem offered_renewed (s : Session) (snapshot : Snapshot) (now : Nat)
    (cache : ResultCache ActionRecord) :
    offered { s.renewed snapshot now with index.cache := cache } false = .ofSnapshot snapshot := by
  have hbuilt : 0 < (s.renewed snapshot now).index.store.generation := Nat.succ_pos _
  exact @baseline_of_built { s.renewed snapshot now with index.cache := cache } hbuilt

theorem build_again {force : Bool} {between : List (Nat × Event)} (hb : (s.offered force).Sound)
    (hordered : s.tree.Ordered) (hbuilt : (s.build force now).1 = .ok report)
    (hapart : Corpus.Apart (s.cleared force).tree (s.build force now).2.tree s.index.root)
    (hidle : ∀ p ∈ between, (s.build force now).2.Idle p.2) (now' : Nat) :
    let next := (s.build force now).2.run between
    (next.build false now').1 = .ok { report with reusedFiles := report.indexedFiles } ∧
      (next.build false now').2.active =
        { (s.build force now).2.active with builtAt := now' / 10 ^ 9 } := by
  intro next
  -- the events in between change nothing but the cache
  obtain ⟨cache, hrun⟩ : ∃ cache, next = { (s.build force now).2 with index.cache := cache } :=
    run_idle hidle
  clear_value next
  have hordered' : (s.build force now).2.tree.Ordered := kept_ordered.build hordered force now
  have hsame := hapart.scan_eq (kept_ordered.cleared hordered force) hordered'
  cases hscan : Corpus.scan (s.cleared force).tree s.index.root with
  | error cause =>
    rw [build_of_scan_error hscan] at hbuilt
    cases hbuilt
  | ok files =>
    have hfirst : s.build force now = _ := build_of_scan_ok hscan
    generalize houtcomes : files.map (fun file ↦
      (file, outcomeOf (s.offered force) s.index.settings.shownParameters file)) = outcomes
        at hfirst
    rw [hfirst] at hbuilt hsame hrun
    have hindex : next.index.root = s.index.root ∧ next.index.settings = s.index.settings := by
      simp [hrun, renewed]
    have hscan' : Corpus.scan (next.cleared false).tree next.index.root = .ok files := by
      rw [hindex.1, ← hscan, ← hsame, hrun]
      rfl
    have hoffered : next.offered false = .ofSnapshot (snapshotOf outcomes (now / 10 ^ 9)) :=
      hrun ▸ offered_renewed _ _ _ cache
    have hagain : files.map (fun file ↦
        (file, outcomeOf (next.offered false) next.index.settings.shownParameters file)) =
          outcomes.map fun p ↦ (p.1, again p.2) := by
      rw [hoffered, hindex.2, ← houtcomes, List.map_map]
      exact List.map_congr_left fun file hfile ↦
        congrArg (file, ·) (Catalog.outcomeOf_again hb (Corpus.scan_listed hscan) hfile)
    rw [build_of_scan_ok hscan', hagain, Catalog.reportOf_again, hfirst, ← Except.ok.inj hbuilt]
    exact ⟨rfl, Catalog.snapshotOf_again outcomes _ _⟩

/-- Reuse is exact, whatever happened before. The baseline is the active snapshot if there has been
a build since the index was opened, and the artifact otherwise, if it can be loaded. It counts its
records, and an incremental build takes over the files that it lists unchanged and not as failed,
and reads all others. The build after any build takes over all files that did not fail. -/
theorem reuse_exact {t : FileTree} {dataHome corpus : String} {settings : Settings}
    {events : List (Nat × Event)} (hordered : t.Ordered)
    (hkeeps : (start t dataHome corpus settings).KeepsArtifact [] events) :
    let first := start t dataHome corpus settings
    let s := first.run events
    let shownParameters := s.index.settings.shownParameters
    (first.BuiltSince events → s.baseline = .ofSnapshot s.active) ∧
    (¬first.BuiltSince events → s.baseline =
      (s.index.buildDirectory.bind fun d ↦ Artifact.load? s.tree d s.index.root).getD .empty) ∧
    s.baseline.Counted ∧
    (∀ now e report, e ≠ .build true → (s.step now e).1 = .built (.ok report) →
      ∃ outcomes, s.Yields now e s.tree outcomes ∧
        (∀ p ∈ outcomes, ReusesExactly s.baseline shownParameters p.1 p.2) ∧
        report.reusedFiles = outcomes.countP fun p ↦ s.baseline.Lists p.1) ∧
    (∀ now report, (s.build true now).1 = .ok report →
      ∃ outcomes, s.Yields now (.build true) s.dropArtifact.tree outcomes ∧
        (∀ p ∈ outcomes, p.2 = freshOutcome shownParameters p.1) ∧ report.reusedFiles = 0) ∧
    (∀ now force report between now', (s.build force now).1 = .ok report →
      Corpus.Apart (s.cleared force).tree (s.build force now).2.tree s.index.root →
      (∀ p ∈ between, (s.build force now).2.Idle p.2) →
      let next := (s.build force now).2.run between
      (next.build false now').1 = .ok { report with reusedFiles := report.indexedFiles } ∧
        (next.build false now').2.active =
          { (s.build force now).2.active with builtAt := now' / 10 ^ 9 }) := by
  intro first s shownParameters
  have hgeneration : 0 < s.index.store.generation ↔ first.BuiltSince events :=
    generation_pos rfl events
  obtain ⟨known, hsound, hown⟩ := (sound_start t dataHome corpus settings).exists_run hkeeps
  have hactive : s.active.Valid := hsound.valid _ List.mem_cons_self
  have hcounted : s.baseline.Counted :=
    (offers_baseline hsound.storable hown).counted hactive hsound.valid
  have hs : s.tree.Ordered :=
    kept_ordered.run (kept_ordered.start hordered dataHome corpus settings) events
  refine ⟨fun h ↦ baseline_of_built (hgeneration.2 h), fun h ↦ if_neg (mt hgeneration.1 h),
    hcounted, fun now e report ↦ yields_incremental hcounted, fun now report ↦ yields_full, ?_⟩
  intro now force report between now' hbuilt hapart hidle
  have hoffered := (offers_offered hsound.storable hown force).sound hactive hsound.valid
  exact build_again hoffered hs hbuilt hapart hidle now'

def brokenPair : FileTree := ⟨.directory [("c", .directory [("a.json", .file (Json.Source.ofString
    "\x7b\"tracks\":[\x7b\"actions\":[\x7b\"type\":\"A\"\x7d]\x7d]\x7d") (2 ^ 64 + 5)),
  ("b.json", .file (Json.Source.ofString "[") (-1))])], []⟩

def pairProcess : Session :=
  start brokenPair "/d" "/c" { Settings.default with buildDirectory := some "/x" }

theorem ordered_brokenPair : brokenPair.Ordered := by
  have hnames : "a.json" < "b.json" := by decide +kernel
  exact ⟨List.pairwise_singleton _ _, ⟨List.pairwise_pair.2 hnames, trivial, trivial, trivial⟩,
    trivial⟩

theorem built_pairProcess : (pairProcess.build false 0).1.toOption.isSome := by decide +kernel

theorem keepsArtifact_pairProcess : pairProcess.KeepsArtifact [] [(0, .build false)] :=
  OwnArtifact.keepsArtifact (by decide +kernel) (by decide +kernel)

theorem reuse_exact_broken :
    let s := pairProcess.run [(0, .build false)]
    let next := (s.build false 1).2.run [(2, .query "A" 5)]
    s.baseline = .ofSnapshot s.active ∧ ∃ report, (s.build false 1).1 = .ok report ∧
      report.totalFiles = 2 ∧ report.reusedFiles = 1 ∧ report.indexedFiles = 1 ∧
      (next.build false 3).1 = .ok { report with reusedFiles := report.indexedFiles } ∧
      (next.build false 3).2.active = { (s.build false 1).2.active with builtAt := 0 } := by
  intro s next
  obtain ⟨hbaseline, -, -, -, -, hagain⟩ := reuse_exact ordered_brokenPair keepsArtifact_pairProcess
  have hcounts : (s.build false 1).1.toOption.map
      (fun report ↦ (report.totalFiles, report.reusedFiles, report.indexedFiles)) =
        some (2, 1, 1) := by decide +kernel
  have hidle : ∀ p ∈ [(2, Event.query "A" 5)], (s.build false 1).2.Idle p.2 :=
    List.forall_mem_singleton.2 ⟨rfl, nofun, nofun⟩
  obtain ⟨first, hfirst⟩ := Option.isSome_iff_exists.1 built_pairProcess
  obtain ⟨report, hreport, hcounts⟩ := Option.map_eq_some_iff.1 hcounts
  obtain ⟨htotal, hreused, hindexed⟩ : report.totalFiles = 2 ∧ report.reusedFiles = 1 ∧
      report.indexedFiles = 1 := by simpa using hcounts
  have hbuilt := toOption_eq_some.1 hreport
  refine ⟨hbaseline (builtSince_build (toOption_eq_some.1 hfirst)), report, hbuilt, htotal,
    hreused, hindexed, hagain 1 false report _ 3 hbuilt ?_ hidle⟩
  refine Corpus.apart_of_linkFree (m := ["c"]) ?_ ?_ ?_ ?_ ?_ <;> decide +kernel

end Session

end ActionCatalog
