import ActionCatalog.Proofs.Catalog.Validity
import ActionCatalog.Proofs.Session.OwnArtifacts

namespace ActionCatalog.Session

variable {s : Session} {known : List (String × Snapshot)} {now : Nat}

theorem Offers.sound {b : Baseline} (h : s.Offers known b) (hactive : s.active.Valid)
    (hknown : ∀ p ∈ known, p.2.Valid) : b.Sound := by
  cases h with
  | active => exact hactive.sound
  | nothing => exact Baseline.sound_empty
  | loaded hp _ hrecords =>
    exact (hknown _ hp).sound.of_outline (ActionRecord.map_outline_of_reread hrecords)

/-- What has been active is valid and can be stored. -/
structure Sound (known : List (String × Snapshot)) : Prop where
  valid : ∀ p ∈ known, p.2.Valid
  storable : Storable known

theorem sound_start (t : FileTree) (dataHome corpus : String) (settings : Settings) :
    Sound [(start t dataHome corpus settings).saved] :=
  ⟨List.forall_mem_singleton.2 Snapshot.valid_empty,
    List.forall_mem_singleton.2 (List.forall_mem_nil _)⟩

theorem Sound.step (h : Sound (s.saved :: known)) (hown : s.OwnArtifact (s.saved :: known))
    (now : Nat) (e : Event) : Sound ((s.step now e).2.saved :: s.saved :: known) := by
  have hactive : s.active.Valid := h.valid _ List.mem_cons_self
  have hformed : ∀ r ∈ s.active.records, r.WellFormed := h.storable _ List.mem_cons_self
  suffices hvalid : (s.step now e).2.active.Valid from
    ⟨List.forall_mem_cons.2 ⟨hvalid, h.valid⟩,
      List.forall_mem_cons.2 ⟨wellFormed_step hformed now e, h.storable⟩⟩
  rcases s.step_cases now e with ⟨-, force, hstep⟩ | ⟨-, -, hquiet⟩
  · rw [hstep]
    rcases s.build_cases force now with ⟨e, hbuild⟩ | ⟨snapshot, report, hsome, hbuild⟩
    · rw [hbuild, active, index_cleared]
      exact hactive
    · have hoffers := offers_offered h.storable hown force
      rw [hbuild]
      exact Catalog.valid_of_build (hoffers.sound hactive h.valid) hsome
  · generalize (s.step now e).2 = next at hquiet
    cases hquiet with
    | edited e => exact hactive
    | restarted settings => exact Snapshot.valid_empty
    | answered e cache => exact hactive

theorem Sound.exists_run {events : List (Nat × Event)} (h : Sound (s.saved :: known))
    (hkeeps : s.KeepsArtifact known events) : ∃ known', Sound ((s.run events).saved :: known') ∧
      (s.run events).OwnArtifact ((s.run events).saved :: known') := by
  induction events generalizing s known with
  | nil => exact ⟨known, h, hkeeps⟩
  | cons event events ih =>
    obtain ⟨now, e⟩ := event
    obtain ⟨hown, hrest⟩ := hkeeps
    exact ih (h.step hown now e) hrest

theorem Sound.run {events : List (Nat × Event)} (h : Sound (s.saved :: known))
    (hkeeps : s.KeepsArtifact known events) : (s.run events).active.Valid := by
  obtain ⟨known', hsound, -⟩ := h.exists_run hkeeps
  exact hsound.valid _ List.mem_cons_self

theorem describes_step {e : Event} {report : BuildReport}
    (h : (s.step now e).1 = .built (.ok report)) : report.Describes (s.step now e).2.active := by
  rcases s.step_cases now e with ⟨-, force, hstep⟩ | ⟨-, hnot, -⟩
  · rw [hstep] at h ⊢
    rcases s.build_cases force now with ⟨e, hbuild⟩ | ⟨snapshot, report', hsome, hbuild⟩
    · rw [hbuild] at h
      cases h
    · rw [hbuild] at h ⊢
      cases h
      exact Catalog.describes_of_build hsome
  · exact absurd h (hnot _)

/-- In every state that a session reaches the active snapshot is valid, and every successful build
reports what it has made. -/
theorem run_valid {t : FileTree} {dataHome corpus : String} {settings : Settings}
    {events : List (Nat × Event)} (h : (start t dataHome corpus settings).KeepsArtifact [] events) :
    let s := (start t dataHome corpus settings).run events
    s.active.Valid ∧ ∀ now e report, (s.step now e).1 = .built (.ok report) →
      report.Describes (s.step now e).2.active :=
  ⟨(sound_start t dataHome corpus settings).run h, fun _ _ _ hbuilt ↦ describes_step hbuilt⟩

theorem run_valid_broken :
    let t : FileTree := ⟨.directory [("c", .directory [("a.json", .file (Json.Source.ofString
        "\x7b\"tracks\":[\x7b\"actions\":[\x7b\"type\":\"A\"\x7d]\x7d]\x7d") 1),
      ("b.json", .file (Json.Source.ofString "[") 1)])], []⟩
    let settings := { Settings.default with buildDirectory := some "/x" }
    let s := (start t "/d" "/c" settings).run [(0, .build false)]
    s.active.Valid ∧ s.active.records.length = 1 ∧ s.active.failures.length = 1 ∧
      ∀ now e report, (s.step now e).1 = .built (.ok report) →
        report.Describes (s.step now e).2.active := by
  intro t settings s
  let first := start t "/d" "/c" settings
  have hkeeps : first.KeepsArtifact [] [(0, .build false)] :=
    OwnArtifact.keepsArtifact (by decide +kernel) (by decide +kernel)
  obtain ⟨hvalid, hreports⟩ := run_valid hkeeps
  exact ⟨hvalid, by decide +kernel, by decide +kernel, hreports⟩

end ActionCatalog.Session
