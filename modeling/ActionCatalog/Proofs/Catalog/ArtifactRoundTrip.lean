import ActionCatalog.Catalog.Artifact
import ActionCatalog.Proofs.ActionRecord.RoundTrip

namespace ActionCatalog

open Json (Value Reader Written Gives bytesOf inWord?)

variable {steps depth : Nat}

namespace ManifestEntry

/-- Whether the counts of an entry fit the words that they are kept in. -/
structure Storable (m : ManifestEntry) : Prop where
  actions : m.actions < 2 ^ 64
  skipped : m.skipped < 2 ^ 64

theorem storable_iff {m : ManifestEntry} :
    m.Storable ↔ m.actions < 2 ^ 64 ∧ m.skipped < 2 ^ 64 :=
  ⟨fun h ↦ ⟨h.1, h.2⟩, fun h ↦ ⟨h.1, h.2⟩⟩

instance (m : ManifestEntry) : Decidable m.Storable := decidable_of_iff _ storable_iff.symm

def reread? (m : ManifestEntry) : Option ManifestEntry := do
  let actions ← inWord? m.actions
  let skipped ← inWord? m.skipped
  return { m with actions, skipped }

variable {m : ManifestEntry}

theorem reread_eq_some {m' : ManifestEntry} : m.reread? = some m' ↔ m.Storable ∧ m = m' := by
  rw [storable_iff, reread?, inWord?, inWord?]
  split <;> split <;> simp_all

theorem mapM_reread {ms ms' : List ManifestEntry} :
    ms.mapM reread? = some ms' ↔ (∀ m ∈ ms, m.Storable) ∧ ms = ms' := by
  simp only [mapM_eq_some, reread_eq_some]
  rw [List.forall₂_and_left, List.forall₂_eq_eq_eq]

def writtenMembers (m : ManifestEntry) : List (Written ManifestEntry) := [
  .ofReader "file" false (.accepting (.string "a string")) (fun s m ↦ { m with file := s })
    (.string m.file) (some m.file),
  .ofReader "change_marker" false (.pair word word)
    (fun p m ↦ { m with marker := ⟨.ofNat p.1, .ofNat p.2⟩ })
    (.array [.ofNat m.marker.modified.toNat, .ofNat m.marker.length.toNat])
    (some (m.marker.modified.toNat, m.marker.length.toNat)),
  .ofReader "action_count" false size (fun n m ↦ { m with actions := n }) (.ofNat m.actions)
    (inWord? m.actions),
  .ofReader "skipped_actions" true size (fun n m ↦ { m with skipped := n }) (.ofNat m.skipped)
    (inWord? m.skipped),
  .ofReader "failed" false (.accepting .bool) (fun b m ↦ { m with failed := b }) (.bool m.failed)
    (some m.failed)]

theorem members_writtenMembers : m.writtenMembers.map Written.member = members := rfl

theorem object_writtenMembers : .object (m.writtenMembers.map Written.entry) = m.toJson := rfl

/-- The marker is a pair of words, so it is read as it was. -/
theorem fill_writtenMembers : m.writtenMembers.foldlM Written.fill default = m.reread? := by
  have hmarker : (⟨.ofNat m.marker.modified.toNat, .ofNat m.marker.length.toNat⟩ : ChangeMarker) =
      m.marker := by
    rw [UInt64.ofNat_toNat, UInt64.ofNat_toNat]
  rw [reread?, writtenMembers]
  cases inWord? m.actions with
  | none => rfl
  | some actions =>
    cases inWord? m.skipped with
    | none => rfl
    | some skipped => exact congrArg (fun marker ↦ some { m with marker, actions, skipped }) hmarker

theorem gives_reader (hsteps : (bytesOf m.toJson.compact).length < steps) :
    Gives reader steps (depth + 2) m.toJson m.reread? := by
  have hread : ∀ w ∈ m.writtenMembers, (bytesOf w.value.compact).length < steps →
      Gives w.member.read steps (depth + 1) w.value w.put? := by
    simp only [writtenMembers, List.forall_mem_cons, List.not_mem_nil, false_imp_iff,
      implies_true, and_true]
    refine ⟨fun hsize ↦ ?_, fun hsize ↦ ?_, fun hsize ↦ ?_, fun hsize ↦ ?_, fun hsize ↦ ?_⟩
    · exact Written.gives_ofReader _ _ _ (Reader.gives_string _ _ hsize)
    · exact Written.gives_ofReader _ _ _
        (Reader.gives_pair (Reader.gives_natural _ (UInt64.toNat_lt _) le_rfl)
          (Reader.gives_natural _ (UInt64.toNat_lt _) le_rfl) hsize)
    · exact Written.gives_ofReader _ _ _ (Reader.gives_word _ hsize)
    · exact Written.gives_ofReader _ _ _ (Reader.gives_word _ hsize)
    · exact Written.gives_ofReader _ _ _ (Reader.gives_bool _ hsize)
  have hnodup : (m.writtenMembers.map fun w ↦ w.member.name).Nodup := by
    change ["file", "change_marker", "action_count", "skipped_actions", "failed"].Nodup
    decide
  rw [← object_writtenMembers] at hsteps ⊢
  rw [← fill_writtenMembers, reader, ← members_writtenMembers (m := m)]
  exact Json.Reader.gives_structured "a manifest entry" default hread hnodup hsteps

end ManifestEntry

namespace FailedFile

variable {f : FailedFile}

def writtenMembers (f : FailedFile) : List (Written FailedFile) := [
  .ofReader "file" false (.accepting (.string "a string")) (fun s f ↦ { f with file := s })
    (.string f.file) (some f.file),
  .ofReader "reason" false (.accepting (.string "a string")) (fun s f ↦ { f with reason := s })
    (.string f.reason) (some f.reason)]

theorem members_writtenMembers : f.writtenMembers.map Written.member = members := rfl

theorem object_writtenMembers : .object (f.writtenMembers.map Written.entry) = f.toJson := rfl

theorem fill_writtenMembers : f.writtenMembers.foldlM Written.fill default = some f := rfl

theorem gives_reader (hsteps : (bytesOf f.toJson.compact).length < steps) :
    Gives reader steps (depth + 1) f.toJson (some f) := by
  have hread : ∀ w ∈ f.writtenMembers, (bytesOf w.value.compact).length < steps →
      Gives w.member.read steps depth w.value w.put? := by
    simp only [writtenMembers, List.forall_mem_cons, List.not_mem_nil, false_imp_iff,
      implies_true, and_true]
    exact ⟨fun hsize ↦ Written.gives_ofReader _ _ _ (Reader.gives_string _ _ hsize),
      fun hsize ↦ Written.gives_ofReader _ _ _ (Reader.gives_string _ _ hsize)⟩
  have hnodup : (f.writtenMembers.map fun w ↦ w.member.name).Nodup := by
    change ["file", "reason"].Nodup
    decide
  rw [← object_writtenMembers] at hsteps ⊢
  rw [← fill_writtenMembers, reader, ← members_writtenMembers (f := f)]
  exact Json.Reader.gives_structured "a failed file" default hread hnodup hsteps

end FailedFile

namespace Artifact

variable {s : Snapshot} {root : String}

/-- What reading the text of an artifact gives. -/
def reread? (a : Artifact) : Option Artifact := do
  let builtAt ← inWord? a.builtAt
  let manifest ← a.manifest.mapM ManifestEntry.reread?
  let records ← a.records.mapM ActionRecord.reread?
  return { a with builtAt, manifest, records }

def writtenMembers (root : String) (s : Snapshot) : List (Written Artifact) := [
  .ofReader "version" false (.accepting (.natural "a version" (2 ^ 32)))
    (fun n a ↦ { a with version := n }) (.ofNat currentVersion) (some currentVersion),
  .ofReader "corpus_root" false (.accepting (.string "a path"))
    (fun s a ↦ { a with corpusRoot := s }) (.string root) (some root),
  .ofReader "build_timestamp" false (.accepting (.natural "a time" (2 ^ 64)))
    (fun n a ↦ { a with builtAt := n }) (.ofNat s.builtAt) (inWord? s.builtAt),
  .ofReader "manifest" false (.list ManifestEntry.reader) (fun ms a ↦ { a with manifest := ms })
    (.array (s.manifest.map ManifestEntry.toJson)) (s.manifest.mapM ManifestEntry.reread?),
  .ofReader "failed_files" false (.list FailedFile.reader) (fun fs a ↦ { a with failures := fs })
    (.array (s.failures.map FailedFile.toJson)) (s.failures.mapM some),
  .ofReader "records" false (.list ActionRecord.reader) (fun rs a ↦ { a with records := rs })
    (.array (s.records.map ActionRecord.toJson)) (s.records.mapM ActionRecord.reread?)]

theorem members_writtenMembers (root : String) (s : Snapshot) :
    (writtenMembers root s).map Written.member = members := rfl

theorem object_writtenMembers :
    .object ((writtenMembers root s).map Written.entry) = (ofSnapshot root s).toJson := rfl

theorem fill_writtenMembers :
    (writtenMembers root s).foldlM Written.fill default = (ofSnapshot root s).reread? := by
  have hfailures : s.failures.mapM some = some s.failures := by
    simpa using List.mapM_pure (m := Option) (l := s.failures) (f := id)
  rw [writtenMembers, hfailures, reread?, ofSnapshot]
  cases inWord? s.builtAt <;> cases s.manifest.mapM ManifestEntry.reread? <;>
    cases s.records.mapM ActionRecord.reread? <;> rfl

theorem gives_reader (h : ∀ r ∈ s.records, r.WellFormed)
    (hsteps : (bytesOf (ofSnapshot root s).toJson.compact).length < steps) :
    Gives reader steps Json.maxDepth (ofSnapshot root s).toJson (ofSnapshot root s).reread? := by
  have hread : ∀ w ∈ writtenMembers root s, (bytesOf w.value.compact).length < steps →
      Gives w.member.read steps 126 w.value w.put? := by
    simp only [writtenMembers, List.forall_mem_cons, List.not_mem_nil, false_imp_iff,
      implies_true, and_true]
    refine ⟨fun hsize ↦ ?_, fun hsize ↦ ?_, fun hsize ↦ ?_, fun hsize ↦ ?_, fun hsize ↦ ?_,
      fun hsize ↦ ?_⟩
    · exact Written.gives_ofReader _ _ _ (Reader.gives_natural _ (by decide) (by decide) hsize)
    · exact Written.gives_ofReader _ _ _ (Reader.gives_string _ _ hsize)
    · exact Written.gives_ofReader _ _ _ (Reader.gives_word _ hsize)
    · exact Written.gives_ofReader _ _ _
        (Reader.gives_list (fun _ _ hm ↦ ManifestEntry.gives_reader hm) hsize)
    · exact Written.gives_ofReader _ _ _
        (Reader.gives_list (fun f _ hf ↦ FailedFile.gives_reader hf) hsize)
    · exact Written.gives_ofReader _ _ _
        (Reader.gives_list (fun r hr hr' ↦ ActionRecord.gives_reader (h r hr) hr') hsize)
  have hnodup : ((writtenMembers root s).map fun w ↦ w.member.name).Nodup := by
    change ["version", "corpus_root", "build_timestamp", "manifest", "failed_files",
      "records"].Nodup
    decide
  rw [← object_writtenMembers] at hsteps ⊢
  rw [← fill_writtenMembers, reader, ← members_writtenMembers root s]
  exact Json.Reader.gives_structured "an artifact" default hread hnodup hsteps

theorem decode_encode (h : ∀ r ∈ s.records, r.WellFormed) :
    decode? (ofSnapshot root s).encode = (ofSnapshot root s).reread? := by
  rw [encode, Json.Value.compactText, Json.ofString_ofList]
  exact Reader.readAll_written (gives_reader h (Nat.lt_succ_self _))

theorem reread_eq_some {a a' : Artifact} : a.reread? = some a' ↔
    a.builtAt < 2 ^ 64 ∧ (∀ m ∈ a.manifest, m.Storable) ∧
      ∃ rs, a.records.mapM ActionRecord.reread? = some rs ∧ a' = { a with records := rs } := by
  constructor
  · intro h
    obtain ⟨builtAt, hbuilt, h⟩ := Option.bind_eq_some_iff.1 h
    obtain ⟨manifest, hmanifest, h⟩ := Option.bind_eq_some_iff.1 h
    obtain ⟨records, hrecords, h⟩ := Option.bind_eq_some_iff.1 h
    obtain ⟨hword, rfl⟩ := Json.inWord_eq_some.1 hbuilt
    obtain ⟨hstorable, rfl⟩ := ManifestEntry.mapM_reread.1 hmanifest
    exact ⟨hword, hstorable, records, hrecords, (Option.some.inj h).symm⟩
  · rintro ⟨hword, hstorable, records, hrecords, rfl⟩
    rw [reread?, Json.inWord_eq_some.2 ⟨hword, rfl⟩, ManifestEntry.mapM_reread.2 ⟨hstorable, rfl⟩,
      hrecords]
    rfl

/-- What the artifact that was written from a snapshot offers. -/
theorem load_of_read {t : FileTree} {directory other : String} (h : ∀ r ∈ s.records, r.WellFormed)
    (hread : t.read (fileIn directory) = .ok (ofSnapshot root s).encode) :
    load? t directory other = if UnixPath.samePath root other then
      (ofSnapshot root s).reread?.map fun a ↦ ⟨a.manifest, a.records⟩ else none := by
  rw [load?, hread]
  change (decode? _).bind _ = _
  rw [decode_encode h]
  cases ha : (ofSnapshot root s).reread? with
  | none => simp
  | some a =>
    obtain ⟨-, -, rs, -, rfl⟩ := reread_eq_some.1 ha
    simp [ofSnapshot]

end Artifact

end ActionCatalog
