import ActionCatalog.Proofs.Catalog.Build
import ActionCatalog.Session.Event

namespace ActionCatalog.Session

variable {s : Session} {now : Nat}

def builds (s : Session) : Event → Bool
  | .build _ => true
  | .notify path => s.concerns path
  | _ => false

theorem run_append (s : Session) (events events' : List (Nat × Event)) :
    s.run (events ++ events') = (s.run events).run events' := List.foldl_append

theorem length_replies (s : Session) (events : List (Nat × Event)) :
    (s.replies events).length = events.length := by
  induction events generalizing s with
  | nil => rfl
  | cons event events ih => exact congrArg (· + 1) (ih _)

theorem replies_append (s : Session) (events events' : List (Nat × Event)) :
    s.replies (events ++ events') = s.replies events ++ (s.run events).replies events' := by
  induction events generalizing s with
  | nil => rfl
  | cons event events ih => exact congrArg (_ :: ·) (ih _)

theorem query_session (s : Session) (text : String) (limit now : Nat) :
    ∃ cache, (s.query text limit now).2 = { s with index.cache := cache } := by
  unfold query
  split
  · exact ⟨s.index.cache, rfl⟩
  · dsimp only
    split <;> exact ⟨_, rfl⟩

theorem step_build (s : Session) (now : Nat) (force : Bool) :
    (s.step now (.build force)).2 = (s.build force now).2 := rfl

theorem step_restart (s : Session) (now : Nat) (settings : Settings) :
    (s.step now (.restart settings)).2 = s.restart settings := rfl

theorem step_notify (s : Session) (path : String) (now : Nat) : s.step now (.notify path) =
    if s.concerns path then s.step now (.build false) else (.ignored, s) := by
  cases h : s.concerns path <;> simp [step, notify, h]

theorem of_step_built {e : Event} {result : Except CorpusError BuildReport}
    (h : (s.step now e).1 = .built result) :
    ∃ force, (e = .build true ↔ force = true) ∧ s.step now e = s.step now (.build force) := by
  cases e with
  | build force => exact ⟨force, by simp, rfl⟩
  | notify path =>
    refine ⟨false, by simp, ?_⟩
    rw [step_notify] at h ⊢
    split
    · rfl
    · rename_i hnot
      rw [if_neg hnot] at h
      cases h
  | _ => cases h

/-- What the events that build nothing do. -/
inductive Quiet (s : Session) : Event → Session → Prop
  | edited (e : FileTree.Edit) : Quiet s (.edit e) { s with tree := s.tree.edit e }
  | restarted (settings : Settings) : Quiet s (.restart settings) (s.restart settings)
  | answered (e : Event) (cache : ResultCache ActionRecord) :
    Quiet s e { s with index.cache := cache }

theorem step_cases (s : Session) (now : Nat) (e : Event) :
    (s.builds e = true ∧
      ∃ force, s.step now e = (.built (s.build force now).1, (s.build force now).2)) ∨
    s.builds e = false ∧ (∀ result, (s.step now e).1 ≠ .built result) ∧
      s.Quiet e (s.step now e).2 := by
  cases e with
  | edit e => exact .inr ⟨rfl, nofun, .edited e⟩
  | build force => exact .inl ⟨rfl, force, rfl⟩
  | notify path =>
    rw [step_notify]
    by_cases hc : s.concerns path = true
    · rw [if_pos hc]
      exact .inl ⟨hc, false, rfl⟩
    · rw [if_neg hc]
      exact .inr ⟨Bool.eq_false_iff.2 hc, nofun, .answered _ s.index.cache⟩
  | query text limit =>
    obtain ⟨cache, hcache⟩ := s.query_session text limit now
    have hstep : (s.step now (.query text limit)).2 = { s with index.cache := cache } := hcache
    rw [hstep]
    exact .inr ⟨rfl, nofun, .answered _ cache⟩
  | statistics groupBy filter => exact .inr ⟨rfl, nofun, .answered _ s.index.cache⟩
  | detail file locator => exact .inr ⟨rfl, nofun, .answered _ s.index.cache⟩
  | usage => exact .inr ⟨rfl, nofun, .answered _ s.index.cache⟩
  | clearCache => exact .inr ⟨rfl, nofun, .answered _ s.index.cache.clear⟩
  | restart settings => exact .inr ⟨rfl, nofun, .restarted settings⟩

/-- What a build starts from: a forced one drops the artifact first. -/
def cleared (s : Session) (force : Bool) : Session := if force then s.dropArtifact else s

/-- What a build may take over: a forced one nothing. -/
def offered (s : Session) (force : Bool) : Baseline := if force then .empty else s.baseline

def renewed (s : Session) (snapshot : Snapshot) (now : Nat) : Session :=
  { s with
    tree := s.keep snapshot now
    index := { s.index with
      store := (s.index.store.swap snapshot).2
      cache := s.index.cache.clear } }

@[simp] theorem index_cleared (s : Session) (force : Bool) : (s.cleared force).index = s.index := by
  cases force <;> rfl

theorem build_eq (s : Session) (force : Bool) (now : Nat) :
    s.build force now = (s.cleared force).buildOn (s.offered force) now := by
  cases force <;> rfl

theorem build_of_scan_error {force : Bool} {e : CorpusError}
    (h : Corpus.scan (s.cleared force).tree s.index.root = .error e) :
    s.build force now = (.error e, s.cleared force) := by
  rw [build_eq, buildOn, index_cleared, Catalog.build_error h]

theorem build_of_scan_ok {force : Bool} {files : List CorpusFile}
    (h : Corpus.scan (s.cleared force).tree s.index.root = .ok files) :
    let outcomes := files.map fun file ↦
      (file, Catalog.outcomeOf (s.offered force) s.index.settings.shownParameters file)
    s.build force now = (.ok (Catalog.reportOf outcomes),
      (s.cleared force).renewed (Catalog.snapshotOf outcomes (now / 10 ^ 9)) now) := by
  rw [build_eq, buildOn, index_cleared, Catalog.build_eq_ok.2 ⟨files, h, rfl, rfl⟩]
  dsimp only
  rw [renewed, index_cleared]

theorem build_cases (s : Session) (force : Bool) (now : Nat) :
    (∃ e, s.build force now = (.error e, s.cleared force)) ∨
    ∃ snapshot report,
      Catalog.build (s.cleared force).tree s.index.root (s.offered force)
        s.index.settings.shownParameters (now / 10 ^ 9) = .ok (snapshot, report) ∧
      s.build force now = (.ok report, (s.cleared force).renewed snapshot now) := by
  cases hscan : Corpus.scan (s.cleared force).tree s.index.root with
  | error e => exact .inl ⟨e, build_of_scan_error hscan⟩
  | ok files =>
    exact .inr ⟨_, _, Catalog.build_eq_ok.2 ⟨files, hscan, rfl, rfl⟩, build_of_scan_ok hscan⟩

theorem place_build (s : Session) (force : Bool) (now : Nat) :
    (s.build force now).2.index.root = s.index.root ∧
      (s.build force now).2.index.buildDirectory = s.index.buildDirectory := by
  rcases s.build_cases force now with ⟨e, hbuild⟩ | ⟨snapshot, report, -, hbuild⟩
  · simp only [hbuild, index_cleared, and_self]
  · simp only [hbuild, renewed, index_cleared, and_self]

end ActionCatalog.Session
