import ActionCatalog.Proofs.Session.Trees

namespace ActionCatalog

theorem Corpus.scan_eq_error {t : FileTree} {root : String} {cause : CorpusError} :
    scan t root = .error cause ↔ t.isDirectory root = false ∧ cause = .notFound root := by
  have hcause : (Except.error (.notFound root) : Except CorpusError (List CorpusFile)) =
      .error cause ↔ cause = .notFound root := by
    rw [Except.error.injEq]
    exact eq_comm
  unfold scan FileTree.isDirectory FileTree.node?
  cases t.resolve root with
  | error e => simpa [Except.toOption] using hcause
  | ok l =>
    cases hl : t.at? l with
    | none => simpa [Except.toOption, hl] using hcause
    | some n => cases n <;> simp [Except.toOption, hl, Node.isDirectory, hcause]

def Reply.answer? : Reply → Option Reply
  | .built _ | .ignored => none
  | reply => some reply

namespace Session

variable {s s' : Session} {now : Nat} {e : Event}

theorem build_eq_error {force : Bool} {cause : CorpusError} :
    (s.build force now).1 = .error cause ↔
      (s.cleared force).tree.isDirectory s.index.root = false ∧ cause = .notFound s.index.root := by
  rw [← Corpus.scan_eq_error]
  cases hscan : Corpus.scan (s.cleared force).tree s.index.root with
  | error e => simp [build_of_scan_error hscan]
  | ok files => simp [build_of_scan_ok hscan]

theorem build_of_error {force : Bool} {cause : CorpusError}
    (h : (s.build force now).1 = .error cause) : (s.build force now).2 = s.cleared force := by
  rw [build_of_scan_error (Corpus.scan_eq_error.2 (build_eq_error.1 h))]

/-- Whether no build succeeds among events. -/
def Unbuilt (s : Session) (events : List (Nat × Event)) : Prop :=
  ∀ report, .built (.ok report) ∉ s.replies events

/-- Whether two sessions have the same snapshot and remember the same. -/
structure SameMemory (s s' : Session) : Prop where
  store : s.index.store = s'.index.store
  cache : s.index.cache = s'.index.cache

theorem sameMemory_cleared (s : Session) (force : Bool) : s.SameMemory (s.cleared force) := by
  constructor <;> rw [index_cleared]

theorem SameMemory.query (h : s.SameMemory s') (text : String) (limit now : Nat) :
    (s.query text limit now).1 = (s'.query text limit now).1 ∧
      (s.query text limit now).2.SameMemory (s'.query text limit now).2 := by
  unfold Session.query
  rw [← h.store, ← h.cache]
  split
  · exact ⟨rfl, h⟩
  · dsimp only
    split
    · exact ⟨rfl, h.store, rfl⟩
    · exact ⟨rfl, h.store, rfl⟩

theorem sameMemory_build {force : Bool} (h : ∀ report, (s.build force now).1 ≠ .ok report) :
    s.SameMemory (s.build force now).2 := by
  cases hbuild : (s.build force now).1 with
  | error cause =>
    rw [build_of_error hbuild]
    exact s.sameMemory_cleared force
  | ok report => exact absurd hbuild (h report)

theorem sameMemory_attempt (he : (∃ force, e = .build force) ∨ ∃ path, e = .notify path)
    (h : ∀ report, (s.step now e).1 ≠ .built (.ok report)) :
    (s.step now e).1.answer? = none ∧ s.SameMemory (s.step now e).2 := by
  have hbuild {force : Bool} (h : ∀ report, (s.step now (.build force)).1 ≠ .built (.ok report)) :
      (s.step now (.build force)).1.answer? = none ∧
        s.SameMemory (s.step now (.build force)).2 :=
    ⟨rfl, sameMemory_build fun report hreport ↦ h report (congrArg Reply.built hreport)⟩
  rcases he with ⟨force, rfl⟩ | ⟨path, rfl⟩
  · exact hbuild h
  · rw [step_notify] at h ⊢
    split
    · rename_i hconcerns
      rw [if_pos hconcerns] at h
      exact hbuild h
    · exact ⟨rfl, rfl, rfl⟩

theorem SameMemory.symm (h : s.SameMemory s') : s'.SameMemory s := ⟨h.store.symm, h.cache.symm⟩

theorem SameMemory.trans {s'' : Session} (h : s.SameMemory s') (h' : s'.SameMemory s'') :
    s.SameMemory s'' := ⟨h.store.trans h'.store, h.cache.trans h'.cache⟩

theorem SameMemory.step (h : s.SameMemory s')
    (hs : ∀ report, (s.step now e).1 ≠ .built (.ok report))
    (hs' : ∀ report, (s'.step now e).1 ≠ .built (.ok report)) :
    (s.step now e).1.answer? = (s'.step now e).1.answer? ∧
      (s.step now e).2.SameMemory (s'.step now e).2 := by
  have hattempt (he : (∃ force, e = .build force) ∨ ∃ path, e = .notify path) :
      (s.step now e).1.answer? = (s'.step now e).1.answer? ∧
        (s.step now e).2.SameMemory (s'.step now e).2 := by
    obtain ⟨hnone, hmemory⟩ := sameMemory_attempt he hs
    obtain ⟨hnone', hmemory'⟩ := sameMemory_attempt he hs'
    exact ⟨hnone.trans hnone'.symm, hmemory.symm.trans (h.trans hmemory')⟩
  have hactive : s.active = s'.active := congrArg Store.active h.store
  cases e with
  | edit e => exact ⟨rfl, h.store, h.cache⟩
  | build force => exact hattempt (.inl ⟨force, rfl⟩)
  | notify path => exact hattempt (.inr ⟨path, rfl⟩)
  | query text limit =>
    obtain ⟨hreply, hmemory⟩ := h.query text limit now
    exact ⟨congrArg (fun result ↦ (Reply.answered result).answer?) hreply, hmemory⟩
  | statistics groupBy filter =>
    refine ⟨?_, h⟩
    rw [Session.step, Session.step, statistics, statistics, hactive]
  | detail file locator =>
    refine ⟨?_, h⟩
    rw [Session.step, Session.step, detail?, detail?, hactive]
  | usage =>
    refine ⟨?_, h⟩
    rw [Session.step, Session.step, h.cache]
  | clearCache => exact ⟨rfl, h.store, congrArg ResultCache.clear h.cache⟩
  | restart settings => exact ⟨rfl, rfl, rfl⟩

theorem SameMemory.replies (h : s.SameMemory s') {events : List (Nat × Event)}
    (hs : s.Unbuilt events) (hs' : s'.Unbuilt events) :
    (s.replies events).map Reply.answer? = (s'.replies events).map Reply.answer? := by
  induction events generalizing s s' with
  | nil => rfl
  | cons event events ih =>
    obtain ⟨now, e⟩ := event
    have hfirst {s : Session} (hs : s.Unbuilt ((now, e) :: events)) (report : BuildReport) :
        (s.step now e).1 ≠ .built (.ok report) :=
      fun hreport ↦ hs report (hreport ▸ List.mem_cons_self)
    have hlater {s : Session} (hs : s.Unbuilt ((now, e) :: events)) :
        (s.step now e).2.Unbuilt events :=
      fun report hreport ↦ hs report (List.mem_cons_of_mem _ hreport)
    obtain ⟨hanswer, hmemory⟩ := h.step (hfirst hs) (hfirst hs')
    exact congrArg₂ List.cons hanswer (ih hmemory (hlater hs) (hlater hs'))

/-- Failed builds leave no trace: an incremental one or a notification changes nothing at all, and a
full one changes nothing but the artifact. Whatever happened before, the events after it are
answered as if it had not been tried, in the second case until a build succeeds. -/
theorem failed_build {s : Session} {before after : List (Nat × Event)} {now : Nat} {e : Event}
    {cause : CorpusError} (hfailed : ((s.run before).step now e).1 = .built (.error cause)) :
    let here := s.run before
    let next := (here.step now e).2
    next.tree.isDirectory here.index.root = false ∧ cause = .notFound here.index.root ∧
    (e ≠ .build true → next = here ∧
      s.replies (before ++ after) =
        (s.replies (before ++ (now, e) :: after)).eraseIdx before.length) ∧
    (e = .build true → (next = here ∨
        ∃ d l n, here.index.buildDirectory = some d ∧
          here.tree.entryLocation (Artifact.fileIn d) = .ok l ∧ here.tree.at? l = some n ∧
          n.isDirectory = false ∧ next = { here with tree := here.tree.remove l }) ∧
      (here.Unbuilt after → next.Unbuilt after →
        (s.replies (before ++ after)).map Reply.answer? =
          ((s.replies (before ++ (now, e) :: after)).map Reply.answer?).eraseIdx
            before.length)) := by
  intro here next
  obtain ⟨force, hforce, hstep⟩ := of_step_built hfailed
  have hbuild : (here.build force now).1 = .error cause :=
    Reply.built.inj ((congrArg Prod.fst hstep).symm.trans hfailed)
  have hnext : next = here.cleared force :=
    (congrArg Prod.snd hstep).trans (build_of_error hbuild)
  -- the failed build adds a reply of its own and hands `next` to the events after it
  have hwith : s.replies (before ++ (now, e) :: after) =
      s.replies before ++ (here.step now e).1 :: next.replies after := replies_append s before _
  have hwithout : s.replies (before ++ after) = s.replies before ++ here.replies after :=
    replies_append s before after
  obtain ⟨hroot, hcause⟩ := build_eq_error.1 hbuild
  refine ⟨hnext ▸ hroot, hcause, fun he ↦ ?_, fun he ↦ ?_⟩
  · have hsame : next = here := by
      rw [hnext, Bool.eq_false_iff.2 (mt hforce.2 he)]
      rfl
    refine ⟨hsame, ?_⟩
    rw [hwith, hwithout, hsame, ← length_replies s before, List.eraseIdx_append_of_length_le le_rfl,
      Nat.sub_self]
    rfl
  · have hdrop : next = here.dropArtifact := by
      rw [hnext, hforce.1 he]
      rfl
    refine ⟨hdrop ▸ here.dropArtifact_cases, fun hhere hafter ↦ ?_⟩
    have hmemory : here.SameMemory next := hnext ▸ here.sameMemory_cleared force
    rw [hwith, hwithout, List.map_append, List.map_append, ← length_replies s before,
      ← List.length_map Reply.answer?, List.eraseIdx_append_of_length_le le_rfl, Nat.sub_self,
      hmemory.replies hhere hafter]
    rfl

theorem failed_build_deleted :
    let t : FileTree := ⟨.directory [("c", .directory [("a.json", .file (Json.Source.ofString
      "\x7b\"tracks\":[\x7b\"actions\":[\x7b\"type\":\"A\"\x7d]\x7d]\x7d") 1)])], []⟩
    let s := start t "/d" "/c" { Settings.default with buildDirectory := some "/x" }
    let before := [(0, .build false), (1, .query "A" 5), (2, .edit (.delete "/c"))]
    let after := [(4, .query "A" 5), (5, .usage)]
    s.replies (before ++ after) = (s.replies (before ++ (3, .build false) :: after)).eraseIdx 3 ∧
      (s.replies (before ++ after)).map Reply.answer? =
        ((s.replies (before ++ (3, .build true) :: after)).map Reply.answer?).eraseIdx 3 ∧
      ((s.run before).query "A" 5 4).1.toOption.map QueryAnswer.cached = some true := by
  intro t s before after
  have hfailed (force : Bool) : ((s.run before).step 3 (.build force)).1 =
      .built (.error (.notFound "/c")) := by
    have herror : ((s.run before).build force 3).1 = .error (.notFound "/c") := by
      refine build_eq_error.2 ⟨?_, ?_⟩ <;> cases force <;> decide +kernel
    exact congrArg Reply.built herror
  have hunbuilt (s : Session) : s.Unbuilt after := by
    simp [Unbuilt, replies, step, after]
  obtain ⟨-, -, hpartial, -⟩ := @failed_build s before after 3 _ _ (hfailed false)
  obtain ⟨-, -, -, hfull⟩ := @failed_build s before after 3 _ _ (hfailed true)
  have hforce : Event.build false ≠ .build true := by simp
  refine ⟨(hpartial hforce).2, (hfull rfl).2 (hunbuilt _) (hunbuilt _), ?_⟩
  decide +kernel

end Session

end ActionCatalog
