import ActionCatalog.Proofs.Session.Interleaving
import ActionCatalog.Proofs.Session.Steps
import Mathlib.Data.List.Induction

namespace ActionCatalog

def Settings.uncached (settings : Settings) : Settings :=
  { settings with cacheSize := 0, cacheLifetime := 0 }

/-- What an event does or asks apart from the cache. Only builds depend on the time. -/
def Event.uncached : Nat × Event → Option (Nat × Event)
  | (_, .edit e) => some (0, .edit e)
  | (now, .build force) => some (now, .build force)
  | (now, .notify path) => some (now, .notify path)
  | (_, .query text limit) => some (0, .query text limit)
  | (_, .restart settings) => some (0, .restart settings.uncached)
  | (_, .statistics _ _) | (_, .detail _ _) | (_, .usage) | (_, .clearCache) => none

theorem Event.uncached_self {p p' : Nat × Event} (h : Event.uncached p = some p') :
    Event.uncached p' = some p' := by
  obtain ⟨now, e⟩ := p
  cases e <;> cases h <;> rfl

def Reply.selection? : Reply → Option (Except Query.SyntaxError (Selection ActionRecord))
  | .answered result => some (result.map QueryAnswer.selection)
  | _ => none

namespace Session

variable {s s' : Session} {now limit : Nat} {text : String} {e : CacheEntry ActionRecord}

/-- A session up to its cache. -/
def uncached (s : Session) : Session :=
  { s with index := { s.index with settings := s.index.settings.uncached, cache := .empty 0 0 } }

theorem uncached_start (t : FileTree) (dataHome corpus : String) (settings : Settings) :
    (start t dataHome corpus settings).uncached = start t dataHome corpus settings.uncached := rfl

theorem uncached_query (s : Session) (text : String) (limit now : Nat) :
    (s.query text limit now).2.uncached = s.uncached := by
  obtain ⟨cache, hcache⟩ := s.query_session text limit now
  rw [hcache]
  rfl

theorem uncached_buildOn (s : Session) (b : Baseline) (now : Nat) :
    (s.buildOn b now).2.uncached = (s.uncached.buildOn b now).2 := by
  cases hbuild : Catalog.build s.tree s.index.root b s.index.settings.shownParameters
    (now / 10 ^ 9) with
  | error e =>
    have hbuild' : Catalog.build s.uncached.tree s.uncached.index.root b
      s.uncached.index.settings.shownParameters (now / 10 ^ 9) = .error e := hbuild
    rw [buildOn, hbuild, buildOn, hbuild']
  | ok built =>
    have hbuild' : Catalog.build s.uncached.tree s.uncached.index.root b
      s.uncached.index.settings.shownParameters (now / 10 ^ 9) = .ok built := hbuild
    rw [buildOn, hbuild, buildOn, hbuild']
    rfl

theorem uncached_build (s : Session) (force : Bool) (now : Nat) :
    (s.build force now).2.uncached = (s.uncached.build force now).2 := by
  cases force with
  | false => exact uncached_buildOn s s.baseline now
  | true => exact uncached_buildOn s.dropArtifact .empty now

theorem uncached_uncached (s : Session) : s.uncached.uncached = s.uncached := rfl

theorem uncached_step (s : Session) (now : Nat) (e : Event) :
    (s.step now e).2.uncached =
      (Event.uncached (now, e)).elim s.uncached fun p ↦ (s.uncached.step p.1 p.2).2.uncached := by
  cases e with
  | edit e => rfl
  | build force =>
    change (s.build force now).2.uncached = (s.uncached.build force now).2.uncached
    rw [uncached_build, uncached_build, uncached_uncached]
  | notify path =>
    change _ = (s.uncached.step now (.notify path)).2.uncached
    have hconcerns : s.uncached.concerns path = s.concerns path := rfl
    rw [step_notify, step_notify, hconcerns]
    split
    · rw [step_build, step_build, uncached_build, uncached_build, uncached_uncached]
    · rfl
  | query text limit =>
    exact (uncached_query s text limit now).trans (uncached_query s.uncached text limit 0).symm
  | statistics groupBy filter => rfl
  | detail file locator => rfl
  | usage => rfl
  | clearCache => rfl
  | restart settings => rfl

theorem uncached_step_congr {now' : Nat} {e e' : Event} (hs : s.uncached = s'.uncached)
    (he : Event.uncached (now, e) = some (now', e')) :
    (s.step now e).2.uncached = (s'.step now' e').2.uncached := by
  rw [uncached_step, uncached_step s', he, Event.uncached_self he, hs]

def evaluation? (s : Session) : Event → Option (Except Query.SyntaxError (Selection ActionRecord))
  | .query text limit => some ((Query.read text).map (·.evaluate s.active.records limit))
  | _ => none

/-- What the queries among events select, each from the snapshot that is active then. -/
def evaluations (s : Session) : List (Nat × Event) →
    List (Except Query.SyntaxError (Selection ActionRecord))
  | [] => []
  | (now, e) :: events => (s.evaluation? e).toList ++ (s.step now e).2.evaluations events

def answers (s : Session) (events : List (Nat × Event)) :
    List (Except Query.SyntaxError (Selection ActionRecord)) :=
  (s.replies events).filterMap Reply.selection?

theorem evaluation_congr {e e' : Event} {now' : Nat} (hs : s.uncached = s'.uncached)
    (he : Event.uncached (now, e) = some (now', e')) : s.evaluation? e = s'.evaluation? e' := by
  have hactive : s.active = s'.active :=
    show s.uncached.active = s'.uncached.active from congrArg active hs
  cases e with
  | query text limit =>
    cases he
    rw [evaluation?, evaluation?, hactive]
  | edit e => cases he; rfl
  | build force => cases he; rfl
  | notify path => cases he; rfl
  | restart settings => cases he; rfl
  | statistics groupBy filter => cases he
  | detail file locator => cases he
  | usage => cases he
  | clearCache => cases he

theorem evaluation_of_uncached_none {e : Event} (he : Event.uncached (now, e) = none) :
    s.evaluation? e = none := by
  cases e <;> first | rfl | cases he

theorem evaluations_uncached (h : s.uncached = s'.uncached) (events : List (Nat × Event)) :
    s.evaluations events = s'.evaluations (events.filterMap Event.uncached) := by
  induction events generalizing s s' with
  | nil => rfl
  | cons event events ih =>
    obtain ⟨now, e⟩ := event
    cases he : Event.uncached (now, e) with
    | none =>
      have hstep : (s.step now e).2.uncached = s'.uncached := by
        rw [uncached_step, he]
        exact h
      rw [List.filterMap_cons_none he, evaluations, evaluation_of_uncached_none he, ih hstep]
      rfl
    | some event' =>
      obtain ⟨now', e'⟩ := event'
      rw [List.filterMap_cons_some he, evaluations, evaluations, evaluation_congr h he,
        ih (uncached_step_congr h he)]

/-- Whether every remembered result is that of its key on the active snapshot. -/
def RemembersTruly (s : Session) : Prop :=
  ∀ e ∈ s.index.cache.entries, ∃ q : Query, q.WellFormed ∧ e.key.query = q.text ∧
    e.result = q.evaluate s.active.records e.key.limit

/-- Whether an event makes a session forget what has been asked. -/
def Forgets (s : Session) (now : Nat) (e : Event) : Prop :=
  e = .clearCache ∨ (∃ settings, e = .restart settings) ∨
    ∃ report, (s.step now e).1 = .built (.ok report)

theorem query_cases (s : Session) (text : String) (limit now : Nat) :
    (∃ e, Query.read text = .error e ∧ s.query text limit now = (.error e, s)) ∨
    ∃ q cache, Query.read text = .ok q ∧ (∀ e ∈ cache.entries, e ∈ s.index.cache.entries) ∧
      ((∃ e ∈ s.index.cache.entries, e.key = ⟨q.text, limit⟩ ∧
        s.query text limit now = (.ok ⟨e.result, true⟩, { s with index.cache := cache })) ∨
      let selection := q.evaluate s.active.records limit
      s.query text limit now = (.ok ⟨selection, false⟩, { s with
        index.cache := cache.insert ⟨q.text, limit⟩ s.index.store.generation now selection })) := by
  cases hq : Query.read text with
  | error e => exact .inl ⟨e, rfl, by rw [query, hq]⟩
  | ok q =>
    rcases hget : s.index.cache.get ⟨q.text, limit⟩ s.index.store.generation now with ⟨found, cache⟩
    have hcache (e : CacheEntry ActionRecord) :
        e ∈ (s.index.cache.get ⟨q.text, limit⟩ s.index.store.generation now).2.entries →
          e ∈ s.index.cache.entries := ResultCache.mem_of_mem_get
    rw [hget] at hcache
    refine .inr ⟨q, cache, rfl, hcache, ?_⟩
    have hget' : s.index.cache.get ⟨q.text, limit⟩ s.index.store.current.2 now = _ := hget
    cases found with
    | none =>
      right
      simp only [query, hq, hget']
      rfl
    | some result =>
      obtain ⟨e, he, hkey, -, hresult⟩ := ResultCache.exists_of_get (by rw [hget])
      refine .inl ⟨e, he, hkey, ?_⟩
      simp only [query, hq, hget', hresult]

theorem mem_cache_query (h : e ∈ (s.query text limit now).2.index.cache.entries) :
    e ∈ s.index.cache.entries ∨ ∃ q, Query.read text = .ok q ∧
      e = ⟨⟨q.text, limit⟩, q.evaluate s.active.records limit, s.index.store.generation, now⟩ := by
  obtain ⟨cause, -, hquery⟩ | ⟨q, cache, hq, hcache, ⟨_, -, -, hquery⟩ | hquery⟩ :=
    s.query_cases text limit now
  · rw [hquery] at h
    exact .inl h
  · rw [hquery] at h
    exact .inl (hcache e h)
  · rw [hquery] at h
    rcases ResultCache.mem_of_mem_insert h with h | h
    · exact .inl (hcache e h)
    · exact .inr ⟨q, hq, h⟩

theorem RemembersTruly.query (h : s.RemembersTruly) (text : String) (limit now : Nat) :
    (s.query text limit now).1.map QueryAnswer.selection =
      (Query.read text).map (·.evaluate s.active.records limit) := by
  obtain ⟨cause, hq, hquery⟩ | ⟨q, cache, hq, -, ⟨e, he, hkey, hquery⟩ | hquery⟩ :=
    s.query_cases text limit now
  · rw [hquery, hq]
    rfl
  · obtain ⟨q', hq', htext, hresult⟩ := h e he
    have hsame : q' = q := by
      refine Query.text_injective hq' (Query.wellFormed_of_read hq) ?_
      rw [← htext, hkey]
    rw [hquery, hq, hresult, hsame, hkey]
    rfl
  · rw [hquery, hq]
    rfl

theorem exists_of_cached {a : QueryAnswer} (h : (s.query text limit now).1 = .ok a)
    (hcached : a.cached = true) : ∃ q, Query.read text = .ok q ∧
      ∃ e ∈ s.index.cache.entries, e.key = ⟨q.text, limit⟩ := by
  obtain ⟨cause, -, hquery⟩ | ⟨q, cache, hq, -, ⟨e, he, hkey, -⟩ | hquery⟩ :=
    s.query_cases text limit now
  · rw [hquery] at h
    cases h
  · exact ⟨q, hq, e, he, hkey⟩
  · rw [hquery] at h
    cases h
    cases hcached

theorem not_forgets_query (s : Session) (now : Nat) (text : String) (limit : Nat) :
    ¬s.Forgets now (.query text limit) := by
  rintro (h | ⟨settings, h⟩ | ⟨report, h⟩) <;> cases h

theorem mem_cache_build {force : Bool} (h : e ∈ (s.build force now).2.index.cache.entries) :
    e ∈ s.index.cache.entries ∧ ∀ report, (s.build force now).1 ≠ .ok report := by
  rcases s.build_cases force now with ⟨cause, hbuild⟩ | ⟨snapshot, report, -, hbuild⟩
  · rw [hbuild, index_cleared] at h
    rw [hbuild]
    exact ⟨h, nofun⟩
  · rw [hbuild] at h
    cases h

theorem mem_cache_step {event : Event} (h : e ∈ (s.step now event).2.index.cache.entries) :
    e ∈ s.index.cache.entries ∧ ¬s.Forgets now event ∨
    ∃ text limit q, event = .query text limit ∧ Query.read text = .ok q ∧
      e = ⟨⟨q.text, limit⟩, q.evaluate s.active.records limit, s.index.store.generation, now⟩ := by
  cases event with
  | edit edit => exact .inl ⟨h, by simp [Forgets, step]⟩
  | build force =>
    obtain ⟨h, hfailed⟩ := mem_cache_build h
    exact .inl ⟨h, by simpa [Forgets, step] using hfailed⟩
  | notify path =>
    -- a notification is an incremental build or does nothing
    by_cases hconcerns : s.concerns path = true
    · have hnotify : s.step now (.notify path) = s.step now (.build false) := by
        rw [step_notify, if_pos hconcerns]
      rw [hnotify, step_build] at h
      obtain ⟨h, hfailed⟩ := mem_cache_build h
      refine .inl ⟨h, ?_⟩
      rintro (hf | ⟨settings, hf⟩ | ⟨report, hf⟩)
      · cases hf
      · cases hf
      · rw [hnotify] at hf
        exact hfailed report (Reply.built.inj hf)
    · have hnotify : s.step now (.notify path) = (.ignored, s) := by
        rw [step_notify, if_neg hconcerns]
      rw [hnotify] at h
      exact .inl ⟨h, by simp [Forgets, hnotify]⟩
  | query text limit =>
    rcases mem_cache_query h with h | ⟨q, hq, he⟩
    · exact .inl ⟨h, not_forgets_query s now text limit⟩
    · exact .inr ⟨text, limit, q, rfl, hq, he⟩
  | statistics groupBy filter => exact .inl ⟨h, by simp [Forgets, step]⟩
  | detail file locator => exact .inl ⟨h, by simp [Forgets, step]⟩
  | usage => exact .inl ⟨h, by simp [Forgets, step]⟩
  | clearCache => cases h
  | restart settings => cases h

theorem active_step {event : Event} (h : ¬s.Forgets now event) :
    (s.step now event).2.active = s.active := by
  rcases s.step_cases now event with ⟨-, force, hstep⟩ | ⟨-, -, hquiet⟩
  · rw [hstep]
    rcases s.build_cases force now with ⟨e, hbuild⟩ | ⟨snapshot, report, -, hbuild⟩
    · rw [hbuild, active, index_cleared, active]
    · rw [hbuild] at hstep
      exact absurd (.inr (.inr ⟨report, congrArg Prod.fst hstep⟩)) h
  · generalize (s.step now event).2 = next at hquiet
    cases hquiet with
    | edited edit => rfl
    | restarted settings => exact absurd (.inr (.inl ⟨settings, rfl⟩)) h
    | answered event cache => rfl

theorem RemembersTruly.step (h : s.RemembersTruly) (now : Nat) (event : Event) :
    (s.step now event).2.RemembersTruly := by
  intro e he
  rcases mem_cache_step he with ⟨he, hkept⟩ | ⟨text, limit, q, rfl, hq, rfl⟩
  · obtain ⟨q, hq, hkey, hresult⟩ := h e he
    exact ⟨q, hq, hkey, by rw [active_step hkept, hresult]⟩
  · refine ⟨q, Query.wellFormed_of_read hq, rfl, ?_⟩
    rw [active_step (not_forgets_query s now text limit)]

theorem RemembersTruly.answer (h : s.RemembersTruly) (now : Nat) (event : Event) :
    (s.step now event).1.selection? = s.evaluation? event := by
  cases event with
  | query text limit => exact congrArg some (h.query text limit now)
  | notify path =>
    rw [Session.step]
    split <;> rfl
  | edit edit => rfl
  | build force => rfl
  | statistics groupBy filter => rfl
  | detail file locator => rfl
  | usage => rfl
  | clearCache => rfl
  | restart settings => rfl

theorem RemembersTruly.answers (h : s.RemembersTruly) (events : List (Nat × Event)) :
    s.answers events = s.evaluations events := by
  induction events generalizing s with
  | nil => rfl
  | cons event events ih =>
    obtain ⟨now, event⟩ := event
    rw [evaluations, ← h.answer now event, ← ih (h.step now event)]
    rw [Session.answers, replies, List.filterMap_cons]
    cases (s.step now event).1.selection? <;> rfl

theorem remembersTruly_start (t : FileTree) (dataHome corpus : String) (settings : Settings) :
    (start t dataHome corpus settings).RemembersTruly := List.forall_mem_nil _

def Retains (s : Session) : List (Nat × Event) → Prop
  | [] => True
  | (now, event) :: events => ¬s.Forgets now event ∧ (s.step now event).2.Retains events

/-- Whether a query with a key is among events, and nothing is forgotten since. -/
def Asked (s : Session) (events : List (Nat × Event)) (key : CacheKey) : Prop :=
  ∃ before now text q after, events = before ++ (now, .query text key.limit) :: after ∧
    Query.read text = .ok q ∧ q.text = key.query ∧
    (s.run (before ++ [(now, .query text key.limit)])).Retains after

theorem retains_concat {events : List (Nat × Event)} {event : Event} (h : s.Retains events)
    (hevent : ¬(s.run events).Forgets now event) : s.Retains (events ++ [(now, event)]) := by
  induction events generalizing s with
  | nil => exact ⟨hevent, trivial⟩
  | cons first events ih => exact ⟨h.1, ih h.2 hevent⟩

theorem Asked.concat {events : List (Nat × Event)} {key : CacheKey} {event : Event}
    (h : s.Asked events key) (hevent : ¬(s.run events).Forgets now event) :
    s.Asked (events ++ [(now, event)]) key := by
  obtain ⟨before, now', text, q, after, rfl, hq, hkey, hretains⟩ := h
  refine ⟨before, now', text, q, after ++ [(now, event)], ?_, hq, hkey, ?_⟩
  · rw [List.append_assoc, List.cons_append]
  · rw [List.append_cons, run_append] at hevent
    exact retains_concat hretains hevent

theorem asked_of_mem_cache (hs : s.index.cache.entries = []) {events : List (Nat × Event)}
    (he : e ∈ (s.run events).index.cache.entries) : s.Asked events e.key := by
  induction events using List.reverseRecOn generalizing e with
  | nil =>
    rw [run, List.foldl_nil, hs] at he
    cases he
  | append_singleton events event ih =>
    obtain ⟨now, event⟩ := event
    rw [run_append] at he
    rcases mem_cache_step he with ⟨he, hkept⟩ | ⟨text, limit, q, rfl, hq, rfl⟩
    · exact (ih he).concat hkept
    · exact ⟨events, now, text, q, [], rfl, hq, rfl, trivial⟩

/-- Queries are answered from the active snapshot, and so alike in two sessions that differ only in
the settings of their caches, in clearing them and in reading alone. What is answered from the cache
has been asked for before, and nothing has made it be forgotten since. -/
theorem cache_transparent {t : FileTree} {dataHome corpus : String} {settings settings' : Settings}
    {events events' : List (Nat × Event)} (hsettings : settings.uncached = settings'.uncached)
    (hevents : events.filterMap Event.uncached = events'.filterMap Event.uncached) :
    let s := start t dataHome corpus settings
    let s' := start t dataHome corpus settings'
    s.answers events = s.evaluations events ∧ s'.answers events' = s.answers events ∧
      ∀ text limit now a, ((s.run events).query text limit now).1 = .ok a → a.cached = true →
        ∃ q, Query.read text = .ok q ∧ s.Asked events ⟨q.text, limit⟩ := by
  intro s s'
  have hs : s.RemembersTruly := remembersTruly_start t dataHome corpus settings
  have hs' : s'.RemembersTruly := remembersTruly_start t dataHome corpus settings'
  have hsame : s.uncached = s'.uncached := by
    rw [uncached_start, hsettings, uncached_start]
  refine ⟨hs.answers events, ?_, fun text limit now a ha hcached ↦ ?_⟩
  · have hself := evaluations_uncached (rfl : s'.uncached = s'.uncached) events'
    rw [hs.answers, hs'.answers, evaluations_uncached hsame, hself, hevents]
  · obtain ⟨q, hq, e, he, hkey⟩ := exists_of_cached ha hcached
    exact ⟨q, hq, hkey ▸ asked_of_mem_cache rfl he⟩

theorem cache_transparent_disabled :
    let t : FileTree := ⟨.directory [("c", .directory [("a.json", .file (Json.Source.ofString
      "\x7b\"tracks\":[\x7b\"actions\":[\x7b\"type\":\"A\"\x7d]\x7d]\x7d") 1)])], []⟩
    let settings := { Settings.default with buildDirectory := some "/x" }
    let settings' := { settings with cacheSize := 0 }
    let events := [(0, .build false), (1, .query "A" 5), (2, .query " A" 5)]
    let events' := [(0, .build false), (5, .query "A" 5), (6, .clearCache), (7, .query " A" 5)]
    let s := start t "/d" "/c" settings
    (start t "/d" "/c" settings').answers events' = s.answers events ∧
      ∃ a, ((s.run events).query "A " 5 3).1 = .ok a ∧ a.cached = true ∧
        ∃ q, Query.read "A " = .ok q ∧ s.Asked events ⟨q.text, 5⟩ := by
  intro t settings settings' events events' s
  have hsettings : settings.uncached = settings'.uncached := rfl
  have hevents : events.filterMap Event.uncached = events'.filterMap Event.uncached := rfl
  have hall := @cache_transparent t "/d" "/c" _ _ _ _ hsettings hevents
  have hcached : ∃ a, ((s.run events).query "A " 5 3).1.toOption = some a ∧ a.cached = true := by
    decide
  obtain ⟨a, ha, hcached⟩ := hcached
  have ha := toOption_eq_some.1 ha
  exact ⟨hall.2.1, a, ha, hcached, hall.2.2 "A " 5 3 a ha hcached⟩

end Session

end ActionCatalog
