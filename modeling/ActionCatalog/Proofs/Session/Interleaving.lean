import ActionCatalog.Proofs.Query.CanonicalText
import ActionCatalog.Proofs.ResultCache.Entries
import ActionCatalog.Session.Basic
import Mathlib.Logic.Function.Basic

namespace ActionCatalog

namespace Interleaving

inductive Stage
  | holding
  | missed
  | answered (a : QueryAnswer)

structure Client where
  query : Query
  limit : Nat
  snapshot : Snapshot
  generation : Nat
  stage : Stage

structure System where
  store : Store Snapshot
  cache : ResultCache ActionRecord
  clients : Nat → Option Client

/-- One atomic step. A builder swaps and later clears; a cache may be cleared at any other time
as well. -/
inductive Action
  | begin (client : Nat) (text : String) (limit : Nat)
  | lookUp (client now : Nat)
  | remember (client now : Nat)
  | swap (next : Snapshot)
  | clear

def Client.key (c : Client) : CacheKey := ⟨c.query.text, c.limit⟩

def Client.evaluation (c : Client) : Selection ActionRecord :=
  c.query.evaluate c.snapshot.records c.limit

namespace System

def start (first : Snapshot) (capacity lifetime : Nat) : System :=
  ⟨.start first, ⟨capacity, lifetime, [], 0, 0⟩, fun _ ↦ none⟩

def setClient (s : System) (i : Nat) (c : Client) : System :=
  { s with clients := Function.update s.clients i (some c) }

def lookUp (s : System) (i now : Nat) (c : Client) : System :=
  match s.cache.get c.key c.generation now with
  | (some result, cache) =>
    { s with cache }.setClient i { c with stage := .answered ⟨result, true⟩ }
  | (none, cache) => { s with cache }.setClient i { c with stage := .missed }

/-- A client that has found nothing evaluates its query on the snapshot that it holds. -/
def remember (s : System) (i now : Nat) (c : Client) : System :=
  { s with cache := s.cache.insert c.key c.generation now c.evaluation }.setClient i
    { c with stage := .answered ⟨c.evaluation, false⟩ }

def step (s : System) : Action → Option System
  | .begin i text limit =>
    match s.clients i, Query.read text with
    | none, .ok q =>
      some (s.setClient i ⟨q, limit, s.store.current.1, s.store.current.2, .holding⟩)
    | _, _ => none
  | .lookUp i now =>
    match s.clients i with
    | some c =>
      match c.stage with
      | .holding => some (s.lookUp i now c)
      | _ => none
    | none => none
  | .remember i now =>
    match s.clients i with
    | some c =>
      match c.stage with
      | .missed => some (s.remember i now c)
      | _ => none
    | none => none
  | .swap next => some { s with store := (s.store.swap next).2 }
  | .clear => some { s with cache := s.cache.clear }

def run (s : System) : List Action → Option System
  | [] => some s
  | a :: as => (s.step a).bind (run · as)

end System

structure Client.Consistent (history : List Snapshot) (c : Client) : Prop where
  wellFormed : c.query.WellFormed
  held : history[c.generation]? = some c.snapshot
  answer : ∀ a, c.stage = .answered a → a.selection = c.evaluation

/-- A remembered result is that of its key on the snapshot of its generation. -/
def Remembered (history : List Snapshot) (e : CacheEntry ActionRecord) : Prop :=
  ∃ (q : Query) (snapshot : Snapshot), q.WellFormed ∧ e.key.query = q.text ∧
    history[e.generation]? = some snapshot ∧ e.result = q.evaluate snapshot.records e.key.limit

/-- The history lists the snapshots of all generations, the active one last. -/
structure System.Consistent (history : List Snapshot) (s : System) : Prop where
  length : history.length = s.store.generation + 1
  active : history[s.store.generation]? = some s.store.active
  clients : ∀ i c, s.clients i = some c → c.Consistent history
  entries : ∀ e ∈ s.cache.entries, Remembered history e

variable {history : List Snapshot} {s s' : System} {c : Client}

theorem held_append {n : Nat} {snapshot : Snapshot} (h : history[n]? = some snapshot)
    (more : List Snapshot) : (history ++ more)[n]? = some snapshot := by
  rw [List.getElem?_append_left (List.getElem?_eq_some_iff.1 h).1, h]

theorem Client.Consistent.append (h : c.Consistent history) (more : List Snapshot) :
    c.Consistent (history ++ more) :=
  ⟨h.wellFormed, held_append h.held more, h.answer⟩

theorem Remembered.append {e : CacheEntry ActionRecord} (h : Remembered history e)
    (more : List Snapshot) : Remembered (history ++ more) e := by
  obtain ⟨q, snapshot, hq, hkey, hheld, hresult⟩ := h
  exact ⟨q, snapshot, hq, hkey, held_append hheld more, hresult⟩

theorem Remembered.result_eq {e : CacheEntry ActionRecord} (h : Remembered history e)
    (hc : c.Consistent history) (hkey : e.key = c.key) (hgen : e.generation = c.generation) :
    e.result = c.evaluation := by
  obtain ⟨q, snapshot, hq, htext, hheld, hresult⟩ := h
  have hsame : q = c.query :=
    Query.text_injective hq hc.wellFormed (htext.symm.trans (congrArg CacheKey.query hkey))
  have hsnapshot : snapshot = c.snapshot := by
    rw [hgen, hc.held] at hheld
    exact (Option.some.inj hheld).symm
  rw [hresult, hsame, hsnapshot, hkey]
  rfl

theorem Client.Consistent.remembered (hc : c.Consistent history) (now : Nat) :
    Remembered history ⟨c.key, c.evaluation, c.generation, now⟩ :=
  ⟨c.query, c.snapshot, hc.wellFormed, rfl, hc.held, rfl⟩

namespace System

theorem step_cases {a : Action} (hs : s.step a = some s') :
    (∃ i text limit q, a = .begin i text limit ∧ s.clients i = none ∧ Query.read text = .ok q ∧
      s' = s.setClient i ⟨q, limit, s.store.current.1, s.store.current.2, .holding⟩) ∨
    (∃ i now c, a = .lookUp i now ∧ s.clients i = some c ∧ s' = s.lookUp i now c) ∨
    (∃ i now c, a = .remember i now ∧ s.clients i = some c ∧ s' = s.remember i now c) ∨
    (∃ next, a = .swap next ∧ s' = { s with store := (s.store.swap next).2 }) ∨
    (a = .clear ∧ s' = { s with cache := s.cache.clear }) := by
  cases a with
  | begin i text limit =>
    simp only [step] at hs
    split at hs
    · rename_i q hi hq
      exact .inl ⟨i, text, limit, q, rfl, hi, hq, (Option.some.inj hs).symm⟩
    · cases hs
  | lookUp i now =>
    simp only [step] at hs
    split at hs
    · rename_i c hi
      split at hs
      · exact .inr (.inl ⟨i, now, c, rfl, hi, (Option.some.inj hs).symm⟩)
      · cases hs
    · cases hs
  | remember i now =>
    simp only [step] at hs
    split at hs
    · rename_i c hi
      split at hs
      · exact .inr (.inr (.inl ⟨i, now, c, rfl, hi, (Option.some.inj hs).symm⟩))
      · cases hs
    · cases hs
  | swap next => exact .inr (.inr (.inr (.inl ⟨next, rfl, (Option.some.inj hs).symm⟩)))
  | clear => exact .inr (.inr (.inr (.inr ⟨rfl, (Option.some.inj hs).symm⟩)))

theorem start_consistent (first : Snapshot) (capacity lifetime : Nat) :
    (start first capacity lifetime).Consistent [first] where
  length := rfl
  active := rfl
  clients _ _ h := nomatch h
  entries _ h := nomatch h

theorem Consistent.setClient (h : s.Consistent history) {cache : ResultCache ActionRecord}
    (hcache : ∀ e ∈ cache.entries, Remembered history e) (i : Nat) (hc : c.Consistent history) :
    ({ s with cache }.setClient i c).Consistent history where
  length := h.length
  active := h.active
  clients j d hd := by
    by_cases hj : j = i
    · rw [hj] at hd
      obtain rfl : c = d := by simpa [System.setClient] using hd
      exact hc
    · exact h.clients j d (by simpa [System.setClient, hj] using hd)
  entries := hcache

theorem Consistent.lookUp (h : s.Consistent history) (i now : Nat) (hc : c.Consistent history) :
    (s.lookUp i now c).Consistent history := by
  have hcache : ∀ e ∈ (s.cache.get c.key c.generation now).2.entries, Remembered history e :=
    fun e he ↦ h.entries e (ResultCache.mem_of_mem_get he)
  have hfound (result : Selection ActionRecord)
      (hr : (s.cache.get c.key c.generation now).1 = some result) : result = c.evaluation := by
    obtain ⟨e, he, hkey, hgen, rfl⟩ := ResultCache.exists_of_get hr
    exact (h.entries e he).result_eq hc hkey hgen
  unfold System.lookUp
  split
  · rename_i result cache hget
    rw [hget] at hcache hfound
    refine h.setClient hcache i ⟨hc.wellFormed, hc.held, ?_⟩
    rintro a ⟨⟩
    exact hfound result rfl
  · rename_i cache hget
    rw [hget] at hcache
    exact h.setClient hcache i ⟨hc.wellFormed, hc.held, nofun⟩

theorem Consistent.remember (h : s.Consistent history) (i now : Nat) (hc : c.Consistent history) :
    (s.remember i now c).Consistent history := by
  refine h.setClient (fun e he ↦ ?_) i ⟨hc.wellFormed, hc.held, ?_⟩
  · rcases ResultCache.mem_of_mem_insert he with he | rfl
    · exact h.entries e he
    · exact hc.remembered now
  · rintro a ⟨⟩
    rfl

theorem Consistent.swap (h : s.Consistent history) (next : Snapshot) :
    { s with store := (s.store.swap next).2 }.Consistent (history ++ [next]) where
  length := by rw [List.length_append, h.length]; rfl
  active := by
    rw [show (s.store.swap next).2.generation = history.length from h.length.symm]
    exact List.getElem?_concat_length
  clients i c hc := (h.clients i c hc).append [next]
  entries e he := (h.entries e he).append [next]

theorem Consistent.step (h : s.Consistent history) {a : Action} (hs : s.step a = some s') :
    ∃ more, s'.Consistent (history ++ more) := by
  have hsame {s'' : System} (h : s''.Consistent history) :
      ∃ more, s''.Consistent (history ++ more) := ⟨[], (List.append_nil history).symm ▸ h⟩
  obtain ⟨i, text, limit, q, -, -, hq, rfl⟩ | ⟨i, now, c, -, hi, rfl⟩ | ⟨i, now, c, -, hi, rfl⟩ |
    ⟨next, -, rfl⟩ | ⟨-, rfl⟩ := step_cases hs
  · exact hsame (h.setClient h.entries i ⟨Query.wellFormed_of_read hq, h.active, nofun⟩)
  · exact hsame (h.lookUp i now (h.clients i c hi))
  · exact hsame (h.remember i now (h.clients i c hi))
  · exact ⟨[next], h.swap next⟩
  · exact hsame ⟨h.length, h.active, h.clients, nofun⟩

theorem Consistent.run (h : s.Consistent history) {as : List Action} (hr : s.run as = some s') :
    ∃ more, s'.Consistent (history ++ more) := by
  induction as generalizing s history with
  | nil =>
    cases hr
    exact ⟨[], (List.append_nil history).symm ▸ h⟩
  | cons a as ih =>
    obtain ⟨next, hstep, hr⟩ := Option.bind_eq_some_iff.1 hr
    obtain ⟨more, h⟩ := h.step hstep
    obtain ⟨more', h⟩ := ih h hr
    exact ⟨more ++ more', List.append_assoc history more more' ▸ h⟩

theorem setClient_continues {i j : Nat} {d : Client} (hc : s.clients i = some c)
    (hd : s.clients j = some d) (cache : ResultCache ActionRecord) (stage : Stage) :
    ∃ stage', ({ s with cache }.setClient j { d with stage }).clients i =
      some { c with stage := stage' } := by
  by_cases hj : i = j
  · subst hj
    obtain rfl : d = c := Option.some.inj (hd.symm.trans hc)
    exact ⟨stage, by simp [setClient]⟩
  · exact ⟨c.stage, by simpa [setClient, hj] using hc⟩

theorem step_continues {i : Nat} {a : Action} (hs : s.step a = some s')
    (hc : s.clients i = some c) : ∃ stage, s'.clients i = some { c with stage } := by
  obtain ⟨j, text, limit, q, -, hj, -, rfl⟩ | ⟨j, now, d, -, hd, rfl⟩ | ⟨j, now, d, -, hd, rfl⟩ |
    ⟨next, -, rfl⟩ | ⟨-, rfl⟩ := step_cases hs
  · have hne : i ≠ j := by
      rintro rfl
      rw [hc] at hj
      cases hj
    exact ⟨c.stage, by simpa [setClient, hne] using hc⟩
  · unfold System.lookUp
    split <;> exact setClient_continues hc hd _ _
  · exact setClient_continues hc hd _ _
  · exact ⟨c.stage, hc⟩
  · exact ⟨c.stage, hc⟩

theorem run_continues {i : Nat} {as : List Action} (hr : s.run as = some s')
    (hc : s.clients i = some c) : ∃ stage, s'.clients i = some { c with stage } := by
  induction as generalizing s c with
  | nil =>
    cases hr
    exact ⟨c.stage, hc⟩
  | cons a as ih =>
    obtain ⟨next, hstep, hr⟩ := Option.bind_eq_some_iff.1 hr
    obtain ⟨stage, hc⟩ := step_continues hstep hc
    obtain ⟨stage', hc⟩ := ih hr hc
    exact ⟨stage', hc⟩

theorem exists_of_begin {i : Nat} {text : String} {limit : Nat}
    (hs : s.step (.begin i text limit) = some s') : ∃ q, Query.read text = .ok q ∧
      s'.clients i = some ⟨q, limit, s.store.current.1, s.store.current.2, .holding⟩ := by
  obtain ⟨_, _, _, q, ⟨⟩, -, hq, rfl⟩ | ⟨_, _, _, ⟨⟩, _⟩ | ⟨_, _, _, ⟨⟩, _⟩ | ⟨_, ⟨⟩, _⟩ |
    ⟨⟨⟩, _⟩ := step_cases hs
  exact ⟨q, hq, by simp [setClient]⟩

/-- At any two moments of any run, one generation means one snapshot; and if a query begins at the
first of them, then whatever happens until the second, its answer is the evaluation on the snapshot
that was active when it began. -/
theorem run_answers {first : Snapshot} {capacity lifetime : Nat} {as bs : List Action}
    {s₁ s₂ : System} (h₁ : (start first capacity lifetime).run as = some s₁)
    (h₂ : s₁.run bs = some s₂) :
    (s₂.store.current.2 = s₁.store.current.2 → s₂.store.current.1 = s₁.store.current.1) ∧
      ∀ i text limit cs c a, bs = .begin i text limit :: cs → s₂.clients i = some c →
        c.stage = .answered a → ∃ q, Query.read text = .ok q ∧
          a.selection = q.evaluate s₁.store.current.1.records limit := by
  obtain ⟨more, hs₁⟩ := (start_consistent first capacity lifetime).run h₁
  obtain ⟨more', hs₂⟩ := hs₁.run h₂
  refine ⟨fun hgen ↦ ?_, ?_⟩
  · have hactive := held_append hs₁.active more'
    rw [← show s₂.store.generation = s₁.store.generation from hgen, hs₂.active] at hactive
    exact Option.some.inj hactive
  · rintro i text limit cs c a rfl hc ha
    obtain ⟨next, hbegin, hrest⟩ := Option.bind_eq_some_iff.1 h₂
    obtain ⟨q, hq, hclient⟩ := exists_of_begin hbegin
    obtain ⟨stage, hclient⟩ := run_continues hrest hclient
    rw [hc] at hclient
    have hanswer := (hs₂.clients i c hc).answer a ha
    rw [Option.some.inj hclient] at hanswer
    exact ⟨q, hq, hanswer⟩

theorem run_answers_late : ∃ s₁ s₂ c a,
    (start .empty 1 5).run [.begin 0 "" 0, .lookUp 0 0, .swap ⟨[default], [], [], 1⟩] = some s₁ ∧
      s₁.run [.begin 1 "" 0, .remember 0 1, .lookUp 1 2, .clear, .remember 1 3] = some s₂ ∧
      s₂.clients 1 = some c ∧ c.stage = .answered a ∧
      ∃ q, Query.read "" = .ok q ∧ a.selection = q.evaluate s₁.store.active.records 0 := by
  obtain ⟨s₁, s₂, c, a, h₁, h₂, hc, ha⟩ : ∃ s₁ s₂ c a,
      (start .empty 1 5).run [.begin 0 "" 0, .lookUp 0 0, .swap ⟨[default], [], [], 1⟩] = some s₁ ∧
        s₁.run [.begin 1 "" 0, .remember 0 1, .lookUp 1 2, .clear, .remember 1 3] = some s₂ ∧
        s₂.clients 1 = some c ∧ c.stage = .answered a := ⟨_, _, _, _, rfl, rfl, rfl, rfl⟩
  exact ⟨s₁, s₂, c, a, h₁, h₂, hc, ha, (run_answers h₁ h₂).2 1 "" 0 _ c a rfl hc ha⟩

end System

end Interleaving

namespace Session

open Interleaving

/-- Alone with its session, a query takes the steps of one client. -/
theorem query_eq_run (s : Session) {text : String} {q : Query} (hq : Query.read text = .ok q)
    (limit now : Nat) : ∃ as sys c a,
      System.run ⟨s.index.store, s.index.cache, fun _ ↦ none⟩ as = some sys ∧
        sys.clients 0 = some c ∧ c.stage = .answered a ∧
        s.query text limit now = (.ok a, { s with index.cache := sys.cache }) := by
  let alone : System := ⟨s.index.store, s.index.cache, fun _ ↦ none⟩
  let client : Client := ⟨q, limit, s.active, s.index.store.generation, .holding⟩
  have hbegin : alone.step (.begin 0 text limit) = some (alone.setClient 0 client) := by
    simp only [System.step, hq]
    rfl
  have hlook : (alone.setClient 0 client).step (.lookUp 0 now) =
      some ((alone.setClient 0 client).lookUp 0 now client) := rfl
  -- the client finds its result and is done, or misses it and remembers what it evaluates
  rcases hget : s.index.cache.get client.key client.generation now with ⟨_ | result, cache⟩
  · let missed : Client := { client with stage := .missed }
    let looked : System := { alone.setClient 0 client with cache }.setClient 0 missed
    have hmissed : (alone.setClient 0 client).lookUp 0 now client = looked := by
      simp only [System.lookUp, System.setClient, alone, hget, looked, missed]
    refine ⟨[.begin 0 text limit, .lookUp 0 now, .remember 0 now], looked.remember 0 now missed,
      { client with stage := .answered ⟨client.evaluation, false⟩ }, _,
      show (alone.step _).bind _ = _ from ?_, rfl, rfl, ?_⟩
    · simp only [System.run, hbegin, hlook, hmissed, Option.bind_some]
      rfl
    · simp only [query, hq]
      rw [show s.index.cache.get ⟨q.text, limit⟩ s.index.store.current.2 now = _ from hget]
      rfl
  · let answered : Client := { client with stage := .answered ⟨result, true⟩ }
    let looked : System := { alone.setClient 0 client with cache }.setClient 0 answered
    have hanswered : (alone.setClient 0 client).lookUp 0 now client = looked := by
      simp only [System.lookUp, System.setClient, alone, hget, looked, answered]
    refine ⟨[.begin 0 text limit, .lookUp 0 now], looked, answered, _,
      show (alone.step _).bind _ = _ from ?_, rfl, rfl, ?_⟩
    · simp only [System.run, hbegin, hlook, hanswered, Option.bind_some]
    · simp only [query, hq]
      rw [show s.index.cache.get ⟨q.text, limit⟩ s.index.store.current.2 now = _ from hget]
      rfl

/-- A successful build swaps and clears. -/
theorem buildOn_eq_run {s s' : Session} {b : Baseline} {now : Nat} {report : BuildReport}
    (h : s.buildOn b now = (.ok report, s')) (clients : Nat → Option Client) : ∃ snapshot,
      System.run ⟨s.index.store, s.index.cache, clients⟩ [.swap snapshot, .clear] =
        some ⟨s'.index.store, s'.index.cache, clients⟩ := by
  unfold buildOn at h
  split at h
  · cases h
  · rename_i snapshot report' hbuild
    cases h
    exact ⟨snapshot, rfl⟩

end Session

end ActionCatalog
