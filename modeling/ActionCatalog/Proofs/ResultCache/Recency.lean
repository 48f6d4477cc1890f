import ActionCatalog.Proofs.ResultCache.Entries
import Mathlib.Data.Finset.Card

namespace ActionCatalog.ResultCache

inductive Call (α : Type)
  | get (key : CacheKey) (generation now : Nat)
  | insert (key : CacheKey) (generation now : Nat) (result : Selection α)
  | clear

namespace Call

variable {α : Type}

def isGet : Call α → Bool
  | get .. => true
  | _ => false

def time? : Call α → Option Nat
  | get _ _ now | insert _ _ now _ => some now
  | clear => none

/-- Whether a call may drop an entry that is as of a generation, other than for want of room. -/
def Drops (key : CacheKey) (generation : Nat) : Call α → Prop
  | get key' generation' _ => key' = key ∧ generation < generation'
  | insert .. => False
  | clear => True

instance (key : CacheKey) (generation : Nat) : DecidablePred (Drops (α := α) key generation)
  | get .. => inferInstanceAs (Decidable (_ ∧ _))
  | insert .. => instDecidableFalse
  | clear => instDecidableTrue

end Call

structure Moment (α : Type) where
  cache : ResultCache α
  call : Call α

variable {α : Type} {c : ResultCache α} {key : CacheKey} {generation now : Nat}
  {result : Selection α} {e : CacheEntry α} {call : Call α} {calls : List (Call α)}
  {m : Moment α} {ms before after : List (Moment α)}

def step (c : ResultCache α) : Call α → ResultCache α
  | .get key generation now => (c.get key generation now).2
  | .insert key generation now result => c.insert key generation now result
  | .clear => c.clear

def run (c : ResultCache α) (calls : List (Call α)) : ResultCache α := calls.foldl step c

def moments (c : ResultCache α) : List (Call α) → List (Moment α)
  | [] => []
  | call :: calls => ⟨c, call⟩ :: (c.step call).moments calls

namespace Moment

def stored? (m : Moment α) : Option (CacheEntry α) :=
  match m.call with
  | .insert key generation now result =>
    if m.cache.Accepts key generation then some ⟨key, result, generation, now⟩ else none
  | _ => none

def touched? (m : Moment α) : Option CacheKey :=
  match m.call with
  | .get key generation now => (m.cache.get key generation now).1.map fun _ ↦ key
  | .insert .. => m.stored?.map CacheEntry.key
  | .clear => none

end Moment

/-- Whether an entry is the last one stored under its key, with the moments since. -/
def StoredLast (ms : List (Moment α)) (e : CacheEntry α) (since : List (Moment α)) : Prop :=
  ∃ before m, ms = before ++ m :: since ∧ m.stored? = some e ∧
    ∀ m' ∈ since, ∀ e' ∈ m'.stored?, e'.key ≠ e.key

/-- Whether a key was touched, with the moments since it was touched last. -/
def TouchedLast (ms : List (Moment α)) (key : CacheKey) (since : List (Moment α)) : Prop :=
  ∃ before m, ms = before ++ m :: since ∧ m.touched? = some key ∧
    ∀ m' ∈ since, m'.touched? ≠ some key

/-- Whether no two of some times are a lifetime apart. -/
def Outlasts (lifetime : Nat) (times : List Nat) : Prop :=
  ∀ s ∈ times, ∀ t ∈ times, t - s < lifetime

instance (lifetime : Nat) (times : List Nat) : Decidable (Outlasts lifetime times) :=
  inferInstanceAs (Decidable (∀ s ∈ times, ∀ t ∈ times, t - s < lifetime))

theorem run_append (c : ResultCache α) (calls calls' : List (Call α)) :
    c.run (calls ++ calls') = (c.run calls).run calls' := List.foldl_append

theorem moments_append (c : ResultCache α) (calls calls' : List (Call α)) :
    c.moments (calls ++ calls') = c.moments calls ++ (c.run calls).moments calls' := by
  induction calls generalizing c with
  | nil => rfl
  | cons call calls ih => exact congrArg _ (ih (c.step call))

theorem map_call_moments (c : ResultCache α) (calls : List (Call α)) :
    (c.moments calls).map Moment.call = calls := by
  induction calls generalizing c with
  | nil => rfl
  | cons call calls ih => exact congrArg _ (ih (c.step call))

theorem moments_split (h : c.moments calls = before ++ m :: after) :
    c.moments (before.map Moment.call) = before ∧ c.run (before.map Moment.call) = m.cache ∧
      (m.cache.step m.call).moments (after.map Moment.call) = after ∧
      calls = before.map Moment.call ++ m.call :: after.map Moment.call := by
  have hcalls : calls = before.map Moment.call ++ m.call :: after.map Moment.call := by
    rw [← map_call_moments c calls, h, List.map_append, List.map_cons]
  have hsplit := h
  rw [hcalls, moments_append, moments] at hsplit
  have hlength : (c.moments (before.map Moment.call)).length = before.length := by
    simpa using congrArg List.length (map_call_moments c (before.map Moment.call))
  obtain ⟨hbefore, hrest⟩ := List.append_inj hsplit hlength
  obtain ⟨hm, hafter⟩ := List.cons.inj hrest
  refine ⟨hbefore, congrArg Moment.cache hm, ?_, hcalls⟩
  rw [← hm]
  exact hafter

structure Continues (c c' : ResultCache α) (lookUps : Nat) : Prop where
  capacity : c'.capacity = c.capacity
  lifetime : c'.lifetime = c.lifetime
  counted : c'.hits + c'.misses = c.hits + c.misses + lookUps

theorem continues_step (c : ResultCache α) (call : Call α) :
    c.Continues (c.step call) (if call.isGet then 1 else 0) := by
  cases call with
  | get key generation now =>
    obtain ⟨-, hget⟩ | ⟨e, -, -, -, hget⟩ | ⟨e, -, -, -, hget⟩ := c.get_cases key generation now <;>
      simp only [step, hget] <;>
      exact ⟨rfl, rfl, by simp only [miss, Call.isGet, if_true]; omega⟩
  | insert key generation now result =>
    by_cases h : c.Accepts key generation
    · simp only [step, insert_of_accepts h]
      exact ⟨rfl, rfl, rfl⟩
    · simp only [step, insert_of_not_accepts h]
      exact ⟨rfl, rfl, rfl⟩
  | clear => exact ⟨rfl, rfl, rfl⟩

theorem continues_run (c : ResultCache α) (calls : List (Call α)) :
    c.Continues (c.run calls) (calls.countP Call.isGet) := by
  induction calls generalizing c with
  | nil => exact ⟨rfl, rfl, rfl⟩
  | cons call calls ih =>
    obtain ⟨hcapacity, hlifetime, hcounted⟩ := continues_step c call
    obtain ⟨hcapacity', hlifetime', hcounted'⟩ := ih (c.step call)
    refine ⟨hcapacity'.trans hcapacity, hlifetime'.trans hlifetime, hcounted'.trans ?_⟩
    rw [List.countP_cons]
    omega

theorem Compact.step (h : c.Compact) (call : Call α) : (c.step call).Compact := by
  cases call with
  | get key generation now => exact h.get key generation now
  | insert key generation now result => exact h.insert key generation now result
  | clear => exact ⟨Nat.zero_le _, List.nodup_nil⟩

theorem Compact.run (h : c.Compact) (calls : List (Call α)) : (c.run calls).Compact := by
  induction calls generalizing c with
  | nil => exact h
  | cons call calls ih => exact ih (h.step call)

theorem StoredLast.append {since : List (Moment α)} (h : StoredLast ms e since)
    (hafter : ∀ m ∈ after, ∀ e' ∈ m.stored?, e'.key ≠ e.key) :
    StoredLast (ms ++ after) e (since ++ after) := by
  obtain ⟨before, first, rfl, hstored, hsince⟩ := h
  refine ⟨before, first, by simp, hstored, fun m' hm' ↦ ?_⟩
  rcases List.mem_append.1 hm' with hm' | hm'
  · exact hsince m' hm'
  · exact hafter m' hm'

theorem StoredLast.unique {e' : CacheEntry α} {since since' : List (Moment α)}
    (h : StoredLast ms e since) (h' : StoredLast ms e' since') (hkey : e.key = e'.key) :
    e = e' ∧ since = since' := by
  obtain ⟨before, m, rfl, hstored, hsince⟩ := h
  obtain ⟨before', m', hsplit, hstored', hsince'⟩ := h'
  rcases List.append_eq_append_iff.1 hsplit with ⟨mid, -, hrest⟩ | ⟨mid, -, hrest⟩
  · cases mid with
    | nil =>
      obtain ⟨rfl, rfl⟩ := List.cons.inj hrest
      exact ⟨Option.some.inj (hstored.symm.trans hstored'), rfl⟩
    | cons _ mid =>
      obtain ⟨-, rfl⟩ := List.cons.inj hrest
      exact absurd hkey.symm (hsince m' (by simp) e' hstored')
  · cases mid with
    | nil =>
      obtain ⟨rfl, rfl⟩ := List.cons.inj hrest
      exact ⟨Option.some.inj (hstored.symm.trans hstored'), rfl⟩
    | cons _ mid =>
      obtain ⟨-, rfl⟩ := List.cons.inj hrest
      exact absurd hkey (hsince' m (by simp) e hstored)

/-- Whether every entry is the last one stored under its key, and nothing was cleared since. -/
def Traced (c : ResultCache α) (ms : List (Moment α)) : Prop :=
  ∀ e ∈ c.entries, ∃ since, StoredLast ms e since ∧ ∀ m ∈ since, m.call ≠ .clear

theorem Traced.kept (h : c.Traced ms) (he : e ∈ c.entries)
    (hkey : ∀ e' ∈ Moment.stored? ⟨c, call⟩, e'.key ≠ e.key) (hclear : call ≠ .clear) :
    ∃ since, StoredLast (ms ++ [⟨c, call⟩]) e since ∧ ∀ m ∈ since, m.call ≠ .clear := by
  obtain ⟨since, hstored, hsince⟩ := h e he
  refine ⟨since ++ [⟨c, call⟩], hstored.append ?_, ?_⟩
  · simpa using hkey
  · simpa [or_imp, forall_and] using ⟨hsince, hclear⟩

theorem Traced.step (h : c.Traced ms) (call : Call α) :
    (c.step call).Traced (ms ++ [⟨c, call⟩]) := by
  intro e he
  cases call with
  | get key generation now =>
    exact h.kept (mem_of_mem_get he) (by simp [Moment.stored?]) (by simp)
  | insert key generation now result =>
    by_cases haccepts : c.Accepts key generation
    · rw [ResultCache.step, insert_of_accepts haccepts] at he
      rcases List.mem_cons.1 (List.mem_of_mem_take he) with rfl | he
      · refine ⟨[], ⟨ms, _, rfl, ?_, by simp⟩, by simp⟩
        simp [Moment.stored?, haccepts]
      · obtain ⟨he, hne⟩ := mem_without.1 he
        refine h.kept he ?_ (by simp)
        simpa [Moment.stored?, haccepts] using hne.symm
    · rw [ResultCache.step, insert_of_not_accepts haccepts] at he
      exact h.kept he (by simp [Moment.stored?, haccepts]) (by simp)
  | clear => cases he

theorem Traced.run (h : c.Traced ms) (calls : List (Call α)) :
    (c.run calls).Traced (ms ++ c.moments calls) := by
  induction calls generalizing c ms with
  | nil => rwa [moments, List.append_nil]
  | cons call calls ih =>
    rw [moments, List.append_cons]
    exact ih (h.step call)

/-- Whether an entry is there, with none but entries of given keys before it. -/
def Recent (entries : List (CacheEntry α)) (e : CacheEntry α) (seen : Finset CacheKey) : Prop :=
  ∃ newer older, entries = newer ++ e :: older ∧ ∀ x ∈ newer, x.key ∈ seen

variable {entries : List (CacheEntry α)} {seen : Finset CacheKey}

theorem Recent.cons (h : Recent entries e seen) {x : CacheEntry α} (hx : x.key ∈ seen) :
    Recent (x :: entries) e seen := by
  obtain ⟨newer, older, rfl, hnewer⟩ := h
  refine ⟨x :: newer, older, rfl, ?_⟩
  simpa using ⟨hx, hnewer⟩

theorem Recent.without (h : Recent c.entries e seen) (hkey : e.key ≠ key) :
    Recent (c.without key) e seen := by
  obtain ⟨newer, older, hentries, hnewer⟩ := h
  refine ⟨newer.filter (·.key ≠ key), older.filter (·.key ≠ key), ?_, ?_⟩
  · simp [ResultCache.without, hentries, hkey]
  · intro x hx
    exact hnewer x (List.mem_of_mem_filter hx)

theorem Recent.take (h : Recent entries e seen) (hnodup : (entries.map CacheEntry.key).Nodup)
    {n : Nat} (hroom : seen.card < n) : Recent (entries.take n) e seen := by
  obtain ⟨newer, older, rfl, hnewer⟩ := h
  have hlength : newer.length ≤ seen.card := by
    rw [List.map_append] at hnodup
    have hnodup := hnodup.of_append_left
    rw [← List.length_map CacheEntry.key, ← List.toFinset_card_of_nodup hnodup]
    apply Finset.card_le_card
    intro k hk
    obtain ⟨x, hx, rfl⟩ := List.mem_map.1 (List.mem_toFinset.1 hk)
    exact hnewer x hx
  refine ⟨newer, older.take (n - newer.length - 1), ?_, hnewer⟩
  rw [List.take_append, List.take_of_length_le (by omega), List.take_cons (by omega)]

theorem Recent.find (h : Recent c.entries e seen) (hkey : e.key ∉ seen) :
    c.find? e.key = some e := by
  obtain ⟨newer, older, hentries, hnewer⟩ := h
  have hnone : newer.find? (fun x ↦ x.key = e.key) = none := by
    rw [List.find?_eq_none]
    intro x hx hsame
    exact hkey (of_decide_eq_true hsame ▸ hnewer x hx)
  simp [find?, hentries, List.find?_append, hnone]

/-- Whether a call comes within the lifetime of an entry and does not drop it. -/
structure Spares (c : ResultCache α) (e : CacheEntry α) (call : Call α) : Prop where
  not_drops : ¬call.Drops e.key e.generation
  fresh : ∀ time ∈ call.time?, time - e.createdAt < c.lifetime

theorem Recent.step (h : Recent c.entries e seen) (hc : c.Compact) (hkey : e.key ∉ seen)
    (hroom : seen.card < c.capacity) (hcall : c.Spares e call)
    (hseen : ∀ key, Moment.touched? ⟨c, call⟩ = some key → key ∈ seen) :
    Recent (c.step call).entries e seen := by
  have hother {key : CacheKey} (hmem : key ∈ seen) : e.key ≠ key := by
    intro hsame
    exact hkey (hsame ▸ hmem)
  cases call with
  | get key generation now =>
    obtain ⟨-, hget⟩ | ⟨found, hfind, -, hstale, hget⟩ | ⟨found, hfind, -, -, hget⟩ :=
      c.get_cases key generation now
    · simpa [ResultCache.step, hget] using h
    · have hne : e.key ≠ key := by
        rintro rfl
        obtain rfl : e = found := Option.some.inj ((h.find hkey).symm.trans hfind)
        rcases hstale with hold | hexpired
        · exact hcall.not_drops ⟨rfl, hold⟩
        · exact absurd (hcall.fresh now rfl) (Nat.not_lt.2 (of_decide_eq_true hexpired))
      simpa [ResultCache.step, hget] using h.without hne
    · have hmem := hseen key (by simp [Moment.touched?, hget])
      have hfound : found.key ∈ seen := by rwa [(mem_of_find hfind).2]
      simpa [ResultCache.step, hget] using (h.without (hother hmem)).cons hfound
  | insert key generation now result =>
    by_cases haccepts : c.Accepts key generation
    · have hmem := hseen key (by simp [Moment.touched?, Moment.stored?, haccepts])
      rw [ResultCache.step, insert_of_accepts haccepts]
      apply Recent.take _ (distinct_cons_without hc rfl) hroom
      exact (h.without (hother hmem)).cons hmem
    · rwa [ResultCache.step, insert_of_not_accepts haccepts]
  | clear => exact absurd trivial hcall.not_drops

theorem Recent.run (h : Recent c.entries e seen) (hc : c.Compact) (hkey : e.key ∉ seen)
    (hroom : seen.card < c.capacity) (hcalls : ∀ call ∈ calls, c.Spares e call)
    (hseen : ∀ m ∈ c.moments calls, ∀ key, m.touched? = some key → key ∈ seen) :
    Recent (c.run calls).entries e seen := by
  induction calls generalizing c with
  | nil => exact h
  | cons call calls ih =>
    obtain ⟨hcapacity, hlifetime, -⟩ := continues_step c call
    obtain ⟨hfirst, hrest⟩ := List.forall_mem_cons.1 hcalls
    obtain ⟨hseen, hseen'⟩ := List.forall_mem_cons.1 hseen
    apply ih (h.step hc hkey hroom hfirst hseen) (hc.step call)
    · rwa [hcapacity]
    · intro call' hcall'
      refine ⟨(hrest call' hcall').not_drops, ?_⟩
      rw [hlifetime]
      exact (hrest call' hcall').fresh
    · exact hseen'

theorem exists_of_touched (h : Moment.touched? ⟨c, call⟩ = some key) (hroom : 0 < c.capacity) :
    ∃ e rest, (c.step call).entries = e :: rest ∧ e.key = key := by
  cases call with
  | get key' generation now =>
    obtain ⟨-, hget⟩ | ⟨found, -, -, -, hget⟩ | ⟨found, hfind, -, -, hget⟩ :=
      c.get_cases key' generation now
    · simp [Moment.touched?, hget] at h
    · simp [Moment.touched?, hget] at h
    · obtain rfl : key' = key := by simpa [Moment.touched?, hget] using h
      exact ⟨found, c.without key', by simp [ResultCache.step, hget], (mem_of_find hfind).2⟩
  | insert key' generation now result =>
    by_cases haccepts : c.Accepts key' generation
    · obtain rfl : key' = key := by simpa [Moment.touched?, Moment.stored?, haccepts] using h
      obtain ⟨n, hn⟩ := Nat.exists_eq_add_of_lt hroom
      refine ⟨⟨key', result, generation, now⟩, (c.without key').take n, ?_, rfl⟩
      rw [ResultCache.step, insert_of_accepts haccepts]
      simp [hn]
    · simp [Moment.touched?, Moment.stored?, haccepts] at h
  | clear => cases h

theorem get_eq_some (hfind : c.find? key = some e) (hgeneration : e.generation = generation)
    (hfresh : now - e.createdAt < c.lifetime) :
    (c.get key generation now).1 = some e.result := by
  have hexpired : c.isExpired now e = false := decide_eq_false (Nat.not_le.2 hfresh)
  simp [get, hfind, hgeneration, hexpired]

theorem touched_of_stored (h : m.stored? = some e) : m.touched? = some e.key := by
  obtain ⟨c, call⟩ := m
  cases call with
  | insert key generation now result => simp [Moment.touched?, h]
  | get key generation now => cases h
  | clear => cases h

theorem time_of_stored (h : m.stored? = some e) : m.call.time? = some e.createdAt := by
  obtain ⟨c, call⟩ := m
  cases call with
  | insert key generation now result =>
    by_cases haccepts : c.Accepts key generation
    · obtain rfl : _ = e := by simpa [Moment.stored?, haccepts] using h
      rfl
    · simp [Moment.stored?, haccepts] at h
  | get key generation now => cases h
  | clear => cases h

theorem mem_times (hm : m ∈ c.moments calls) {time : Nat} (h : m.call.time? = some time) :
    time ∈ calls.filterMap Call.time? := by
  have hcall := List.mem_map_of_mem (f := Moment.call) hm
  rw [map_call_moments] at hcall
  exact List.mem_filterMap.2 ⟨m.call, hcall, h⟩

theorem StoredLast.createdAt_mem {since : List (Moment α)}
    (h : StoredLast (c.moments calls) e since) : e.createdAt ∈ calls.filterMap Call.time? := by
  obtain ⟨before, m, hsplit, hm, -⟩ := h
  apply mem_times (c := c) (m := m)
  · simp [hsplit]
  · exact time_of_stored hm

theorem compact_run (hc : c.entries = []) (calls : List (Call α)) : (c.run calls).Compact := by
  apply Compact.run
  exact ⟨by simp [size, hc], by simp [hc]⟩

theorem traced_run (hc : c.entries = []) (calls : List (Call α)) :
    (c.run calls).Traced (c.moments calls) := by
  have hnone : c.Traced [] := by simp [Traced, hc]
  exact hnone.run calls

theorem exists_of_touchedLast (hc : c.entries = []) {since touchedSince : List (Moment α)}
    (hstored : StoredLast (c.moments calls) e since)
    (htouched : TouchedLast (c.moments calls) e.key touchedSince) (hroom : 0 < c.capacity) :
    ∃ (c' : ResultCache α) (rest : _), c'.entries = e :: rest ∧ c'.Compact ∧
      c'.capacity = c.capacity ∧ c'.lifetime = c.lifetime ∧
      c'.moments (touchedSince.map Moment.call) = touchedSince ∧
      c'.run (touchedSince.map Moment.call) = c.run calls ∧ touchedSince ⊆ since := by
  obtain ⟨before, m, hsplit, hm, hothers⟩ := htouched
  obtain ⟨hbefore, hcache, hafter, hcalls⟩ := moments_split hsplit
  have hcompact := (compact_run hc (before.map Moment.call)).step m.call
  have htraced := (traced_run hc (before.map Moment.call)).step m.call
  have hrun := continues_run c (before.map Moment.call)
  rw [hcache] at hcompact htraced hrun
  rw [hbefore] at htraced
  have hstep := continues_step m.cache m.call
  have hcapacity := hstep.capacity.trans hrun.capacity
  obtain ⟨d, rest, hentries, hkey⟩ := exists_of_touched hm (by rwa [hrun.capacity])
  -- what the touch puts in front is what was stored last, since nothing has been stored since
  obtain ⟨first, hfirst, -⟩ := htraced d (by simp [hentries])
  have hlast : StoredLast (c.moments calls) d (first ++ touchedSince) := by
    rw [hsplit, List.append_cons]
    apply hfirst.append
    intro m' hm' e' he' hsame
    apply hothers m' hm'
    rw [touched_of_stored he', hsame, hkey]
  obtain ⟨rfl, rfl⟩ := hlast.unique hstored hkey
  refine ⟨m.cache.step m.call, rest, hentries, hcompact, hcapacity,
    hstep.lifetime.trans hrun.lifetime, hafter, ?_, List.subset_append_right _ _⟩
  rw [hcalls, run_append, hcache]
  rfl

theorem find_run (hc : c.entries = []) {since touchedSince : List (Moment α)}
    (houtlasts : Outlasts c.lifetime (calls.filterMap Call.time?))
    (hstored : StoredLast (c.moments calls) e since)
    (hdrops : ∀ m ∈ since, ¬m.call.Drops e.key e.generation)
    (htouched : TouchedLast (c.moments calls) e.key touchedSince)
    (hroom : (touchedSince.filterMap Moment.touched?).toFinset.card < c.capacity) :
    (c.run calls).find? e.key = some e := by
  obtain ⟨c', rest, hentries, hcompact, hcapacity, hlifetime, hmoments, hrun, hsub⟩ :=
    exists_of_touchedLast hc hstored htouched (by omega)
  obtain ⟨before, m, hsplit, hm, hothers⟩ := htouched
  have hkey : e.key ∉ (touchedSince.filterMap Moment.touched?).toFinset := by
    simpa using fun m' hm' ↦ hothers m' hm'
  -- from its last touch on, the entry has only keys touched since in front of it
  have hrecent : Recent c'.entries e (touchedSince.filterMap Moment.touched?).toFinset :=
    ⟨[], rest, hentries, List.forall_mem_nil _⟩
  rw [← hrun]
  refine (hrecent.run hcompact hkey (by rwa [hcapacity]) ?_ ?_).find hkey
  · intro call hcall
    obtain ⟨m', hm', rfl⟩ := List.mem_map.1 hcall
    refine ⟨hdrops m' (hsub hm'), fun time htime ↦ ?_⟩
    rw [hlifetime]
    apply houtlasts _ hstored.createdAt_mem
    exact mem_times (c := c) (m := m') (by simp [hsplit, hm']) htime
  · intro m' hm' key hkey'
    rw [hmoments] at hm'
    exact List.mem_toFinset.2 (List.mem_filterMap.2 ⟨m', hm', hkey'⟩)

/-- After any calls, what a look-up serves was stored last under its key, as of its generation, and
not cleared since. What was stored last is served as of its generation, unless the entries have been
cleared, the key has been looked up as of a newer generation, or as many other keys as there is room
for have been touched since the key was. -/
theorem get_run (capacity lifetime : Nat) (calls : List (Call α)) (key : CacheKey)
    (generation now : Nat) :
    let start : ResultCache α := ⟨capacity, lifetime, [], 0, 0⟩
    let c := start.run calls
    let ms := start.moments calls
    (∀ result, (c.get key generation now).1 = some result → ∃ e since, StoredLast ms e since ∧
      e.key = key ∧ e.generation = generation ∧ e.result = result ∧
      ∀ m ∈ since, m.call ≠ .clear) ∧
    (Outlasts lifetime (now :: calls.filterMap Call.time?) →
      ∀ e since touchedSince, StoredLast ms e since → e.key = key → e.generation = generation →
        (∀ m ∈ since, ¬m.call.Drops key generation) →
        TouchedLast ms key touchedSince →
        (touchedSince.filterMap Moment.touched?).toFinset.card < capacity →
        (c.get key generation now).1 = some e.result) ∧
    c.size ≤ capacity ∧ c.hits + c.misses = calls.countP Call.isGet := by
  intro start c ms
  have hcontinues := continues_run start calls
  refine ⟨?_, ?_, ?_, ?_⟩
  · intro result hresult
    obtain ⟨e, he, hkey, hgeneration, hsame⟩ := exists_of_get hresult
    obtain ⟨since, hstored, hclear⟩ := traced_run rfl calls e he
    exact ⟨e, since, hstored, hkey, hgeneration, hsame, hclear⟩
  · rintro houtlasts e since touchedSince hstored rfl rfl hdrops htouched hroom
    have hcalls : Outlasts start.lifetime (calls.filterMap Call.time?) := fun s hs t ht ↦
      houtlasts s (List.mem_cons_of_mem _ hs) t (List.mem_cons_of_mem _ ht)
    apply get_eq_some (find_run rfl hcalls hstored hdrops htouched hroom) rfl
    rw [hcontinues.lifetime]
    exact houtlasts _ (List.mem_cons_of_mem _ hstored.createdAt_mem) now List.mem_cons_self
  · have hsize := (compact_run (c := start) rfl calls).size
    rwa [hcontinues.capacity] at hsize
  · exact hcontinues.counted.trans (Nat.zero_add _)

theorem get_run_touched :
    let key (n : Nat) : CacheKey := ⟨"A", n⟩
    let calls : List (Call Nat) := [.insert (key 1) 4 0 ⟨[7], 1⟩, .insert (key 2) 4 1 ⟨[8], 1⟩,
      .get (key 1) 4 2, .insert (key 3) 5 3 ⟨[9], 1⟩, .get (key 1) 3 4]
    let start : ResultCache Nat := ⟨2, 10, [], 0, 0⟩
    let ms := start.moments calls
    Outlasts 10 (5 :: calls.filterMap Call.time?) ∧
      StoredLast ms ⟨key 1, ⟨[7], 1⟩, 4, 0⟩ (ms.drop 1) ∧ TouchedLast ms (key 1) (ms.drop 3) ∧
      ((start.run calls).get (key 1) 4 5).1 = some ⟨[7], 1⟩ := by
  intro key calls start ms
  have houtlasts : Outlasts 10 (5 :: calls.filterMap Call.time?) := by decide
  have hstored : StoredLast ms ⟨key 1, ⟨[7], 1⟩, 4, 0⟩ (ms.drop 1) :=
    ⟨[], ms.get ⟨0, by decide⟩, rfl, by decide, by decide⟩
  have htouched : TouchedLast ms (key 1) (ms.drop 3) :=
    ⟨ms.take 2, ms.get ⟨2, by decide⟩, rfl, by decide, by decide⟩
  refine ⟨houtlasts, hstored, htouched, ?_⟩
  exact (get_run 2 10 calls (key 1) 4 5).2.1 houtlasts _ _ _ hstored rfl rfl (by decide) htouched
    (by decide)

end ActionCatalog.ResultCache
