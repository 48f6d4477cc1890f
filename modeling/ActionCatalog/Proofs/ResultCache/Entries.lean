import ActionCatalog.ResultCache
import Mathlib.Data.List.Nodup

namespace ActionCatalog.ResultCache

variable {α : Type} {c : ResultCache α} {key : CacheKey} {generation now : Nat}
  {result : Selection α} {e : CacheEntry α}

@[simp] theorem entries_miss (c : ResultCache α) : c.miss.entries = c.entries := rfl

@[simp] theorem capacity_miss (c : ResultCache α) : c.miss.capacity = c.capacity := rfl

@[simp] theorem lifetime_miss (c : ResultCache α) : c.miss.lifetime = c.lifetime := rfl

theorem mem_of_find (h : c.find? key = some e) : e ∈ c.entries ∧ e.key = key :=
  ⟨List.mem_of_find?_eq_some h, by simpa using List.find?_some h⟩

theorem mem_without : e ∈ c.without key ↔ e ∈ c.entries ∧ e.key ≠ key := by
  simp [without]

/-- All that a look-up can do: nothing to what it does not find or is too new, drop what is stale,
and serve what is of its generation, which becomes the most recent entry. -/
theorem get_cases (c : ResultCache α) (key : CacheKey) (generation now : Nat) :
    ((∀ e, c.find? key = some e → generation < e.generation) ∧
      c.get key generation now = (none, c.miss)) ∨
    (∃ e, c.find? key = some e ∧ e.generation ≤ generation ∧
      (e.generation < generation ∨ c.isExpired now e = true) ∧
      c.get key generation now = (none, { c with entries := c.without key }.miss)) ∨
    ∃ e, c.find? key = some e ∧ e.generation = generation ∧ c.isExpired now e = false ∧
      c.get key generation now =
        (some e.result, { c with entries := e :: c.without key, hits := c.hits + 1 }) := by
  unfold get
  split
  · rename_i hnone
    exact .inl ⟨by simp [hnone], rfl⟩
  rename_i e hfind
  split
  · rename_i hnewer
    exact .inl ⟨by simpa [hfind] using hnewer, rfl⟩
  rename_i hnewer
  split
  · rename_i hstale
    exact .inr (.inl ⟨e, hfind, Nat.not_lt.1 hnewer, hstale, rfl⟩)
  · rename_i hstale
    rw [not_or, Bool.not_eq_true] at hstale
    exact .inr (.inr ⟨e, hfind, by omega, hstale.2, rfl⟩)

/-- Whether a result of a generation may be stored: none of a newer one is held under its key. -/
def Accepts (c : ResultCache α) (key : CacheKey) (generation : Nat) : Prop :=
  ∀ e, c.find? key = some e → e.generation ≤ generation

instance (c : ResultCache α) (key : CacheKey) (generation : Nat) :
    Decidable (c.Accepts key generation) :=
  inferInstanceAs (Decidable (∀ e ∈ c.find? key, _))

theorem any_newer : ((c.find? key).any fun e ↦ generation < e.generation) = true ↔
    ¬c.Accepts key generation := by
  simp [Accepts, Option.any_eq_true]

theorem insert_of_accepts (h : c.Accepts key generation) (now : Nat) (result : Selection α) :
    c.insert key generation now result =
      { c with entries := (⟨key, result, generation, now⟩ :: c.without key).take c.capacity } := by
  unfold insert
  rw [if_neg]
  rwa [any_newer, not_not]

theorem insert_of_not_accepts (h : ¬c.Accepts key generation) (now : Nat) (result : Selection α) :
    c.insert key generation now result = c := by
  unfold insert
  rw [if_pos]
  rwa [any_newer]

theorem mem_of_mem_get (h : e ∈ (c.get key generation now).2.entries) : e ∈ c.entries := by
  obtain ⟨-, hget⟩ | ⟨found, hfind, -, -, hget⟩ | ⟨found, hfind, -, -, hget⟩ :=
    c.get_cases key generation now
  · rwa [hget] at h
  · rw [hget] at h
    exact (mem_without.1 h).1
  · rw [hget] at h
    rcases List.mem_cons.1 h with rfl | h
    · exact (mem_of_find hfind).1
    · exact (mem_without.1 h).1

theorem exists_of_get (h : (c.get key generation now).1 = some result) :
    ∃ e ∈ c.entries, e.key = key ∧ e.generation = generation ∧ e.result = result := by
  obtain ⟨-, hget⟩ | ⟨found, hfind, -, -, hget⟩ | ⟨found, hfind, hgeneration, -, hget⟩ :=
    c.get_cases key generation now
  · rw [hget] at h
    cases h
  · rw [hget] at h
    cases h
  · rw [hget] at h
    obtain ⟨hmem, hkey⟩ := mem_of_find hfind
    exact ⟨found, hmem, hkey, hgeneration, Option.some.inj h⟩

theorem mem_of_mem_insert (h : e ∈ (c.insert key generation now result).entries) :
    e ∈ c.entries ∨ e = ⟨key, result, generation, now⟩ := by
  by_cases haccepts : c.Accepts key generation
  · rw [insert_of_accepts haccepts] at h
    rcases List.mem_cons.1 (List.mem_of_mem_take h) with rfl | h
    · exact .inr rfl
    · exact .inl (mem_without.1 h).1
  · rw [insert_of_not_accepts haccepts] at h
    exact .inl h

/-- Room for all entries, and a key of its own for each. -/
structure Compact (c : ResultCache α) : Prop where
  size : c.size ≤ c.capacity
  distinct : (c.entries.map CacheEntry.key).Nodup

theorem distinct_without (h : c.Compact) (key : CacheKey) :
    ((c.without key).map CacheEntry.key).Nodup :=
  (List.filter_sublist.map _).nodup h.distinct

theorem distinct_cons_without (h : c.Compact) (hkey : e.key = key) :
    ((e :: c.without key).map CacheEntry.key).Nodup := by
  rw [List.map_cons, List.nodup_cons]
  refine ⟨fun hmem ↦ ?_, distinct_without h key⟩
  obtain ⟨e', he', heq⟩ := List.mem_map.1 hmem
  exact (mem_without.1 he').2 (heq.trans hkey)

theorem length_without_lt (h : c.find? key = some e) : (c.without key).length < c.size := by
  obtain ⟨hmem, hkey⟩ := mem_of_find h
  apply List.length_filter_lt_length_iff_exists.2
  exact ⟨e, hmem, by simpa using hkey⟩

theorem Compact.get (h : c.Compact) (key : CacheKey) (generation now : Nat) :
    (c.get key generation now).2.Compact := by
  have hsize := h.size
  obtain ⟨-, hget⟩ | ⟨found, hfind, -, -, hget⟩ | ⟨found, hfind, -, -, hget⟩ :=
    c.get_cases key generation now
  · rw [hget]
    exact ⟨h.size, h.distinct⟩
  · have hless := length_without_lt hfind
    rw [hget]
    exact ⟨by change (c.without key).length ≤ c.capacity; omega, distinct_without h key⟩
  · have hless := length_without_lt hfind
    rw [hget]
    refine ⟨?_, distinct_cons_without h (mem_of_find hfind).2⟩
    change (c.without key).length + 1 ≤ c.capacity
    omega

theorem Compact.insert (h : c.Compact) (key : CacheKey) (generation now : Nat)
    (result : Selection α) : (c.insert key generation now result).Compact := by
  by_cases haccepts : c.Accepts key generation
  · rw [insert_of_accepts haccepts]
    refine ⟨List.length_take_le _ _, ?_⟩
    exact ((List.take_sublist _ _).map _).nodup (distinct_cons_without h rfl)
  · rwa [insert_of_not_accepts haccepts]

end ActionCatalog.ResultCache
