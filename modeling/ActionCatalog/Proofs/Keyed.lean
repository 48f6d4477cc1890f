import ActionCatalog.Basic
import Mathlib.Data.List.Sort
import Mathlib.Data.String.Basic

namespace ActionCatalog.Keyed

variable {α : Type}

def Sorted (pairs : List (String × α)) : Prop := pairs.Pairwise fun p q ↦ p.1 < q.1

variable {key name : String} {f : Option α → α} {pairs : List (String × α)}

theorem mem_of_lookup {a : α} (h : pairs.lookup key = some a) : (key, a) ∈ pairs := by
  obtain ⟨before, after, rfl, -⟩ := List.lookup_eq_some_iff.1 h
  exact List.mem_append_right _ List.mem_cons_self

theorem lookup_cons_eq (k : String) (a : α) (rest : List (String × α)) :
    ((k, a) :: rest).lookup name = if name = k then some a else rest.lookup name := by
  by_cases h : name = k
  · rw [h, List.lookup_cons_self, if_pos rfl]
  · rw [List.lookup_cons, beq_false_of_ne h, if_neg h]

theorem lookup_eq_none (h : ∀ p ∈ pairs, p.1 ≠ name) : pairs.lookup name = none := by
  rw [List.lookup_eq_none_iff]
  intro p hp
  exact bne_iff_ne.2 (h p hp).symm

theorem lookup_of_mem (h : (pairs.map Prod.fst).Nodup) {a : α} (hmem : (key, a) ∈ pairs) :
    pairs.lookup key = some a := by
  induction pairs with
  | nil => cases hmem
  | cons p rest ih =>
    obtain ⟨hfirst, hrest⟩ := List.nodup_cons.1 h
    rcases List.mem_cons.1 hmem with rfl | hmem
    · exact List.lookup_cons_self
    · have hne : key ≠ p.1 := by
        rintro rfl
        exact hfirst (List.mem_map.2 ⟨(p.1, a), hmem, rfl⟩)
      rw [← ih hrest hmem]
      exact (lookup_cons_eq p.1 p.2 rest).trans (if_neg hne)

theorem Sorted.nodup (h : Sorted pairs) : (pairs.map Prod.fst).Nodup :=
  List.pairwise_map.2 (h.imp fun hlt ↦ hlt.ne)

theorem eq_of_mem_iff {pairs' : List (String × α)} (h : Sorted pairs) (h' : Sorted pairs')
    (hsame : ∀ p, p ∈ pairs ↔ p ∈ pairs') : pairs = pairs' := by
  have : Std.Irrefl fun p q : String × α ↦ p.1 < q.1 := ⟨fun p ↦ lt_irrefl p.1⟩
  have : Std.Antisymm fun p q : String × α ↦ p.1 < q.1 :=
    ⟨fun p q hpq hqp ↦ (lt_asymm hpq hqp).elim⟩
  exact List.Pairwise.eq_of_mem_iff h h' hsame

theorem eq_of_lookup {pairs' : List (String × α)} (h : Sorted pairs) (h' : Sorted pairs')
    (hsame : ∀ name, pairs.lookup name = pairs'.lookup name) : pairs = pairs' := by
  refine eq_of_mem_iff h h' fun p ↦ ⟨fun hp ↦ ?_, fun hp ↦ ?_⟩
  · exact mem_of_lookup ((hsame p.1).symm.trans (lookup_of_mem h.nodup hp))
  · exact mem_of_lookup ((hsame p.1).trans (lookup_of_mem h'.nodup hp))

theorem lookup_map (f : α → α) : (pairs.map fun (k, a) ↦
    if k = key then (k, f a) else (k, a)).lookup name =
      if name = key then (pairs.lookup name).map f else pairs.lookup name := by
  induction pairs with
  | nil => simp
  | cons p rest ih =>
    obtain ⟨k, a⟩ := p
    rw [List.map_cons, lookup_cons_eq]
    by_cases hk : k = key
    · rw [if_pos hk, lookup_cons_eq, ih]
      by_cases hname : name = k
      · rw [if_pos hname, if_pos hname, if_pos (hname.trans hk)]
        rfl
      · rw [if_neg hname, if_neg hname]
    · rw [if_neg hk, lookup_cons_eq, ih]
      by_cases hname : name = k
      · rw [if_pos hname, if_pos hname, if_neg fun h ↦ hk (hname ▸ h)]
      · rw [if_neg hname, if_neg hname]

theorem lookup_filter (keep : String → Bool) (hkeep : keep name = true) :
    (pairs.filter fun p ↦ keep p.1).lookup name = pairs.lookup name := by
  induction pairs with
  | nil => rfl
  | cons p rest ih =>
    obtain ⟨k, a⟩ := p
    rw [lookup_cons_eq]
    by_cases hk : keep k = true
    · rw [List.filter_cons_of_pos (by exact hk), lookup_cons_eq, ih]
    · have hne : name ≠ k := by
        rintro rfl
        exact hk hkeep
      rw [List.filter_cons_of_neg (by exact hk), ih, if_neg hne]

theorem lookup_filter_of_not (keep : String → Bool) (hkeep : keep name = false) :
    (pairs.filter fun p ↦ keep p.1).lookup name = none := by
  apply lookup_eq_none
  rintro p hp rfl
  rw [(List.mem_filter.1 hp).2] at hkeep
  cases hkeep

theorem filter_alter (keep : String → Bool) (hkeep : keep key = false) :
    ((alter key f pairs).filter fun p ↦ keep p.1) = pairs.filter fun p ↦ keep p.1 := by
  induction pairs with
  | nil => simp [alter, hkeep]
  | cons p rest ih =>
    obtain ⟨k, a⟩ := p
    rw [alter]
    split
    · exact List.filter_cons_of_neg (by simp [hkeep])
    split
    · rename_i heq
      subst heq
      simp [hkeep]
    · rw [List.filter_cons, List.filter_cons, ih]

theorem lookup_alter (hne : name ≠ key) :
    (alter key f pairs).lookup name = pairs.lookup name := by
  induction pairs with
  | nil => exact (lookup_cons_eq key _ []).trans (if_neg hne)
  | cons p rest ih =>
    obtain ⟨k, a⟩ := p
    rw [alter]
    split
    · rw [lookup_cons_eq, if_neg hne]
    split
    · rename_i heq
      rw [lookup_cons_eq, lookup_cons_eq, if_neg hne, ← heq, if_neg hne]
    · rw [lookup_cons_eq, lookup_cons_eq]
      exact congrArg _ ih

theorem lookup_insert (hne : name ≠ key) {a : α} :
    (insert key a pairs).lookup name = pairs.lookup name := lookup_alter hne

theorem lookup_insert_self {a : α} : (insert key a pairs).lookup key = some a := by
  induction pairs with
  | nil => exact List.lookup_cons_self
  | cons p rest ih =>
    obtain ⟨k, b⟩ := p
    rw [insert, alter]
    split
    · exact List.lookup_cons_self
    split
    · exact List.lookup_cons_self
    · rename_i hne
      rw [List.lookup_cons, beq_false_of_ne hne]
      exact ih

theorem lookup_alter_self (h : Sorted pairs) :
    (alter key f pairs).lookup key = some (f (pairs.lookup key)) := by
  induction pairs with
  | nil => exact List.lookup_cons_self
  | cons p rest ih =>
    obtain ⟨k, a⟩ := p
    obtain ⟨hfirst, hrest⟩ := List.pairwise_cons.1 h
    rw [alter]
    split
    · rename_i hlt
      have hnone : ((k, a) :: rest).lookup key = none := by
        apply lookup_eq_none
        intro p hp
        rcases List.mem_cons.1 hp with rfl | hp
        · exact hlt.ne'
        · exact (hlt.trans (hfirst p hp)).ne'
      rw [hnone, List.lookup_cons_self]
    split
    · rename_i heq
      subst heq
      rw [List.lookup_cons_self, List.lookup_cons_self]
    · rename_i hne
      rw [lookup_cons_eq, lookup_cons_eq, if_neg hne, if_neg hne, ih hrest]

theorem mem_of_mem_alter {p : String × α} (h : p ∈ alter key f pairs) :
    (∃ o, p = (key, f o)) ∨ p ∈ pairs := by
  induction pairs with
  | nil => exact .inl ⟨none, List.mem_singleton.1 h⟩
  | cons q rest ih =>
    obtain ⟨k, a⟩ := q
    rw [alter] at h
    split at h
    · exact (List.mem_cons.1 h).imp_left fun h ↦ ⟨none, h⟩
    split at h
    · exact (List.mem_cons.1 h).imp (fun h ↦ ⟨some a, h⟩) (List.mem_cons_of_mem _)
    · rcases List.mem_cons.1 h with rfl | h
      · exact .inr List.mem_cons_self
      · exact (ih h).imp_right (List.mem_cons_of_mem _)

theorem sorted_alter (h : Sorted pairs) : Sorted (alter key f pairs) := by
  induction pairs with
  | nil => exact List.pairwise_singleton ..
  | cons q rest ih =>
    obtain ⟨k, a⟩ := q
    obtain ⟨hfirst, hrest⟩ := List.pairwise_cons.1 h
    rw [alter]
    split
    · rename_i hlt
      refine List.pairwise_cons.2 ⟨fun p hp ↦ ?_, h⟩
      rcases List.mem_cons.1 hp with rfl | hp
      · exact hlt
      · exact hlt.trans (hfirst p hp)
    rename_i hge
    split
    · rename_i heq
      subst heq
      exact List.pairwise_cons.2 ⟨hfirst, hrest⟩
    · rename_i hne
      refine List.pairwise_cons.2 ⟨fun p hp ↦ ?_, ih hrest⟩
      rcases mem_of_mem_alter hp with ⟨o, rfl⟩ | hp
      · exact lt_of_le_of_ne (not_lt.1 hge) (Ne.symm hne)
      · exact hfirst p hp

/-- In a run of changes, what belongs to a key comes of those that are made to it. -/
theorem lookup_foldl_alter {β : Type} (name : String) (keyOf : β → String)
    (change : β → Option α → α) (bs : List β) (h : Sorted pairs) :
    Sorted (bs.foldl (fun pairs b ↦ alter (keyOf b) (change b) pairs) pairs) ∧
      (bs.foldl (fun pairs b ↦ alter (keyOf b) (change b) pairs) pairs).lookup name =
        (bs.filter (keyOf · = name)).foldl (fun o b ↦ some (change b o)) (pairs.lookup name) := by
  induction bs generalizing pairs with
  | nil => exact ⟨h, rfl⟩
  | cons b bs ih =>
    have hstep : Sorted (alter (keyOf b) (change b) pairs) := sorted_alter h
    obtain ⟨hsorted, hlookup⟩ := ih hstep
    refine ⟨hsorted, ?_⟩
    rw [List.foldl_cons, hlookup]
    by_cases hname : keyOf b = name
    · subst hname
      rw [lookup_alter_self h, List.filter_cons_of_pos (by simp), List.foldl_cons]
    · rw [lookup_alter (Ne.symm hname), List.filter_cons_of_neg (by simpa using hname)]

theorem mem_of_mem_insert {a : α} {p : String × α} (h : p ∈ insert key a pairs) :
    p = (key, a) ∨ p ∈ pairs := by
  rcases mem_of_mem_alter h with ⟨o, hp⟩ | hp
  · exact .inl hp
  · exact .inr hp

theorem sum_alter {w : α → Nat} (hf : ∀ o, w (f o) = o.elim 0 w + 1) (p : String → Bool) :
    (((alter key f pairs).filter fun q ↦ p q.1).map fun q ↦ w q.2).sum =
      ((pairs.filter fun q ↦ p q.1).map fun q ↦ w q.2).sum + if p key then 1 else 0 := by
  induction pairs with
  | nil => cases hp : p key <;> simp [alter, hp, hf]
  | cons q rest ih =>
    obtain ⟨k, a⟩ := q
    rw [alter]
    split
    · cases hp : p key <;> simp [hp, hf, Nat.add_comm]
    split
    · rename_i heq
      subst heq
      cases hp : p key
      · simp [hp]
      · simp only [hp, List.filter_cons_of_pos, List.map_cons, List.sum_cons, hf, if_true,
          Option.elim_some]
        omega
    · cases hp : p k
      · simp [hp, ih]
      · simp only [hp, List.filter_cons_of_pos, List.map_cons, List.sum_cons, ih]
        omega

theorem filter_key (h : Sorted pairs) {a : α} (hmem : (key, a) ∈ pairs) :
    pairs.filter (·.1 = key) = [(key, a)] := by
  induction pairs with
  | nil => cases hmem
  | cons q rest ih =>
    obtain ⟨hfirst, hrest⟩ := List.pairwise_cons.1 h
    rcases List.mem_cons.1 hmem with rfl | hmem
    · have hother : rest.filter (·.1 = key) = [] := by
        refine List.filter_eq_nil_iff.2 fun p hp ↦ ?_
        simpa using (hfirst p hp).ne'
      simp [hother]
    · have hne : q.1 ≠ key := (hfirst _ hmem).ne
      simp [hne, ih hrest hmem]

theorem sum_key (h : Sorted pairs) (w : α → Nat) :
    ((pairs.filter (·.1 = key)).map fun q ↦ w q.2).sum = (pairs.lookup key).elim 0 w := by
  cases hl : pairs.lookup key with
  | some a => simp [filter_key h (mem_of_lookup hl)]
  | none =>
    have hother : pairs.filter (·.1 = key) = [] := by
      refine List.filter_eq_nil_iff.2 fun p hp hkey ↦ ?_
      have hne := List.lookup_eq_none_iff.1 hl p hp
      simp [of_decide_eq_true hkey] at hne
    simp [hother]

/-- A pair whose key comes after all others is put at the end. -/
theorem insert_of_forall_lt {a : α} (h : ∀ p ∈ pairs, p.1 < key) :
    insert key a pairs = pairs ++ [(key, a)] := by
  induction pairs with
  | nil => rfl
  | cons q rest ih =>
    obtain ⟨k, b⟩ := q
    have hlt : k < key := h _ List.mem_cons_self
    rw [insert, alter, if_neg (not_lt_of_gt hlt), if_neg (ne_of_gt hlt)]
    exact congrArg _ (ih fun p hp ↦ h p (List.mem_cons_of_mem _ hp))

theorem lookup_foldl_insert (h : (pairs.map Prod.fst).Nodup) (before : List (String × α)) :
    (pairs.foldl (fun sorted p ↦ insert p.1 p.2 sorted) before).lookup name =
      (pairs.lookup name).or (before.lookup name) := by
  induction pairs generalizing before with
  | nil => rfl
  | cons p rest ih =>
    obtain ⟨k, a⟩ := p
    rw [List.map_cons, List.nodup_cons] at h
    rw [List.foldl_cons, ih h.2, lookup_cons_eq]
    by_cases hname : name = k
    · subst hname
      have hnone : rest.lookup name = none := by
        apply lookup_eq_none
        intro p hp heq
        exact h.1 (List.mem_map.2 ⟨p, hp, heq⟩)
      rw [hnone, lookup_insert_self, if_pos rfl]
      rfl
    · rw [lookup_insert hname, if_neg hname]

theorem foldl_insert (sorted : List (String × α)) (hs : Sorted sorted) :
    Sorted (pairs.foldl (fun sorted p ↦ insert p.1 p.2 sorted) sorted) ∧
      ∀ p ∈ pairs.foldl (fun sorted p ↦ insert p.1 p.2 sorted) sorted, p ∈ sorted ∨ p ∈ pairs := by
  induction pairs generalizing sorted with
  | nil => exact ⟨hs, fun p hp ↦ .inl hp⟩
  | cons q rest ih =>
    obtain ⟨hsorted, hmem⟩ := ih (insert q.1 q.2 sorted) (sorted_alter hs)
    refine ⟨hsorted, fun p hp ↦ ?_⟩
    rcases hmem p hp with hp | hp
    · rcases mem_of_mem_insert hp with rfl | hp
      · exact .inr List.mem_cons_self
      · exact .inl hp
    · exact .inr (List.mem_cons_of_mem _ hp)

theorem sorted_ofList (pairs : List (String × α)) : Sorted (ofList pairs) :=
  (foldl_insert [] .nil).1

theorem mem_of_mem_ofList {p : String × α} (h : p ∈ ofList pairs) : p ∈ pairs :=
  ((foldl_insert [] .nil).2 p h).resolve_left List.not_mem_nil

theorem perm_ofList (h : (pairs.map Prod.fst).Nodup) : (ofList pairs).Perm pairs := by
  apply (List.perm_ext_iff_of_nodup (sorted_ofList pairs).nodup.of_map h.of_map).2
  intro p
  constructor
  · exact mem_of_mem_ofList
  · intro hp
    apply mem_of_lookup
    rw [ofList, lookup_foldl_insert h, lookup_of_mem h hp]
    rfl

theorem ofList_of_sorted (h : Sorted pairs) : ofList pairs = pairs := by
  suffices ∀ before : List (String × α), Sorted (before ++ pairs) →
      pairs.foldl (fun sorted p ↦ insert p.1 p.2 sorted) before = before ++ pairs from this [] h
  clear h
  induction pairs with
  | nil => exact fun before _ ↦ (List.append_nil before).symm
  | cons q rest ih =>
    intro before hs
    have hlast : ∀ p ∈ before, p.1 < q.1 := fun p hp ↦
      (List.pairwise_append.1 hs).2.2 p hp q List.mem_cons_self
    rw [List.append_cons] at hs ⊢
    rw [List.foldl_cons, insert_of_forall_lt hlast]
    exact ih (before ++ [q]) hs

end ActionCatalog.Keyed
