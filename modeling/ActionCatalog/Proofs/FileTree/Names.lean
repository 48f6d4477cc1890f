import ActionCatalog.Proofs.Corpus.Reach

namespace ActionCatalog

open FileTree (IsFileName IsPlace)

instance (name : String) : Decidable (IsFileName name) :=
  decidable_of_iff
    ((name ≠ "" ∧ name ≠ "." ∧ name ≠ ".." ∧ name.utf8ByteSize ≤ FileTree.maxNameSize) ∧
      '/' ∉ name.toList ∧ '\x00' ∉ name.toList)
    ⟨fun h ↦ ⟨⟨h.1.1, h.1.2.1, h.1.2.2.1, h.1.2.2.2⟩, h.2.1, h.2.2⟩,
      fun h ↦ ⟨⟨h.ne_nothing, h.ne_here, h.ne_up, h.size⟩, h.no_slash, h.no_nul⟩⟩

namespace Node

/-- Whether all entries at whatever depth have proper names. -/
def Named (n : Node) : Prop := ∀ name ∈ n.names, IsFileName name

variable {n m : Node} {l : Location} {entries : List (String × Node)}

instance (n : Node) : Decidable n.Named := inferInstanceAs (Decidable (∀ name ∈ n.names, _))

theorem mem_namesAll {name : String} :
    name ∈ namesAll entries ↔ ∃ e ∈ entries, name = e.1 ∨ name ∈ e.2.names := by
  induction entries with
  | nil => simp [namesAll]
  | cons e rest ih =>
    obtain ⟨k, n⟩ := e
    simp [namesAll, ih, or_assoc]

theorem named_directory :
    (directory entries).Named ↔ ∀ e ∈ entries, IsFileName e.1 ∧ e.2.Named := by
  constructor
  · intro h e he
    refine ⟨h e.1 (mem_namesAll.2 ⟨e, he, .inl rfl⟩), fun name hname ↦ ?_⟩
    exact h name (mem_namesAll.2 ⟨e, he, .inr hname⟩)
  · intro h name hname
    obtain ⟨e, he, rfl | hname⟩ := mem_namesAll.1 hname
    · exact (h e he).1
    · exact (h e he).2 name hname

theorem Named.location (h : n.Named) (hl : (n.at? l).isSome) : ∀ name ∈ l, IsFileName name := by
  induction l generalizing n with
  | nil => exact List.forall_mem_nil _
  | cons key l ih =>
    change ((n.entries.lookup key).bind (at? l)).isSome at hl
    cases hn : n.entries.lookup key with
    | none =>
      rw [hn] at hl
      cases hl
    | some next =>
      rw [hn] at hl
      cases n with
      | directory entries =>
        obtain ⟨hkey, hnext⟩ := named_directory.1 h _ (Keyed.mem_of_lookup hn)
        exact List.forall_mem_cons.2 ⟨hkey, ih hnext hl⟩
      | file content modified => cases hn
      | link target => cases hn

theorem Named.place (h : n.Named) (hl : IsPlace n l) : ∀ name ∈ l.getLast?, IsFileName name := by
  intro name hname
  rcases hl with hl | ⟨directory, last, rfl, hlast⟩
  · exact h.location hl name (List.mem_of_getLast? hname)
  · rw [List.getLast?_concat] at hname
    exact Option.some.inj hname ▸ hlast

theorem Named.put {new : Option Node} (h : n.Named) (hnew : ∀ m ∈ new, m.Named)
    (hl : new.isSome → ∀ name ∈ l.getLast?, IsFileName name) : (n.put new l).Named := by
  induction l generalizing n with
  | nil => cases n <;> exact h
  | cons key rest ih =>
    cases n with
    | file content modified => cases rest <;> exact h
    | link target => cases rest <;> exact h
    | directory entries =>
      have hall := named_directory.1 h
      cases rest with
      | nil =>
        cases new with
        | none => exact named_directory.2 fun e he ↦ hall e (List.mem_filter.1 he).1
        | some m =>
          refine named_directory.2 fun e he ↦ ?_
          rcases Keyed.mem_of_mem_insert he with rfl | he
          · exact ⟨hl rfl key rfl, hnew m rfl⟩
          · exact hall e he
      | cons next rest =>
        refine named_directory.2 fun e he ↦ ?_
        obtain ⟨e', he', rfl⟩ := List.mem_map.1 he
        dsimp only
        split
        · exact ⟨(hall e' he').1, ih (hall e' he').2 hl⟩
        · exact hall e' he'

end Node

theorem FileTree.kept_named : Kept Node.Named where
  file _ _ := List.forall_mem_nil _
  link _ := List.forall_mem_nil _
  empty := List.forall_mem_nil _
  part h hl name hname := h name (Node.names_at? hl hname)
  put {n m l} h hm hl := by
    refine h.put ?_ fun _ ↦ h.place hl
    rintro m' ⟨⟩
    exact hm
  remove {n l} h := by
    refine h.put ?_ ?_
    · rintro m ⟨⟩
    · intro hnone
      cases hnone

end ActionCatalog
