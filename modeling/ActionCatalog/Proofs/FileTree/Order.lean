import ActionCatalog.Proofs.FileTree.Changes

namespace ActionCatalog

namespace Node

mutual

/-- Whether the entries of all directories are in the order of their names, each once. -/
def Ordered : Node → Prop
  | directory entries => Keyed.Sorted entries ∧ OrderedAll entries
  | _ => True

def OrderedAll : List (String × Node) → Prop
  | [] => True
  | (_, n) :: rest => n.Ordered ∧ OrderedAll rest

end

variable {n m : Node} {entries : List (String × Node)}

theorem orderedAll_iff : OrderedAll entries ↔ ∀ e ∈ entries, e.2.Ordered := by
  induction entries with
  | nil => simp [OrderedAll]
  | cons e rest ih => simp [OrderedAll, ih]

theorem ordered_directory :
    (directory entries).Ordered ↔ Keyed.Sorted entries ∧ ∀ e ∈ entries, e.2.Ordered := by
  rw [Ordered, orderedAll_iff]

theorem Ordered.at? {l : Location} (h : n.Ordered) (hl : n.at? l = some m) : m.Ordered := by
  induction l generalizing n with
  | nil => exact Option.some.inj hl ▸ h
  | cons name rest ih =>
    obtain ⟨next, hnext, hm⟩ := Option.bind_eq_some_iff.1 hl
    cases n with
    | directory entries => exact ih ((ordered_directory.1 h).2 _ (Keyed.mem_of_lookup hnext)) hm
    | file content modified => cases hnext
    | link target => cases hnext

theorem names_map (f : Node → Node) (name : String) (entries : List (String × Node)) :
    (entries.map fun (k, n) ↦ if k = name then (k, f n) else (k, n)).map Prod.fst =
      entries.map Prod.fst := by
  rw [List.map_map]
  exact List.map_congr_left fun e _ ↦ by dsimp only [Function.comp_apply]; split <;> rfl

theorem Ordered.put {new : Option Node} (h : n.Ordered) (hnew : ∀ m ∈ new, m.Ordered)
    (l : Location) : (n.put new l).Ordered := by
  induction l generalizing n with
  | nil => cases n <;> exact h
  | cons name rest ih =>
    cases n with
    | file content modified => cases rest <;> exact h
    | link target => cases rest <;> exact h
    | directory entries =>
      obtain ⟨hsorted, hall⟩ := ordered_directory.1 h
      cases rest with
      | nil =>
        cases new with
        | none =>
          exact ordered_directory.2 ⟨hsorted.filter _, fun e he ↦ hall e (List.mem_filter.1 he).1⟩
        | some m =>
          refine ordered_directory.2 ⟨Keyed.sorted_alter hsorted, fun e he ↦ ?_⟩
          rcases Keyed.mem_of_mem_insert he with rfl | he
          · exact hnew m rfl
          · exact hall e he
      | cons next rest =>
        refine ordered_directory.2 ⟨?_, fun e he ↦ ?_⟩
        · have := List.pairwise_map.2 hsorted
          rw [← names_map (Node.put new (next :: rest)) name] at this
          exact List.pairwise_map.1 this
        · obtain ⟨e', he', rfl⟩ := List.mem_map.1 he
          dsimp only
          split
          · exact ih (hall e' he')
          · exact hall e' he'

end Node

namespace FileTree

def Ordered (t : FileTree) : Prop := t.top.Ordered

theorem kept_ordered : Kept Node.Ordered where
  file _ _ := trivial
  link _ := trivial
  empty := Node.ordered_directory.2 ⟨.nil, List.forall_mem_nil _⟩
  part h hl := h.at? hl
  put {n m l} h hm _ := by
    refine h.put ?_ l
    rintro m' ⟨⟩
    exact hm
  remove {n l} h := by
    refine h.put ?_ l
    rintro m ⟨⟩

end FileTree

end ActionCatalog
