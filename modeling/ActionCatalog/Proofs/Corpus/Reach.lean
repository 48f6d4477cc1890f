import ActionCatalog.Corpus.Scan
import ActionCatalog.Proofs.FileTree.Removal

namespace ActionCatalog

namespace Node

mutual

def names : Node → List String
  | directory entries => namesAll entries
  | _ => []

def namesAll : List (String × Node) → List String
  | [] => []
  | (name, n) :: rest => name :: (n.names ++ namesAll rest)

end

theorem names_subset_namesAll {entries : List (String × Node)} {e : String × Node}
    (h : e ∈ entries) : e.2.names ⊆ namesAll entries := by
  induction entries with
  | nil => cases h
  | cons e' rest ih =>
    intro name hname
    rcases List.mem_cons.1 h with rfl | h
    · exact List.mem_cons_of_mem _ (List.mem_append_left _ hname)
    · exact List.mem_cons_of_mem _ (List.mem_append_right _ (ih h hname))

theorem names_at? {n m : Node} {l : Location} (h : n.at? l = some m) : m.names ⊆ n.names := by
  induction l generalizing n with
  | nil => exact Option.some.inj h ▸ List.Subset.refl _
  | cons name rest ih =>
    obtain ⟨next, hnext, hm⟩ := Option.bind_eq_some_iff.1 h
    cases n with
    | directory entries =>
      exact List.Subset.trans (ih hm) (names_subset_namesAll (Keyed.mem_of_lookup hnext))
    | file content modified => cases hnext
    | link target => cases hnext

end Node

namespace Corpus

variable {t : FileTree} {root : String} {l : Location}

def IsBelow (t : FileTree) (root path : String) : Prop :=
  path = root ∨ ∃ names, names ⊆ t.top.names ∧ path = pathOf root names

/-- Whether no path below the root, through links or not, comes past an entry or leads to a
directory that it lies in. -/
def OutOfReach (t : FileTree) (root : String) (l : Location) : Prop :=
  ∀ path, IsBelow t root path → t.Avoids l path ∧ ∀ m, t.resolve path = .ok m → ¬m <+: l

section Congruence

variable {links links' : LinkListing} {known : List String}

mutual

/-- A listing depends on the links that it comes to only, by known names and with no fewer
directories on the way than at its beginning. -/
theorem filesBelow_congr (way : List Location) (here : Location) (names : List String)
    (entries : List (String × Node))
    (hlinks : ∀ way' names, way ⊆ way' → names ⊆ known → links way' names = links' way' names)
    (hnames : names ⊆ known) (hentries : Node.namesAll entries ⊆ known) :
    filesBelow root links way here names entries = filesBelow root links' way here names entries :=
  match entries with
  | [] => by rw [filesBelow, filesBelow]
  | (name, n) :: rest => by
    obtain ⟨hname, hrest⟩ := List.cons_subset.1 hentries
    obtain ⟨hn, hrest⟩ := List.append_subset.1 hrest
    have hlonger : names ++ [name] ⊆ known :=
      List.append_subset.2 ⟨hnames, by simpa using hname⟩
    rw [filesBelow, filesBelow,
      filesAt_congr way (here ++ [name]) (names ++ [name]) n hlinks hlonger hn,
      filesBelow_congr way here names rest hlinks hnames hrest]

theorem filesAt_congr (way : List Location) (here : Location) (names : List String) (n : Node)
    (hlinks : ∀ way' names, way ⊆ way' → names ⊆ known → links way' names = links' way' names)
    (hnames : names ⊆ known) (hn : n.names ⊆ known) :
    filesAt root links way here names n = filesAt root links' way here names n :=
  match n with
  | .file content modified => by rw [filesAt, filesAt]
  | .link target => by
    rw [filesAt, filesAt]
    exact hlinks way names (List.Subset.refl way) hnames
  | .directory entries => by
    have hbelow : ∀ way' names, here :: way ⊆ way' → names ⊆ known →
        links way' names = links' way' names :=
      fun way' names hway ↦ hlinks way' names (List.cons_subset.1 hway).2
    rw [filesAt, filesAt, filesBelow_congr (here :: way) here names entries hbelow hnames hn]

end

end Congruence

theorem eq_match_toOption {x : Except FileError Location} {α : Type} {a b : α} {f : Location → α}
    (h : a = match x with | .error _ => b | .ok l => f l) :
    a = match x.toOption with | none => b | some l => f l := by
  rw [h]
  cases x <;> rfl

attribute [local irreducible] FileTree.resolve in
theorem linkListing_succ (hops : Nat) (way : List Location) (names : List String) :
    linkListing t root (hops + 1) way names =
      match (t.resolve (pathOf root names)).toOption with
      | none => []
      | some l =>
        match t.at? l with
        | some (.file content modified) => [fileAt root names content modified]
        | some (.directory entries) =>
          if l ∈ way then []
          else filesBelow root (linkListing t root hops) (l :: way) l names entries
        | _ => [] :=
  eq_match_toOption rfl

attribute [local irreducible] FileTree.resolve in
theorem scan_eq : scan t root =
    match (t.resolve root).toOption with
    | none => .error (.notFound root)
    | some l =>
      match t.at? l with
      | some (.directory entries) =>
        .ok ((Keyed.ofList (((allFiles t root l entries).filter fun f ↦ isDocument f.name).map
          fun f ↦ (f.name, f))).map Prod.snd)
      | _ => .error (.notFound root) :=
  eq_match_toOption rfl

section Removal

variable (h : OutOfReach t root l) (hl : l ≠ []) (hfile : ∀ n ∈ t.at? l, n.isDirectory = false)

include h hl hfile

theorem look_remove {path : String} (hp : IsBelow t root path) :
    ((t.remove l).resolve path).toOption = (t.resolve path).toOption ∧
      ∀ m, t.resolve path = .ok m → (t.remove l).at? m = t.at? m := by
  obtain ⟨havoids, habove⟩ := h path hp
  refine ⟨FileTree.resolve_remove hl hfile havoids, fun m hm ↦ ?_⟩
  by_cases hbelow : l <+: m
  · have hne : l ≠ m := by
      rintro rfl
      exact habove l hm (List.prefix_refl l)
    rw [FileTree.at?_remove_below hl hbelow, FileTree.at?_below hbelow hfile hne]
  · exact Node.at?_put hbelow (habove m hm)

theorem linkListing_remove (hops : Nat) (way : List Location) (names : List String)
    (hnames : names ⊆ t.top.names) :
    linkListing (t.remove l) root hops way names = linkListing t root hops way names := by
  induction hops generalizing way names with
  | zero => rfl
  | succ hops ih =>
    obtain ⟨hresolve, hat⟩ := look_remove h hl hfile (.inr ⟨names, hnames, rfl⟩)
    rw [linkListing_succ, linkListing_succ, hresolve]
    split
    · rfl
    rename_i m hm
    rw [hat m (toOption_eq_some.1 hm)]
    split
    · rfl
    · rename_i entries hentries
      split
      · rfl
      · exact filesBelow_congr _ _ _ _ (fun way names _ ↦ ih way names) hnames
          (Node.names_at? hentries)
    · rfl

/-- A corpus is listed alike without an entry that is out of its reach. -/
theorem scan_remove (ht : t.Ordered) : scan (t.remove l) root = scan t root := by
  obtain ⟨hresolve, hat⟩ := look_remove h hl hfile (.inl rfl)
  have hcount : (t.remove l).top.directoryCount = t.top.directoryCount :=
    Node.directoryCount_put_none ht hfile
  rw [scan_eq, scan_eq, hresolve]
  split
  · rfl
  rename_i m hm
  rw [hat m (toOption_eq_some.1 hm)]
  split
  · rename_i entries hentries
    have hfiles : allFiles (t.remove l) root m entries = allFiles t root m entries := by
      unfold allFiles
      rw [hcount]
      exact filesBelow_congr _ _ _ _ (fun way names _ ↦ linkListing_remove h hl hfile _ way names)
        (List.nil_subset _) (Node.names_at? hentries)
    rw [hfiles]
  · rfl

end Removal

theorem scan_listed {files : List CorpusFile} (h : scan t root = .ok files) :
    files.Pairwise fun f g ↦ f.name < g.name := by
  unfold scan at h
  split at h
  · cases h
  split at h
  · cases h
    refine List.pairwise_map.2 ((Keyed.sorted_ofList _).imp_of_mem fun hp hq hlt ↦ ?_)
    obtain ⟨f, -, rfl⟩ := List.mem_map.1 (Keyed.mem_of_mem_ofList hp)
    obtain ⟨g, -, rfl⟩ := List.mem_map.1 (Keyed.mem_of_mem_ofList hq)
    exact hlt
  · cases h

end Corpus

end ActionCatalog
