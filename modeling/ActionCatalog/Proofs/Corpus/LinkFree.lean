import ActionCatalog.Proofs.Corpus.Reach

namespace ActionCatalog

namespace Node

mutual

def isLinkFree : Node → Bool
  | file _ _ => true
  | directory entries => allLinkFree entries
  | link _ => false

def allLinkFree : List (String × Node) → Bool
  | [] => true
  | (_, n) :: rest => n.isLinkFree && allLinkFree rest

end

theorem isLinkFree_of_mem {entries : List (String × Node)} (h : allLinkFree entries = true)
    {e : String × Node} (he : e ∈ entries) : e.2.isLinkFree = true := by
  induction entries with
  | nil => cases he
  | cons e' rest ih =>
    obtain ⟨hfirst, hrest⟩ := Bool.and_eq_true_iff.1 h
    rcases List.mem_cons.1 he with rfl | he
    · exact hfirst
    · exact ih hrest he

theorem isLinkFree_at? {n m : Node} {l : Location} (h : n.isLinkFree = true)
    (hm : n.at? l = some m) : m.isLinkFree = true := by
  induction l generalizing n with
  | nil => exact Option.some.inj hm ▸ h
  | cons name rest ih =>
    obtain ⟨next, hnext, hrest⟩ := Option.bind_eq_some_iff.1 hm
    cases n with
    | directory entries => exact ih (isLinkFree_of_mem h (Keyed.mem_of_lookup hnext)) hrest
    | file content modified => cases hnext
    | link target => cases hnext

end Node

namespace FileTree

variable {t : FileTree} {visit : Visit} {links : Nat} {here m : Location} {pieces : List String}

theorem kind?_ne_link (h : t.top.isLinkFree = true) (l : Location) (target : String) :
    t.kind? l ≠ some (.link target) := by
  intro hl
  obtain ⟨n, hn, hkind⟩ := Option.map_eq_some_iff.1 hl
  have := Node.isLinkFree_at? h hn
  cases n with
  | link target => cases this
  | file content modified => cases hkind
  | directory entries => cases hkind

theorem prefix_of_follow {jump : Location → List String → Except FileError Location}
    (h : t.top.isLinkFree = true) (hup : ".." ∉ pieces)
    (hm : follow t visit jump here pieces = .ok m) : here <+: m := by
  induction pieces generalizing here with
  | nil => exact Except.ok.inj hm ▸ List.prefix_refl here
  | cons piece rest ih =>
    obtain ⟨hpiece, hrest⟩ : ".." ≠ piece ∧ ".." ∉ rest := by simpa using hup
    obtain ⟨move, hmoves, hm⟩ := exists_of_follow hm
    cases hmoves with
    | idle => exact ih hrest hm
    | up => exact absurd rfl hpiece
    | enter => exact (List.prefix_append here [piece]).trans (ih hrest (proceed_enter.1 hm).2)
    | jump _ _ hlink => exact absurd hlink (kind?_ne_link h _ _)

theorem follow_congr {visit' : Visit}
    {jump jump' : Location → List String → Except FileError Location}
    (h : t.top.isLinkFree = true) (hup : ".." ∉ pieces)
    (hvisit : ∀ next rest, here <+: next → here ≠ next → visit next rest = visit' next rest) :
    follow t visit jump here pieces = follow t visit' jump' here pieces := by
  induction pieces generalizing here with
  | nil => rfl
  | cons piece rest ih =>
    obtain ⟨hpiece, hrest⟩ : ".." ≠ piece ∧ ".." ∉ rest := by simpa using hup
    have hbelow : here <+: here ++ [piece] := List.prefix_append here [piece]
    have hne : here ≠ here ++ [piece] := by simp
    rw [follow_cons, follow_cons]
    split
    · split
      · exact ih hrest hvisit
      rw [if_neg (Ne.symm hpiece), if_neg (Ne.symm hpiece)]
      split
      · rfl
      split
      · rename_i target htarget
        exact absurd htarget (kind?_ne_link h _ target)
      · rw [hvisit _ _ hbelow hne, ih hrest]
        intro next rest hnext hother
        refine hvisit next rest (hbelow.trans hnext) ?_
        rintro rfl
        simpa using hnext.length_le
      · rfl
    · rfl
    · rfl

/-- A look-up comes past no place that does not lie on its way. -/
theorem follow_avoiding {l : Location}
    {jump jump' : Location → List String → Except FileError Location}
    (h : t.top.isLinkFree = true) (hup : ".." ∉ pieces) (hl : ¬l <+: m)
    (hm : follow t (fun _ _ ↦ true) jump here pieces = .ok m) :
    follow t (avoiding l) jump' here pieces = .ok m := by
  induction pieces generalizing here with
  | nil => exact hm
  | cons piece rest ih =>
    obtain ⟨hpiece, hrest⟩ : ".." ≠ piece ∧ ".." ∉ rest := by simpa using hup
    obtain ⟨move, hmoves, hm⟩ := exists_of_follow hm
    rw [hmoves.follow]
    cases hmoves with
    | idle => exact ih hrest hm
    | up => exact absurd rfl hpiece
    | enter =>
      have hne : here ++ [piece] ≠ l := by
        rintro rfl
        exact hl (prefix_of_follow h hrest hm)
      exact proceed_enter.2 ⟨decide_eq_true hne, ih hrest hm⟩
    | jump _ _ hlink => exact absurd hlink (kind?_ne_link h _ _)

theorem follow_append {jump : Location → List String → Except FileError Location}
    (h : t.top.isLinkFree = true) (hvisit : ∀ next rest rest', visit next rest = visit next rest')
    (more : List String) : follow t visit jump here (pieces ++ more) =
      (follow t visit jump here pieces).bind fun m ↦ follow t visit jump m more := by
  induction pieces generalizing here with
  | nil => rfl
  | cons piece rest ih =>
    rw [List.cons_append, follow_cons, follow_cons]
    split
    · split
      · exact ih
      split
      · exact ih
      split
      · rfl
      split
      · rename_i target htarget
        exact absurd htarget (kind?_ne_link h _ target)
      · rw [hvisit _ (rest ++ more) rest]
        split
        · exact ih
        · rfl
      · rfl
    · rfl
    · rfl

end FileTree

namespace Corpus

variable {t : FileTree} {root path : String} {l m : Location}

def isPlainName (name : String) : Bool :=
  name ≠ "" && name ≠ ".." && !name.toList.contains '/'

theorem isPlainName_iff {name : String} :
    isPlainName name = true ↔ name ≠ "" ∧ name ≠ ".." ∧ '/' ∉ name.toList := by
  simp [isPlainName, and_assoc]

theorem piecesOf_nameText {names : List String} (h : ∀ name ∈ names, isPlainName name = true) :
    FileTree.piecesOf (nameText names) = if names = [] then [""] else names := by
  by_cases hnil : names = []
  · rw [hnil]
    rfl
  · have hslash : ∀ p ∈ names.map String.toList, '/' ∉ p :=
      List.forall_mem_map.2 fun name hname ↦ (isPlainName_iff.1 (h name hname)).2.2
    have hpieces : Text.pieces '/' (nameText names).toList = names.map String.toList := by
      rw [nameText, String.toList_intercalate]
      exact Text.pieces_intercalate hslash (by simpa using hnil)
    rw [if_neg hnil, FileTree.piecesOf, hpieces, List.map_map]
    simp [Function.comp_def]

theorem isAbsolute_nameText {names : List String} (h : ∀ name ∈ names, isPlainName name = true) :
    UnixPath.isAbsolute (nameText names) = false := by
  cases names with
  | nil => rfl
  | cons name rest =>
    obtain ⟨hne, -, hslash⟩ := isPlainName_iff.1 (h _ List.mem_cons_self)
    obtain ⟨c, cs, hcs⟩ := List.exists_cons_of_ne_nil (String.toList_eq_nil_iff.not.2 hne)
    obtain ⟨hc, -⟩ : '/' ≠ c ∧ '/' ∉ cs := by simpa [hcs] using hslash
    have hhead : (nameText (name :: rest)).toList.head? = some c := by
      cases rest with
      | nil => rw [nameText, String.intercalate_singleton, hcs, List.head?_cons]
      | cons next rest =>
        rw [nameText, String.intercalate_cons_cons]
        simp [hcs]
    rw [UnixPath.isAbsolute, hhead]
    simpa using hc.symm

theorem piecesOf_below (hroot : root ≠ "") (hslash : root.toList.getLast? ≠ some '/')
    (hnames : ∀ name ∈ t.top.names, isPlainName name = true) (h : IsBelow t root path) :
    UnixPath.isAbsolute path = UnixPath.isAbsolute root ∧
      ∃ more, ".." ∉ more ∧ FileTree.piecesOf path = FileTree.piecesOf root ++ more := by
  obtain rfl | ⟨names, hsub, rfl⟩ := h
  · exact ⟨rfl, [], List.not_mem_nil, (List.append_nil _).symm⟩
  have hplain : ∀ name ∈ names, isPlainName name = true := fun n hn ↦ hnames n (hsub hn)
  have hpath : pathOf root names = root ++ "/" ++ nameText names := by
    rw [pathOf, UnixPath.join, isAbsolute_nameText hplain, if_neg (by simpa using hroot),
      if_neg hslash]
  refine ⟨?_, if names = [] then [""] else names, ?_, ?_⟩
  · obtain ⟨c, cs, hcs⟩ := List.exists_cons_of_ne_nil (String.toList_eq_nil_iff.not.2 hroot)
    rw [hpath, UnixPath.isAbsolute, UnixPath.isAbsolute]
    simp [hcs]
  · split
    · decide
    · exact fun hup ↦ (isPlainName_iff.1 (hplain _ hup)).2.1 rfl
  · rw [hpath, FileTree.piecesOf_append, piecesOf_nameText hplain]

attribute [local irreducible] Text.pieces in
/-- Without links, what neither lies below the root nor above it is out of its reach. -/
theorem outOfReach_of_linkFree (h : t.top.isLinkFree = true)
    (hnames : ∀ name ∈ t.top.names, isPlainName name = true) (hroot : root ≠ "")
    (hslash : root.toList.getLast? ≠ some '/') (hup : ".." ∉ FileTree.piecesOf root)
    (hm : t.resolve root = .ok m) (hbelow : ¬m <+: l) (habove : ¬l <+: m) :
    OutOfReach t root l := by
  intro path hpath
  obtain ⟨habsolute, more, hmore, hpieces⟩ := piecesOf_below hroot hslash hnames hpath
  have horigin : FileTree.origin t.workingDirectory path =
      FileTree.origin t.workingDirectory root := by
    rw [FileTree.origin, FileTree.origin, habsolute]
  have hwalk : t.walk path (FileTree.piecesOf path) =
      FileTree.follow t (fun _ _ ↦ true) (FileTree.followLinks t (fun _ _ ↦ true) 39) m more := by
    rw [FileTree.walk, hpieces, horigin]
    change FileTree.follow t _ (FileTree.followLinks t (fun _ _ ↦ true) 39) _ _ = _
    rw [FileTree.follow_append h (fun _ _ _ ↦ rfl)]
    exact congrArg (fun r ↦ Except.bind r _) (FileTree.walk_of_resolve hm)
  refine ⟨?_, fun m' hm' hup' ↦ ?_⟩
  · rw [FileTree.Avoids, hwalk, hpieces, horigin]
    change FileTree.follow t _ (FileTree.followLinks t (FileTree.avoiding l) 39) _ _ = _
    rw [FileTree.follow_append h (fun _ _ _ ↦ rfl),
      FileTree.follow_avoiding h hup habove (FileTree.walk_of_resolve hm)]
    refine FileTree.follow_congr h hmore fun next rest hnext hne ↦ ?_
    refine decide_eq_true ?_
    rintro rfl
    exact hbelow hnext
  · have hm' := FileTree.walk_of_resolve hm'
    rw [hwalk] at hm'
    exact hbelow ((FileTree.prefix_of_follow h hmore hm').trans hup')

end Corpus

end ActionCatalog
