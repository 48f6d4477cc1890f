import ActionCatalog.Proofs.Corpus.LinkFree
import ActionCatalog.Proofs.FileTree.Differences
import Mathlib.Data.Finset.Card

namespace ActionCatalog

namespace Node

mutual

def directories : Node → List Location
  | directory entries => [] :: directoriesAll entries
  | _ => []

def directoriesAll : List (String × Node) → List Location
  | [] => []
  | (name, n) :: rest => n.directories.map (name :: ·) ++ directoriesAll rest

end

mutual

theorem length_directories (n : Node) : n.directories.length = n.directoryCount :=
  match n with
  | .file content modified => rfl
  | .link target => rfl
  | .directory entries => by
    rw [directories, directoryCount, List.length_cons, length_directoriesAll entries]

theorem length_directoriesAll (entries : List (String × Node)) :
    (directoriesAll entries).length = directoryCountAll entries :=
  match entries with
  | [] => rfl
  | (name, n) :: rest => by
    rw [directoriesAll, directoryCountAll, List.length_append, List.length_map,
      length_directories n, length_directoriesAll rest]

end

theorem mem_directoriesAll {entries : List (String × Node)} {name : String} {n : Node}
    {l : Location} (he : (name, n) ∈ entries) (hl : l ∈ n.directories) :
    name :: l ∈ directoriesAll entries := by
  induction entries with
  | nil => cases he
  | cons e rest ih =>
    rw [directoriesAll]
    rcases List.mem_cons.1 he with rfl | he
    · exact List.mem_append_left _ (List.mem_map_of_mem hl)
    · exact List.mem_append_right _ (ih he)

theorem mem_directories {n : Node} {l : Location} {entries : List (String × Node)}
    (h : n.at? l = some (.directory entries)) : l ∈ n.directories := by
  induction l generalizing n with
  | nil =>
    rw [Option.some.inj h]
    exact List.mem_cons_self
  | cons name rest ih =>
    obtain ⟨next, hnext, hrest⟩ := Option.bind_eq_some_iff.1 h
    cases n with
    | directory all =>
      exact List.mem_cons_of_mem _ (mem_directoriesAll (Keyed.mem_of_lookup hnext) (ih hrest))
    | file content modified => cases hnext
    | link target => cases hnext

end Node

namespace Corpus

variable {t t' : FileTree} {root path : String} {m : Location} {way way' : List Location}

/-- Whether no difference of two trees is on the way to where relative paths begin, and all of them
are out of the reach of a corpus. -/
structure Apart (t t' : FileTree) (root : String) : Prop where
  workingDirectory : t'.workingDirectory = t.workingDirectory
  start : ∀ l, ¬t.AgreeAt t' l → ¬l <+: t.workingDirectory
  outOfReach : ∀ l, ¬t.AgreeAt t' l → OutOfReach t root l ∧ OutOfReach t' root l

theorem Apart.symm (h : Apart t t' root) : Apart t' t root where
  workingDirectory := h.workingDirectory.symm
  start l hl := h.workingDirectory ▸ h.start l fun hagree ↦ hl hagree.symm
  outOfReach l hl := (h.outOfReach l fun hagree ↦ hl hagree.symm).symm

theorem Apart.resolve_ok (h : Apart t t' root) (hpath : IsBelow t root path)
    (hm : t.resolve path = .ok m) : t'.resolve path = .ok m := by
  obtain ⟨hchecked, hwalk⟩ := FileTree.resolve_eq_ok.1 hm
  have hstart : t.AgreeAt t' (FileTree.origin t.workingDirectory path) := by
    by_contra hdiffer
    refine h.start _ hdiffer ?_
    unfold FileTree.origin
    split
    · exact List.nil_prefix
    · exact List.prefix_refl _
  refine FileTree.resolve_eq_ok.2 ⟨hchecked, ?_⟩
  rw [FileTree.walk, h.workingDirectory]
  refine FileTree.followLinks_agree _ hstart.staysDirectory hwalk fun l hl ↦ ?_
  exact ((h.outOfReach l hl).1 path hpath).1.trans hwalk

theorem Apart.look (h : Apart t t' root) (ht : t.Ordered) (ht' : t'.Ordered)
    (hpath : IsBelow t root path) (hpath' : IsBelow t' root path) :
    (t'.resolve path).toOption = (t.resolve path).toOption ∧
      ∀ m, t.resolve path = .ok m → t'.at? m = t.at? m := by
  refine ⟨Option.ext fun m ↦ ?_, fun m hm ↦ ?_⟩
  · rw [toOption_eq_some, toOption_eq_some]
    exact ⟨h.symm.resolve_ok hpath', h.resolve_ok hpath⟩
  · refine (FileTree.at?_eq_of_agree ht ht' fun l hml ↦ ?_).symm
    by_contra hdiffer
    exact ((h.outOfReach l hdiffer).1 path hpath).2 m hm hml

/-- How many directories are not on the way yet. -/
def remaining (t : FileTree) (way : List Location) : Nat :=
  (t.top.directories.toFinset \ way.toFinset).card

theorem remaining_le (t : FileTree) (way : List Location) :
    remaining t way ≤ t.top.directoryCount := by
  rw [← Node.length_directories]
  exact (Finset.card_le_card Finset.sdiff_subset).trans (List.toFinset_card_le _)

theorem remaining_lt {entries : List (String × Node)} (hm : t.at? m = some (.directory entries))
    (hnew : m ∉ way) (hway : m :: way ⊆ way') : remaining t way' < remaining t way := by
  obtain ⟨hmem, hway⟩ := List.cons_subset.1 hway
  have hfewer : way.toFinset ⊆ way'.toFinset := by
    intro l hl
    exact List.mem_toFinset.2 (hway (List.mem_toFinset.1 hl))
  refine Finset.card_lt_card (Finset.ssubset_iff_subset_ne.2 ⟨?_, fun heq ↦ ?_⟩)
  · exact Finset.sdiff_subset_sdiff (Finset.Subset.refl _) hfewer
  · have hin : m ∈ t.top.directories.toFinset \ way.toFinset := by
      simpa using ⟨Node.mem_directories hm, hnew⟩
    rw [← heq] at hin
    simp [hmem] at hin

section Listing

variable (h : Apart t t' root) (ht : t.Ordered) (ht' : t'.Ordered)

include h ht ht'

abbrev sharedNames (t t' : FileTree) : List String := t.top.names.filter (· ∈ t'.top.names)

omit h ht ht' in
theorem isBelow_shared (root : String) {names : List String} (hnames : names ⊆ sharedNames t t') :
    IsBelow t root (pathOf root names) ∧ IsBelow t' root (pathOf root names) :=
  ⟨.inr ⟨names, fun _ hn ↦ (List.mem_filter.1 (hnames hn)).1, rfl⟩,
    .inr ⟨names, fun _ hn ↦ of_decide_eq_true (List.mem_filter.1 (hnames hn)).2, rfl⟩⟩

omit h ht ht' in
theorem names_shared {n : Node} (hn : t.at? m = some n) (hn' : t'.at? m = some n) :
    n.names ⊆ sharedNames t t' := fun _ hname ↦
  List.mem_filter.2 ⟨Node.names_at? hn hname, decide_eq_true (Node.names_at? hn' hname)⟩

theorem Apart.linkListing_eq {hops hops' : Nat} {way : List Location} {names : List String}
    (hnames : names ⊆ sharedNames t t') (hhops : remaining t way < hops)
    (hhops' : remaining t' way < hops') :
    linkListing t' root hops' way names = linkListing t root hops way names := by
  induction hops generalizing hops' way names with
  | zero => exact absurd hhops (Nat.not_lt_zero _)
  | succ hops ih =>
    obtain _ | hops' := hops'
    · exact absurd hhops' (Nat.not_lt_zero _)
    obtain ⟨hbelow, hbelow'⟩ := isBelow_shared root hnames
    obtain ⟨hresolve, hat⟩ := h.look ht ht' hbelow hbelow'
    rw [linkListing_succ, linkListing_succ, hresolve]
    split
    · rfl
    rename_i m hm
    have hsame := hat m (toOption_eq_some.1 hm)
    rw [hsame]
    split
    · rfl
    · rename_i entries hentries
      split
      · rfl
      rename_i hnew
      refine filesBelow_congr _ _ _ _ (fun way' names' hway hnames' ↦ ?_) hnames
        (names_shared hentries (hsame.trans hentries))
      -- a link to a new directory leaves fewer of them in either tree
      have hfewer := remaining_lt hentries hnew hway
      have hfewer' := remaining_lt (hsame.trans hentries) hnew hway
      exact ih hnames' (by omega) (by omega)
    · rfl

/-- A corpus is listed alike in trees whose differences are out of its reach. -/
theorem Apart.scan_eq : scan t' root = scan t root := by
  obtain ⟨hresolve, hat⟩ := h.look ht ht' (.inl rfl) (.inl rfl)
  rw [Corpus.scan_eq, Corpus.scan_eq, hresolve]
  split
  · rfl
  rename_i m hm
  have hsame := hat m (toOption_eq_some.1 hm)
  rw [hsame]
  split
  · rename_i entries hentries
    have hfiles : allFiles t' root m entries = allFiles t root m entries := by
      refine filesBelow_congr _ _ _ _ (fun way names _ hnames ↦ ?_) (List.nil_subset _)
        (names_shared hentries (hsame.trans hentries))
      exact h.linkListing_eq ht ht' hnames (Nat.lt_succ_of_le (remaining_le t way))
        (Nat.lt_succ_of_le (remaining_le t' way))
    rw [hfiles]
  · rfl

end Listing

structure IsPlainCorpus (t : FileTree) (root : String) (m : Location) : Prop where
  linkFree : t.top.isLinkFree = true
  names : ∀ name ∈ t.top.names, isPlainName name = true
  root_ne : root ≠ ""
  root_last : root.toList.getLast? ≠ some '/'
  root_up : ".." ∉ FileTree.piecesOf root
  resolve : (t.resolve root).toOption = some m
  directory : t.kind? m = some .directory

instance (t : FileTree) (root : String) (m : Location) : Decidable (IsPlainCorpus t root m) :=
  decidable_of_iff (t.top.isLinkFree = true ∧ (∀ name ∈ t.top.names, isPlainName name = true) ∧
    root ≠ "" ∧ root.toList.getLast? ≠ some '/' ∧ ".." ∉ FileTree.piecesOf root ∧
    (t.resolve root).toOption = some m ∧ t.kind? m = some .directory)
    ⟨fun ⟨h₁, h₂, h₃, h₄, h₅, h₆, h₇⟩ ↦ ⟨h₁, h₂, h₃, h₄, h₅, h₆, h₇⟩,
      fun h ↦ ⟨h.1, h.2, h.3, h.4, h.5, h.6, h.7⟩⟩

theorem IsPlainCorpus.outOfReach (h : IsPlainCorpus t root m) {l : Location} (hbelow : ¬m <+: l)
    (habove : ¬l <+: m) : OutOfReach t root l :=
  outOfReach_of_linkFree h.linkFree h.names h.root_ne h.root_last h.root_up
    (toOption_eq_some.1 h.resolve) hbelow habove

theorem apart_of_linkFree (h : IsPlainCorpus t root m) (h' : IsPlainCorpus t' root m)
    (hcorpus : t.at? m = t'.at? m) (hdirectory : t'.workingDirectory = t.workingDirectory)
    (hstart : t.workingDirectory <+: m) : Apart t t' root := by
  have hbelow {l : Location} (hl : m <+: l) : t.AgreeAt t' l := by
    obtain ⟨rest, rfl⟩ := hl
    refine .inl ?_
    rw [FileTree.at?, FileTree.at?, Node.at?_append, Node.at?_append]
    exact congrArg (Option.bind · _) hcorpus
  have habove {l : Location} (hl : l <+: m) : t.AgreeAt t' l :=
    .inr ⟨FileTree.kind?_above h.directory hl, FileTree.kind?_above h'.directory hl⟩
  refine ⟨hdirectory, fun l hl hup ↦ hl (habove (hup.trans hstart)), fun l hl ↦ ?_⟩
  exact ⟨h.outOfReach (fun hm ↦ hl (hbelow hm)) fun hm ↦ hl (habove hm),
    h'.outOfReach (fun hm ↦ hl (hbelow hm)) fun hm ↦ hl (habove hm)⟩

end Corpus

end ActionCatalog
