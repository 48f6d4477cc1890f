import ActionCatalog.Proofs.FileTree.Names
import ActionCatalog.Proofs.FileTree.Replacement
import ActionCatalog.Proofs.UnixPath

namespace ActionCatalog

open FileTree (IsFileName Visit)

namespace FileTree

variable {t : FileTree} {names d l r : Location} {here : Location} {pieces : List String}
  {root path real name : String}

/-- Whether names lead from the top of a tree to a location, links being followed. -/
def Leads (t : FileTree) (names : List String) (l : Location) : Prop :=
  followLinks t (fun _ _ ↦ true) maxLinks [] ("" :: names) = .ok l

theorem Leads.unique {l' : Location} (h : t.Leads names l) (h' : t.Leads names l') : l = l' :=
  Except.ok.inj (h.symm.trans h')

theorem Leads.isSome (h : t.Leads names l) : (t.at? l).isSome := by
  have htop : (t.at? []).isSome := rfl
  exact isSome_of_followLinks htop h

theorem follow_unrestricted {visit : Visit}
    {jump jump' : Location → List String → Except FileError Location}
    (hjump : ∀ here rest, jump here rest = .ok l → jump' here rest = .ok l)
    (h : follow t visit jump here pieces = .ok l) :
    follow t (fun _ _ ↦ true) jump' here pieces = .ok l := by
  induction pieces generalizing here with
  | nil => exact h
  | cons piece rest ih =>
    obtain ⟨move, hmoves, h⟩ := exists_of_follow h
    rw [hmoves.follow]
    cases move with
    | stay l => exact ih h
    | enter l => exact ih (proceed_enter.1 h).2
    | jump l target => exact hjump _ _ (proceed_jump.1 h).2

theorem followLinks_unrestricted {visit : Visit} {links : Nat}
    (h : followLinks t visit links here pieces = .ok l) :
    followLinks t (fun _ _ ↦ true) links here pieces = .ok l := by
  induction links generalizing here pieces with
  | zero => exact follow_unrestricted (fun _ _ hjump ↦ hjump) h
  | succ links ih => exact follow_unrestricted (fun _ _ ↦ ih) h

theorem isAbsolute_locationText (l : Location) : UnixPath.isAbsolute (locationText l) = true := by
  simp [UnixPath.isAbsolute, locationText]

theorem leads_of_pieces (hnames : ∀ n ∈ names, IsFileName n)
    (h : followLinks t (fun _ _ ↦ true) maxLinks [] (piecesOf (locationText names)) = .ok l) :
    t.Leads names l := by
  rw [UnixPath.piecesOf_locationText hnames] at h
  split at h
  · rename_i hnil
    subst hnil
    change follow t _ (followLinks t _ 39) [] ["", ""] = _ at h
    rw [follow_cons] at h
    split at h
    · exact h
    · cases h
    · cases h
  · exact h

theorem leads_of_resolve (hnames : ∀ n ∈ names, IsFileName n)
    (h : t.resolve (locationText names) = .ok l) : t.Leads names l := by
  have hwalk := walk_of_resolve h
  rw [walk, origin, if_pos (isAbsolute_locationText names)] at hwalk
  exact leads_of_pieces hnames hwalk

theorem exists_of_realPath (h : t.realPath? path = some real) : ∃ l, real = locationText l ∧
    (t.at? l).isSome ∧ followLinks t (fun _ _ ↦ true) maxLinks (origin t.workingDirectory path)
      (piecesOf path) = .ok l := by
  obtain ⟨pieces, hpieces, h⟩ := Option.bind_eq_some_iff.1 h
  obtain ⟨l, hl, h⟩ := Option.bind_eq_some_iff.1 h
  have hnamed : pieces = piecesOf path := by
    have hok := toOption_eq_some.1 hpieces
    unfold namedPieces at hok
    split at hok
    · cases hok
    split at hok
    · cases hok
    · exact (Except.ok.inj hok).symm
  rw [hnamed] at hl
  have hl := followLinks_unrestricted (toOption_eq_some.1 hl)
  exact ⟨l, (Option.some.inj h).symm,
    isSome_of_followLinks (isSome_of_follow_ok (piecesOf_ne_nil path) hl) hl, hl⟩

theorem leads_of_realPath (hnames : ∀ n ∈ names, IsFileName n)
    (h : t.realPath? (locationText names) = some real) :
    ∃ l, real = locationText l ∧ t.Leads names l := by
  obtain ⟨l, hreal, -, hl⟩ := exists_of_realPath h
  rw [origin, if_pos (isAbsolute_locationText names)] at hl
  exact ⟨l, hreal, leads_of_pieces hnames hl⟩

theorem leads_self (ht : t.top.Named) (h : t.realPath? root = some root) :
    ∃ r, root = locationText r ∧ (∀ n ∈ r, IsFileName n) ∧ t.Leads r r := by
  obtain ⟨r, rfl, hr, -⟩ := exists_of_realPath h
  have hnames := ht.location hr
  obtain ⟨r', hr', hleads⟩ := leads_of_realPath hnames h
  have hsame := UnixPath.locationText_injective hnames (ht.location hleads.isSome) hr'
  exact ⟨r, rfl, hnames, hsame ▸ hleads⟩

theorem Leads.entry (h : t.Leads names d) (hd : t.kind? d = some .directory)
    (hname : IsEntryName name) (hlink : ∀ target, t.kind? (d ++ [name]) ≠ some (.link target))
    (hsome : (t.kind? (d ++ [name])).isSome) : t.Leads (names ++ [name]) (d ++ [name]) := by
  have hentry : ∀ jump, follow t (fun _ _ ↦ true) jump d [name] = .ok (d ++ [name]) := by
    intro jump
    rw [follow_entry hname hd hlink, if_pos hsome]
  exact followLinks_join maxLinks hentry h

end FileTree

namespace Corpus

variable {t : FileTree} {r here : Location} {names : List String} {root : String}
  {links : LinkListing} {way : List Location} {f : CorpusFile}

/-- A file under a name of a directory, both of them reached by the names on its path. -/
structure FoundAt (t : FileTree) (r : Location) (f : CorpusFile) (outer : List String)
    (name : String) (d l : Location) : Prop where
  name_eq : f.name = nameText (outer ++ [name])
  names : ∀ n ∈ outer ++ [name], IsFileName n
  outer_leads : t.Leads (r ++ outer) d
  directory : t.kind? d = some .directory
  leads : t.Leads (r ++ (outer ++ [name])) l
  file : t.kind? l = some .file

def Found (t : FileTree) (r : Location) (f : CorpusFile) : Prop :=
  ∃ outer name d l, FoundAt t r f outer name d l

def FindsFiles (t : FileTree) (r : Location) (links : LinkListing) : Prop :=
  ∀ way outer name d f, (∀ n ∈ outer ++ [name], IsFileName n) → t.Leads (r ++ outer) d →
    t.kind? d = some .directory → f ∈ links way (outer ++ [name]) → Found t r f

/-- Times that differ by a multiple of `2 ^ 64` are not told apart, nor are those before 1970. -/
theorem ofFile_eq_iff {content content' : List UInt8} {modified modified' : Int} :
    ChangeMarker.ofFile content modified = .ofFile content' modified' ↔
      modified.toNat % 2 ^ 64 = modified'.toNat % 2 ^ 64 ∧
        content.length % 2 ^ 64 = content'.length % 2 ^ 64 := by
  rw [ChangeMarker.ofFile, ChangeMarker.ofFile, ChangeMarker.mk.injEq, ← UInt64.toNat_inj,
    ← UInt64.toNat_inj]
  simp only [UInt64.toNat_ofNat']

example : ChangeMarker.ofFile [] (2 ^ 64 + 5) = .ofFile [] 5 := by decide

example : ChangeMarker.ofFile [] (-7) = .ofFile [] 0 := by decide

theorem name_fileAt (root : String) (names : List String) (content : List UInt8) (modified : Int) :
    (fileAt root names content modified).name = nameText names := by
  unfold fileAt
  split <;> rfl

theorem exists_of_filesBelow {entries : List (String × Node)}
    (h : f ∈ filesBelow root links way here names entries) :
    ∃ e ∈ entries, f ∈ filesAt root links way (here ++ [e.1]) (names ++ [e.1]) e.2 := by
  induction entries with
  | nil =>
    rw [filesBelow] at h
    cases h
  | cons e rest ih =>
    rw [filesBelow] at h
    rcases List.mem_append.1 h with h | h
    · split at h
      · cases h
      · exact ⟨e, List.mem_cons_self, h⟩
    · obtain ⟨e', he', hf⟩ := ih h
      exact ⟨e', List.mem_cons_of_mem e he', hf⟩

theorem exists_of_names {names : List String} {name : String}
    (h : (scan t root).toOption.map (fun files ↦ files.map CorpusFile.name) = some names)
    (hname : name ∈ names) : ∃ files, scan t root = .ok files ∧ ∃ f ∈ files, f.name = name := by
  obtain ⟨files, hfiles, rfl⟩ := Option.map_eq_some_iff.1 h
  exact ⟨files, toOption_eq_some.1 hfiles, List.mem_map.1 hname⟩

/-- A listing is that of a directory, and has some of the files below it. -/
theorem exists_of_scan {files : List CorpusFile} (hr : ∀ n ∈ r, IsFileName n)
    (hself : t.Leads r r) (hscan : scan t (locationText r) = .ok files) :
    t.resolve (locationText r) = .ok r ∧ ∃ entries, t.at? r = some (.directory entries) ∧
      ∀ f ∈ files, isDocument f.name = true ∧ f ∈ allFiles t (locationText r) r entries := by
  unfold scan at hscan
  split at hscan
  · cases hscan
  rename_i l hl
  obtain rfl := hself.unique (FileTree.leads_of_resolve hr hl)
  split at hscan
  · rename_i entries hentries
    cases hscan
    refine ⟨hl, entries, hentries, fun f hf ↦ ?_⟩
    obtain ⟨p, hp, rfl⟩ := List.mem_map.1 hf
    obtain ⟨g, hg, rfl⟩ := List.mem_map.1 (Keyed.mem_of_mem_ofList hp)
    exact (List.mem_filter.1 hg).symm
  · cases hscan

section Tree

variable (hordered : t.Ordered) (hnamed : t.top.Named)

include hordered hnamed

theorem found_of_filesBelow (hlinks : FindsFiles t r links) {way : List Location}
    {here : Location} {names : List String} {entries : List (String × Node)}
    (hnames : ∀ n ∈ names, IsFileName n) (hleads : t.Leads (r ++ names) here)
    (hhere : t.at? here = some (.directory entries))
    (hf : f ∈ filesBelow root links way here names entries) : Found t r f := by
  -- by recursion into directories; what links add is taken care of by `hlinks`
  obtain ⟨⟨name, n⟩, he, hf⟩ := exists_of_filesBelow hf
  have hsorted : Keyed.Sorted entries := (Node.ordered_directory.1 (hordered.at? hhere)).1
  have hnext : t.at? (here ++ [name]) = some n := by
    rw [FileTree.at?, FileTree.at?_concat name hhere]
    exact Keyed.lookup_of_mem hsorted.nodup he
  have hkind : t.kind? (here ++ [name]) = some n.kind := congrArg (Option.map Node.kind) hnext
  have hdirectory : t.kind? here = some .directory := congrArg (Option.map Node.kind) hhere
  have hname : IsFileName name :=
    hnamed.location (by rw [← FileTree.at?, hnext]; rfl) name (by simp)
  have hlonger : ∀ n ∈ names ++ [name], IsFileName n :=
    List.forall_mem_append.2 ⟨hnames, List.forall_mem_singleton.2 hname⟩
  have hentry (hlink : ∀ target, n.kind ≠ .link target) :
      t.Leads (r ++ (names ++ [name])) (here ++ [name]) := by
    rw [← List.append_assoc]
    refine hleads.entry hdirectory hname.toIsEntryName (fun target htarget ↦ ?_) ?_
    · rw [hkind] at htarget
      exact hlink target (Option.some.inj htarget)
    · rw [hkind]
      rfl
  cases n with
  | file content modified =>
    rw [filesAt, List.mem_singleton] at hf
    have hfile := hentry (by simp [Node.kind])
    exact ⟨names, name, here, _, ⟨by rw [hf, name_fileAt], hlonger, hleads, hdirectory, hfile,
      hkind⟩⟩
  | link target =>
    rw [filesAt] at hf
    exact hlinks way names name here f hlonger hleads hdirectory hf
  | directory inner =>
    rw [filesAt] at hf
    split at hf
    · cases hf
    exact found_of_filesBelow hlinks hlonger (hentry (by simp [Node.kind])) hnext hf
termination_by sizeOf entries
decreasing_by
  have hsize := List.sizeOf_lt_of_mem he
  simp only [Prod.mk.sizeOf_spec, Node.directory.sizeOf_spec] at hsize
  omega

theorem findsFiles_linkListing (hr : ∀ n ∈ r, IsFileName n) (hops : Nat) :
    FindsFiles t r (linkListing t (locationText r) hops) := by
  induction hops with
  | zero =>
    intro way outer name d f _ _ _ hf
    exact absurd hf List.not_mem_nil
  | succ hops ih =>
    intro way outer name d f hnames hleads hd hf
    have hpath : pathOf (locationText r) (outer ++ [name]) =
        locationText (r ++ (outer ++ [name])) := UnixPath.join_locationText hr hnames (by simp)
    rw [linkListing_succ, hpath] at hf
    split at hf
    · cases hf
    rename_i l hl
    have hlocation := FileTree.leads_of_resolve (List.forall_mem_append.2 ⟨hr, hnames⟩)
      (toOption_eq_some.1 hl)
    split at hf
    · rename_i content modified hfile
      rw [List.mem_singleton] at hf
      exact ⟨outer, name, d, l, ⟨by rw [hf, name_fileAt], hnames, hleads, hd, hlocation,
        congrArg (Option.map Node.kind) hfile⟩⟩
    · rename_i entries hentries
      split at hf
      · cases hf
      · exact found_of_filesBelow hordered hnamed ih hnames hlocation hentries hf
    · cases hf

theorem found_of_scan {files : List CorpusFile} (hr : ∀ n ∈ r, IsFileName n) (hself : t.Leads r r)
    (hscan : scan t (locationText r) = .ok files) (hf : f ∈ files) :
    isDocument f.name = true ∧ Found t r f := by
  obtain ⟨-, entries, hentries, hfiles⟩ := exists_of_scan hr hself hscan
  obtain ⟨hdocument, hbelow⟩ := hfiles f hf
  refine ⟨hdocument, ?_⟩
  exact found_of_filesBelow hordered hnamed (findsFiles_linkListing hordered hnamed hr _)
    (List.forall_mem_nil _) (by rwa [List.append_nil]) hentries hbelow

end Tree

end Corpus

end ActionCatalog
