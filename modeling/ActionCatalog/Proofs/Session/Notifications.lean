import ActionCatalog.Proofs.Corpus.Listing
import ActionCatalog.Proofs.Session.Trees

namespace ActionCatalog

open Corpus (FoundAt)
open FileTree (IsFileName piecesOf)
open UnixPath (join)

variable {t : FileTree} {s : Session} {f : CorpusFile} {outer : List String} {name : String}
  {r d l : Location}

theorem FileTree.Leads.below {more : List String} (hfree : t.top.isLinkFree = true)
    (hself : t.Leads r r) (hmore : ∀ n ∈ more, IsFileName n) (h : t.Leads (r ++ more) l) :
    r <+: l := by
  have hsplit : FileTree.follow t (fun _ _ ↦ true) (FileTree.followLinks t (fun _ _ ↦ true) 39) []
      (("" :: r) ++ more) = .ok l := h
  rw [FileTree.follow_append hfree fun _ _ _ ↦ rfl] at hsplit
  have hself : FileTree.follow t (fun _ _ ↦ true) (FileTree.followLinks t (fun _ _ ↦ true) 39) []
      ("" :: r) = .ok r := hself
  rw [hself] at hsplit
  exact FileTree.prefix_of_follow hfree (fun hup ↦ (hmore _ hup).ne_up rfl) hsplit

namespace Corpus.FoundAt

variable (h : FoundAt t r f outer name d l)

include h

theorem ne_directory (hdirectory : t.kind? r = some .directory) : r ≠ l := by
  rintro rfl
  have hfile := h.file
  rw [hdirectory] at hfile
  cases hfile

variable (hr : ∀ n ∈ r, IsFileName n)

include hr

theorem path_names : ∀ n ∈ (r ++ outer) ++ [name], IsFileName n := by
  rw [List.append_assoc]
  exact List.forall_mem_append.2 ⟨hr, h.names⟩

theorem join_name : join (locationText r) f.name = locationText ((r ++ outer) ++ [name]) := by
  rw [h.name_eq, UnixPath.join_locationText hr h.names (by simp), List.append_assoc]

theorem isDocument_path : isDocument (join (locationText r) f.name) = isDocument f.name := by
  rw [h.join_name hr, h.name_eq, isDocument, isDocument, UnixPath.extension?, UnixPath.extension?,
    UnixPath.fileName_locationText (h.path_names hr), UnixPath.fileName_nameText h.names]

theorem pieces_path :
    piecesOf (join (locationText r) f.name) = ("" :: (r ++ outer)) ++ [name] := by
  rw [h.join_name hr, UnixPath.piecesOf_locationText (h.path_names hr), if_neg (by simp),
    List.cons_append]

theorem walk_path : t.walk (join (locationText r) f.name)
      (piecesOf (join (locationText r) f.name)).dropLast = .ok d ∧
    t.walk (join (locationText r) f.name) (piecesOf (join (locationText r) f.name)) = .ok l := by
  have habsolute : UnixPath.isAbsolute (join (locationText r) f.name) = true :=
    h.join_name hr ▸ FileTree.isAbsolute_locationText _
  have hleads := h.leads
  rw [← List.append_assoc] at hleads
  rw [FileTree.walk, FileTree.origin, if_pos habsolute, h.pieces_path hr, List.dropLast_concat]
  exact ⟨h.outer_leads, hleads⟩

theorem realPath {real : String} (hreal : t.realPath? (join (locationText r) f.name) = some real) :
    real = locationText l := by
  rw [h.join_name hr] at hreal
  obtain ⟨l', hl', hleads⟩ := FileTree.leads_of_realPath (h.path_names hr) hreal
  rw [List.append_assoc] at hleads
  rw [hl', hleads.unique h.leads]

/-- A change of the file is put down to where the file is. If no path can tell, it is put down to
the entry in its directory or to the path as it is. -/
theorem changedPath_cases (ht : t.top.Named) :
    ∃ m, Session.changedPath t (join (locationText r) f.name) = locationText m ∧
      (m = l ∨ m = d ++ [name] ∨ m = (r ++ outer) ++ [name]) := by
  unfold Session.changedPath
  cases hreal : t.realPath? (join (locationText r) f.name) with
  | some real => exact ⟨l, h.realPath hr hreal, .inl rfl⟩
  | none =>
    have hnames := h.path_names hr
    rw [h.join_name hr, UnixPath.parent_locationText hnames, UnixPath.fileName_locationText hnames,
      Option.bind_some]
    cases hparent : t.realPath? (locationText (r ++ outer)) with
    | none => exact ⟨_, rfl, .inr (.inr rfl)⟩
    | some real =>
      have houter : ∀ n ∈ r ++ outer, IsFileName n := (List.forall_mem_append.1 hnames).1
      obtain ⟨d', rfl, hleads⟩ := FileTree.leads_of_realPath houter hparent
      obtain rfl := hleads.unique h.outer_leads
      have hname : ∀ n ∈ [name], IsFileName n := (List.forall_mem_append.1 hnames).2
      have hjoin := UnixPath.join_locationText (ht.location hleads.isSome) hname (by simp)
      rw [Corpus.nameText, String.intercalate_singleton] at hjoin
      exact ⟨_, hjoin, .inr (.inl rfl)⟩

end Corpus.FoundAt

namespace Session

theorem concerns_iff {m : Location} {path : String} (hroot : s.index.root = locationText r)
    (hr : ∀ n ∈ r, IsFileName n) (hm : ∀ n ∈ m, IsFileName n)
    (hdocument : Corpus.isDocument path = true) (hne : r ≠ m)
    (hchanged : changedPath s.tree path = locationText m) : s.concerns path = true ↔ r <+: m := by
  rw [concerns, hdocument, Bool.true_and, hroot, hchanged, UnixPath.isSome_relativeName hr hm]
  exact and_iff_left hne

section Found

variable (hnamed : s.tree.top.Named) (hroot : s.index.root = locationText r)
  (hr : ∀ n ∈ r, IsFileName n) (hdirectory : s.tree.kind? r = some .directory)
  (hdocument : Corpus.isDocument f.name = true) (h : FoundAt s.tree r f outer name d l)

include hroot hr hdocument h

theorem isDocument_join : Corpus.isDocument (join s.index.root f.name) = true := by
  rw [hroot]
  exact (h.isDocument_path hr).trans hdocument

include hnamed hdirectory

theorem notify_within (hd : r <+: d) (hl : r <+: l) (now : Nat) :
    s.step now (.notify (join s.index.root f.name)) = s.step now (.build false) := by
  have hpath := isDocument_join hroot hr hdocument h
  have hlong : ∀ more : Location, r ≠ r ++ more ++ [name] := by
    intro more hsame
    simp at hsame
  have hconcerns : s.concerns (join s.index.root f.name) = true := by
    obtain ⟨m, hm, hcases⟩ := h.changedPath_cases hr hnamed
    rw [← hroot] at hm
    rcases hcases with rfl | rfl | rfl
    · have hnames := hnamed.location h.leads.isSome
      exact (concerns_iff hroot hr hnames hpath (h.ne_directory hdirectory) hm).2 hl
    · obtain ⟨more, rfl⟩ := hd
      have hnames : ∀ n ∈ (r ++ more) ++ [name], IsFileName n := List.forall_mem_append.2
        ⟨hnamed.location h.outer_leads.isSome, (List.forall_mem_append.1 h.names).2⟩
      refine (concerns_iff hroot hr hnames hpath (hlong more) hm).2 ?_
      rw [List.append_assoc]
      exact List.prefix_append _ _
    · refine (concerns_iff hroot hr (h.path_names hr) hpath (hlong outer) hm).2 ?_
      rw [List.append_assoc]
      exact List.prefix_append _ _
  rw [step_notify, if_pos hconcerns]

theorem notify_real {real : String}
    (hreal : s.tree.realPath? (join s.index.root f.name) = some real) (now : Nat) :
    s.step now (.notify (join s.index.root f.name)) =
      if r <+: l then s.step now (.build false) else (.ignored, s) := by
  have hpath := isDocument_join hroot hr hdocument h
  have hlocation : real = locationText l := h.realPath hr (by rwa [hroot] at hreal)
  have hchanged : changedPath s.tree (join s.index.root f.name) = locationText l := by
    rw [changedPath, hreal]
    exact hlocation
  have hnames := hnamed.location h.leads.isSome
  rw [step_notify]
  exact if_congr (concerns_iff hroot hr hnames hpath (h.ne_directory hdirectory) hchanged) rfl rfl

end Found

/-- After any run, the change of a listed file does what a build does, unless the path of the file
leads out of the corpus: then it is ignored. That takes a link. -/
theorem notify_listed {t : FileTree} {dataHome corpus : String} {settings : Settings}
    {files : List CorpusFile} (hordered : t.Ordered) (hnamed : t.top.Named)
    (events : List (Nat × Event)) (now : Nat) :
    let s := (start t dataHome corpus settings).run events
    let path := join s.index.root f.name
    s.tree.realPath? s.index.root = some s.index.root →
    Corpus.scan s.tree s.index.root = .ok files → f ∈ files →
    ∃ r d l, s.tree.resolve s.index.root = .ok r ∧
      s.tree.walk path (piecesOf path).dropLast = .ok d ∧
      s.tree.walk path (piecesOf path) = .ok l ∧ s.tree.kind? l = some .file ∧
      (r <+: d → r <+: l → s.step now (.notify path) = s.step now (.build false)) ∧
      (∀ real, s.tree.realPath? path = some real → real = locationText l ∧
        s.step now (.notify path) =
          if r <+: l then s.step now (.build false) else (.ignored, s)) ∧
      (s.tree.top.isLinkFree = true → s.step now (.notify path) = s.step now (.build false)) := by
  intro s path hplace hscan hf
  have hordered : s.tree.Ordered :=
    FileTree.kept_ordered.run (FileTree.kept_ordered.start hordered _ _ _) events
  have hnamed : s.tree.top.Named :=
    FileTree.kept_named.run (FileTree.kept_named.start hnamed _ _ _) events
  -- all that is used of the run is that its tree is in order and has proper names
  clear_value s
  obtain ⟨r, hroot, hr, hself⟩ := FileTree.leads_self hnamed hplace
  have hpath : path = join (locationText r) f.name := congrArg (join · f.name) hroot
  rw [hroot] at hscan
  obtain ⟨hresolve, entries, hentries, -⟩ := Corpus.exists_of_scan hr hself hscan
  have hdirectory : s.tree.kind? r = some .directory := congrArg (Option.map Node.kind) hentries
  obtain ⟨hdocument, outer, name, d, l, h⟩ :=
    Corpus.found_of_scan hordered hnamed hr hself hscan hf
  obtain ⟨hd, hl⟩ := h.walk_path hr
  have hwithin := notify_within hnamed hroot hr hdirectory hdocument h
  refine ⟨r, d, l, ?_, ?_, ?_, h.file, ?_, fun real hreal ↦ ⟨?_, ?_⟩, fun hfree ↦ ?_⟩
  · rw [hroot]
    exact hresolve
  · rw [hpath]
    exact hd
  · rw [hpath]
    exact hl
  · exact fun hd hl ↦ hwithin hd hl now
  · rw [hpath] at hreal
    exact h.realPath hr hreal
  · exact notify_real hnamed hroot hr hdirectory hdocument h hreal now
  · obtain ⟨houter, hname⟩ := List.forall_mem_append.1 h.names
    exact hwithin (FileTree.Leads.below hfree hself houter h.outer_leads)
      (FileTree.Leads.below hfree hself h.names h.leads) now

theorem notify_listed_link :
    let t : FileTree :=
      ⟨.directory [("c", .directory [("a.json", .file (Json.Source.ofString "[]") 1)])], []⟩
    let s := (start t "/d" "/c" Settings.default).run [(0, .edit (.link "/c/b.json" "a.json"))]
    s.step 5 (.notify (join s.index.root "b.json")) = s.step 5 (.build false) := by
  intro t s
  have hordered : t.Ordered :=
    ⟨List.pairwise_singleton _ _, ⟨List.pairwise_singleton _ _, trivial, trivial⟩, trivial⟩
  have hnamed : t.top.Named := by decide +kernel
  have hplace : s.tree.realPath? s.index.root = some s.index.root := by decide +kernel
  have hlisted : ((Corpus.scan s.tree s.index.root).toOption.map fun files ↦
      files.map CorpusFile.name) = some ["a.json", "b.json"] := by decide +kernel
  have hroot : s.tree.resolve s.index.root = .ok ["c"] := by decide +kernel
  have hfile : s.tree.walk (join s.index.root "b.json") (piecesOf (join s.index.root "b.json")) =
      .ok ["c", "a.json"] := by decide +kernel
  have hpath : s.tree.realPath? (join s.index.root "b.json") = some "/c/a.json" := by
    decide +kernel
  -- the rest holds of any such session; its values would only be evaluated once more
  clear_value t
  obtain ⟨files, hscan, f, hf, hname⟩ :=
    Corpus.exists_of_names hlisted (List.mem_cons_of_mem _ List.mem_cons_self)
  obtain ⟨r, d, l, hr, -, hl, -, -, hreal, -⟩ :=
    notify_listed hordered hnamed [(0, .edit (.link "/c/b.json" "a.json"))] 5 hplace hscan hf
  rw [hname] at hl hreal
  obtain rfl := Except.ok.inj (hr.symm.trans hroot)
  obtain rfl := Except.ok.inj (hl.symm.trans hfile)
  have hbelow : ["c"] <+: ["c", "a.json"] := List.prefix_append ["c"] ["a.json"]
  exact (hreal _ hpath).2.trans (if_pos hbelow)

/-- What a link in `/c` leads to is outside of it: its change is ignored, while a build reads it. -/
theorem notify_listed_outside :
    let document := "\x7b\"tracks\":[\x7b\"actions\":[\x7b\"type\":\"A\"\x7d]\x7d]\x7d"
    let t : FileTree := ⟨.directory [("c", .directory [("a.json", .link "/x.json")])], []⟩
    let settings := { Settings.default with buildDirectory := some "/x" }
    let s := (start t "/d" "/c" settings).run
      [(0, .edit (.write "/x.json" (Json.Source.ofString document) 1))]
    (∃ files, Corpus.scan s.tree s.index.root = .ok files ∧ ∃ f ∈ files, f.name = "a.json") ∧
      s.step 3 (.notify (join s.index.root "a.json")) = (.ignored, s) ∧
      (s.step 3 (.build false)).2.active ≠ s.active := by
  intro document t settings s
  have hlisted : ((Corpus.scan s.tree s.index.root).toOption.map fun files ↦
      files.map CorpusFile.name) = some ["a.json"] := by decide +kernel
  have hconcerns : ¬s.concerns (join s.index.root "a.json") = true := by decide +kernel
  refine ⟨Corpus.exists_of_names hlisted List.mem_cons_self, ?_, ?_⟩
  · rw [step_notify, if_neg hconcerns]
  · decide +kernel

end Session

end ActionCatalog
