import ActionCatalog.Proofs.FileTree.Removal

namespace ActionCatalog

namespace Node

theorem at?_put_some {n m : Node} {l : Location} {name : String}
    (h : (n.at? l).map kind = some .directory) :
    (n.put (some m) (l ++ [name])).at? (l ++ [name]) = some m := by
  induction l generalizing n with
  | nil =>
    cases n with
    | directory entries =>
      change ((Keyed.insert name m entries).lookup name).bind some = some m
      rw [Keyed.lookup_insert_self, Option.bind_some]
    | file content modified => cases h
    | link target => cases h
  | cons key l ih =>
    obtain ⟨next, rest, hrest⟩ := List.exists_cons_of_ne_nil (List.concat_ne_nil name l)
    change ((n.put (some m) (key :: (l ++ [name]))).entries.lookup key).bind
      (at? (l ++ [name])) = some m
    rw [hrest, lookup_entries_put_self, ← hrest]
    change ((n.entries.lookup key).bind (at? l)).map kind = _ at h
    cases hn : n.entries.lookup key with
    | none =>
      rw [hn] at h
      cases h
    | some n' =>
      rw [hn] at h
      exact ih h

theorem eq_of_put {n m n' : Node} {l : Location} (hl : l ≠ [])
    (h : (n.put (some m) l).at? l = some n') : n' = m := by
  induction l generalizing n with
  | nil => exact absurd rfl hl
  | cons key l ih =>
    cases l with
    | nil =>
      cases n with
      | directory entries =>
        have hput : ((directory entries).put (some m) [key]).at? [key] = some m :=
          at?_put_some (l := []) rfl
        exact Option.some.inj (h.symm.trans hput)
      | file content modified => cases h
      | link target => cases h
    | cons next l =>
      change ((n.put (some m) (key :: next :: l)).entries.lookup key).bind
        (at? (next :: l)) = _ at h
      rw [lookup_entries_put_self] at h
      cases hn : n.entries.lookup key with
      | none =>
        rw [hn] at h
        cases h
      | some next' =>
        rw [hn] at h
        exact ih (List.cons_ne_nil next l) h

end Node

namespace FileTree

variable {t t' : FileTree} {here l m directory : Location} {path name : String}
  {pieces outer : List String} {links : Nat}

/-- Whether all directories and links of a tree are in another one too. -/
def Keeps (t t' : FileTree) : Prop :=
  t'.workingDirectory = t.workingDirectory ∧
    ∀ l k, t.kind? l = some k → k ≠ .file → t'.kind? l = some k

theorem eq_of_follow_file {visit : Visit}
    {jump : Location → List String → Except FileError Location} (hl : t.kind? l = some .file)
    (h : follow t visit jump l pieces = .ok m) : l = m := by
  cases pieces with
  | nil => exact Except.ok.inj h
  | cons piece rest =>
    rw [follow_cons, hl] at h
    cases h

theorem Keeps.follow {jump jump' : Location → List String → Except FileError Location}
    (h : t.Keeps t') (hm : t'.kind? m = t.kind? m)
    (hjump : ∀ here pieces, jump here pieces = .ok m → jump' here pieces = .ok m)
    (hl : follow t (fun _ _ ↦ true) jump here pieces = .ok m) :
    follow t' (fun _ _ ↦ true) jump' here pieces = .ok m := by
  induction pieces generalizing here with
  | nil => exact hl
  | cons piece rest ih =>
    obtain ⟨move, hmoves, hl⟩ := exists_of_follow hl
    cases hmoves with
    | idle hhere hidle =>
      rw [(Moves.idle (h.2 _ _ hhere nofun) hidle).follow]
      exact ih hl
    | up hhere =>
      rw [(Moves.up (h.2 _ _ hhere nofun)).follow]
      exact ih hl
    | @enter _ kind hhere hname hkind hlink =>
      have hkind' : t'.kind? (here ++ [piece]) = some kind := by
        cases kind with
        | file =>
          have hlast := eq_of_follow_file hkind (proceed_enter.1 hl).2
          rw [hlast, hm, ← hlast, hkind]
        | directory => exact h.2 _ _ hkind nofun
        | link target => exact absurd rfl (hlink target)
      rw [(Moves.enter (h.2 _ _ hhere nofun) hname hkind' hlink).follow]
      exact ih hl
    | jump hhere hname hkind =>
      rw [(Moves.jump (h.2 _ _ hhere nofun) hname (h.2 _ _ hkind nofun)).follow]
      exact hjump _ _ hl

theorem Keeps.followLinks (h : t.Keeps t') (hm : t'.kind? m = t.kind? m) (links : Nat)
    (hl : followLinks t (fun _ _ ↦ true) links here pieces = .ok m) :
    followLinks t' (fun _ _ ↦ true) links here pieces = .ok m := by
  induction links generalizing here pieces with
  | zero =>
    rw [FileTree.followLinks] at hl ⊢
    exact h.follow hm (fun _ _ hjump ↦ hjump) hl
  | succ links ih => exact h.follow hm (fun _ _ ↦ ih) hl

theorem Keeps.kind (h : t.Keeps t') (hm : t.kind? m = some .directory) :
    t'.kind? m = t.kind? m := (h.2 m _ hm nofun).trans hm.symm

theorem Keeps.walk (h : t.Keeps t') (hm : t'.kind? m = t.kind? m)
    (hl : t.walk path pieces = .ok m) : t'.walk path pieces = .ok m := by
  rw [FileTree.walk, h.1]
  exact h.followLinks hm maxLinks hl

/-- What changes where there is neither a directory nor a link is no directory and no link. -/
theorem keeps_put (new : Option Node) (hl : ∀ k, t.kind? l = some k → k = .file) :
    t.Keeps { t with top := t.top.put new l } := by
  refine ⟨rfl, fun m k hk hfile ↦ ?_⟩
  by_cases hm : l <+: m
  · by_cases heq : l = m
    · exact absurd (hl k (heq ▸ hk)) hfile
    · refine absurd hk ?_
      rw [kind?, at?_below hm (fun n hn ↦ ?_) heq]
      · exact Option.some_ne_none k ∘ Eq.symm
      · have hkind := hl n.kind (congrArg (Option.map Node.kind) hn)
        cases n with
        | directory entries => cases hkind
        | file content modified => rfl
        | link target => rfl
  · rw [← hk]
    exact Node.kind_at?_put hm

theorem keeps_of_put {content : List UInt8} {modified : Int} :
    (t.put l (.file content modified)).Keeps t := by
  refine ⟨rfl, fun m k hk hkind ↦ ?_⟩
  by_cases hnil : l = []
  · rw [hnil] at hk
    exact hk
  by_cases hm : l <+: m
  · have hfile {n : Node} (hn : (t.put l (.file content modified)).at? l = some n) :
        n = .file content modified := Node.eq_of_put hnil hn
    by_cases heq : l = m
    · obtain ⟨n, hn, rfl⟩ := Option.map_eq_some_iff.1 hk
      rw [← heq] at hn
      exact absurd (congrArg Node.kind (hfile hn)) hkind
    · rw [kind?, at?_below hm (fun n hn ↦ by rw [hfile hn]; rfl) heq] at hk
      cases hk
  · rw [← hk]
    exact (Node.kind_at?_put hm).symm

theorem follow_join {jump : Location → List String → Except FileError Location}
    {more : List String} {result : Except FileError Location}
    (hmore : ∀ jump, follow t (fun _ _ ↦ true) jump m more = result)
    (hjump : ∀ here pieces, jump here pieces = .ok m → jump here (pieces ++ more) = result)
    (h : follow t (fun _ _ ↦ true) jump here pieces = .ok m) :
    follow t (fun _ _ ↦ true) jump here (pieces ++ more) = result := by
  induction pieces generalizing here with
  | nil =>
    obtain rfl := Except.ok.inj h
    exact hmore jump
  | cons piece rest ih =>
    obtain ⟨move, hmoves, h⟩ := exists_of_follow h
    rw [List.cons_append, hmoves.follow]
    cases move with
    | stay l => exact ih h
    | enter l => exact ih h
    | jump l target =>
      have hgo := hjump _ _ h
      rw [List.append_assoc] at hgo
      exact hgo

theorem followLinks_join {more : List String} {result : Except FileError Location} (links : Nat)
    (hmore : ∀ jump, follow t (fun _ _ ↦ true) jump m more = result)
    (h : followLinks t (fun _ _ ↦ true) links here pieces = .ok m) :
    followLinks t (fun _ _ ↦ true) links here (pieces ++ more) = result := by
  induction links generalizing here pieces with
  | zero =>
    rw [followLinks] at h ⊢
    exact follow_join hmore (fun _ _ hjump ↦ by cases hjump) h
  | succ links ih => exact follow_join hmore (fun _ _ ↦ ih) h

variable (hname : IsEntryName name) (hpath : piecesOf path = outer ++ [name])

include hname

theorem follow_entry {jump : Location → List String → Except FileError Location}
    (hd : t.kind? directory = some .directory)
    (hlink : ∀ target, t.kind? (directory ++ [name]) ≠ some (.link target)) :
    follow t (fun _ _ ↦ true) jump directory [name] =
      if (t.kind? (directory ++ [name])).isSome then .ok (directory ++ [name])
      else .error .notFound := by
  cases hkind : t.kind? (directory ++ [name]) with
  | none => exact follow_missing hname hd hkind
  | some kind =>
    have hnotLink : ∀ target, kind ≠ .link target := fun target h ↦ hlink target (h ▸ hkind)
    exact (Moves.enter hd hname hkind hnotLink).follow

include hpath

theorem entryLocation_eq (hchecked : checkedPieces path = .ok (piecesOf path)) :
    t.entryLocation path = (t.walk path outer).bind fun directory ↦
      if (t.at? directory).any Node.isDirectory then .ok (directory ++ [name])
      else .error .notDirectory := by
  have hlast : (piecesOf path).reverse.dropWhile (· = "") = name :: outer.reverse := by
    rw [hpath, List.reverse_append]
    exact List.dropWhile_cons_of_neg (by simpa using hname.ne_nothing)
  rw [entryLocation, hchecked]
  dsimp only [bind, Except.bind]
  rw [hlast]
  dsimp only
  rw [List.reverse_reverse]
  refine congrArg _ (funext fun directory ↦ ?_)
  rw [if_neg (not_or.2 ⟨hname.ne_here, hname.ne_up⟩), if_neg (not_lt.2 hname.size), ite_not]

theorem entryLocation_of_walk (hchecked : checkedPieces path = .ok (piecesOf path))
    (hwalk : t.walk path outer = .ok directory) (hd : t.kind? directory = some .directory) :
    t.entryLocation path = .ok (directory ++ [name]) := by
  rw [entryLocation_eq hname hpath hchecked, hwalk]
  exact if_pos (any_isDirectory.2 hd)

theorem exists_of_entryLocation (h : t.entryLocation path = .ok l) :
    checkedPieces path = .ok (piecesOf path) ∧ ∃ directory, t.walk path outer = .ok directory ∧
      t.kind? directory = some .directory ∧ l = directory ++ [name] := by
  obtain ⟨hchecked, last, before, directory, hlast, -, hwalk, hd, rfl⟩ := entryLocation_eq_ok h
  rw [hpath, List.reverse_append, List.reverse_singleton, List.singleton_append,
    List.dropWhile_cons_of_neg (by simpa using hname.ne_nothing), List.cons.injEq] at hlast
  obtain ⟨rfl, rfl⟩ := hlast
  rw [List.reverse_reverse] at hwalk
  exact ⟨hchecked, directory, hwalk, hd, rfl⟩

variable (hchecked : checkedPieces path = .ok (piecesOf path))
  (hwalk : t.walk path outer = .ok directory) (hd : t.kind? directory = some .directory)

include hchecked hwalk hd

theorem resolve_of_walk
    (hlink : ∀ target, t.kind? (directory ++ [name]) ≠ some (.link target)) : t.resolve path =
      if (t.kind? (directory ++ [name])).isSome then .ok (directory ++ [name])
      else .error .notFound := by
  rw [resolve, hchecked]
  change t.walk path (piecesOf path) = _
  rw [hpath]
  exact followLinks_join maxLinks (fun jump ↦ follow_entry hname hd hlink) hwalk

theorem creationLocation_of_walk
    (hlink : ∀ target, t.kind? (directory ++ [name]) ≠ some (.link target)) :
    t.creationLocation (links + 1) path = .ok (directory ++ [name]) := by
  rw [creationLocation, resolve_of_walk hname hpath hchecked hwalk hd hlink,
    entryLocation_of_walk hname hpath hchecked hwalk hd]
  cases hn : t.at? (directory ++ [name]) with
  | none =>
    rw [kind?, hn]
    dsimp only [Option.map_none, Option.isSome_none, bind, Except.bind]
    rw [if_neg Bool.false_ne_true, hn]
  | some n =>
    rw [kind?, hn]
    rfl

theorem read_of_walk {content : List UInt8} {modified : Int}
    (hfile : t.at? (directory ++ [name]) = some (.file content modified)) :
    t.read path = .ok content := by
  have hkind : t.kind? (directory ++ [name]) = some .file := by
    rw [kind?, hfile]
    rfl
  rw [read, resolve_of_walk hname hpath hchecked hwalk hd (by rw [hkind]; simp), hkind]
  dsimp only [Option.isSome_some, bind, Except.bind]
  rw [if_pos rfl]
  dsimp only
  rw [hfile]

omit hname hpath hchecked hwalk hd

def NamesLink (t : FileTree) (path : String) : Prop :=
  ∃ l target, t.entryLocation path = .ok l ∧ t.kind? l = some (.link target)

instance (t : FileTree) (path : String) : Decidable (t.NamesLink path) :=
  match hl : t.entryLocation path with
  | .error _ => .isFalse fun ⟨_, _, hl', _⟩ ↦ by cases hl.symm.trans hl'
  | .ok l =>
    match hk : t.kind? l with
    | some (.link target) => .isTrue ⟨l, target, hl, hk⟩
    | none | some .file | some .directory => .isFalse fun ⟨l', _, hl', hk'⟩ ↦ by
      obtain rfl := Except.ok.inj (hl.symm.trans hl')
      cases hk.symm.trans hk'

/-- What is written to a path that names no link becomes the very entry that the path names. -/
theorem put_of_write {content : List UInt8} {modified : Int} (hname : IsEntryName name)
    (hpath : piecesOf path = outer ++ [name]) (hlink : ¬t.NamesLink path)
    (hwrite : t.write path content modified = .ok t') (hl : t'.entryLocation path = .ok l) :
    t' = t.put l (.file content modified) ∧ t'.at? l = some (.file content modified) := by
  obtain ⟨l₀, hl₀, hput⟩ := exists_of_write hwrite
  obtain ⟨hchecked, d, hwalk', hd', rfl⟩ := exists_of_entryLocation hname hpath hl
  -- the file that is new is no part of the way to its directory
  have hback : t'.Keeps t := hput ▸ keeps_of_put
  have hwalk := hback.walk (hback.kind hd') hwalk'
  have hd := hback.2 d _ hd' nofun
  have hkind (target : String) : t.kind? (d ++ [name]) ≠ some (.link target) := fun hk ↦
    hlink ⟨_, target, entryLocation_of_walk hname hpath hchecked hwalk hd, hk⟩
  obtain rfl : d ++ [name] = l₀ := Except.ok.inj
    ((creationLocation_of_walk hname hpath hchecked hwalk hd hkind).symm.trans hl₀)
  refine ⟨hput, ?_⟩
  rw [hput]
  exact Node.at?_put_some hd

/-- What was written to a draft can be read once the draft has been renamed. -/
theorem read_of_rename {t₁ t₂ : FileTree} {draft file draftName fileName : String}
    {content : List UInt8} {now : Nat} (hdraftName : IsEntryName draftName)
    (hfileName : IsEntryName fileName) (hne : draftName ≠ fileName)
    (hdraft : piecesOf draft = outer ++ [draftName]) (hfile : piecesOf file = outer ++ [fileName])
    (habsolute : UnixPath.isAbsolute draft = UnixPath.isAbsolute file)
    (hdraftLink : ¬t.NamesLink draft) (hfileLink : ¬t.NamesLink file)
    (hwrite : t.write draft content now = .ok t₁) (hrename : t₁.rename draft file = .ok t₂) :
    t₂.read file = .ok content := by
  obtain ⟨l, m, n, hl, hm, hn, hrename⟩ := exists_of_rename hrename
  obtain ⟨hput, hn'⟩ := put_of_write hdraftName hdraft hdraftLink hwrite hl
  obtain rfl : n = .file content now := Option.some.inj (hn.symm.trans hn')
  obtain ⟨-, d, hwalk₁, hd₁, rfl⟩ := exists_of_entryLocation hdraftName hdraft hl
  obtain ⟨hchecked, d', hwalkFile₁, -, rfl⟩ := exists_of_entryLocation hfileName hfile hm
  -- draft and file are entries of one directory
  obtain rfl : d = d' := by
    rw [walk, origin, habsolute] at hwalk₁
    exact Except.ok.inj (hwalk₁.symm.trans hwalkFile₁)
  obtain ⟨-, hobstacle, rfl⟩ := hrename.resolve_left fun h ↦ hne (by simpa using h.1)
  have hback : t₁.Keeps t := hput ▸ keeps_of_put
  have hfileKind (target : String) : t.kind? (d ++ [fileName]) ≠ some (.link target) := fun hk ↦
    hfileLink ⟨_, target, entryLocation_of_walk hfileName hfile hchecked
      (hback.walk (hback.kind hd₁) hwalkFile₁) (hback.2 d _ hd₁ nofun), hk⟩
  -- neither taking the draft away nor putting the file there turns a directory into anything else
  have hsiblings : ¬d ++ [draftName] <+: d ++ [fileName] := by
    simpa using hne
  have hkeepsDraft : t₁.Keeps (t₁.remove (d ++ [draftName])) := by
    refine keeps_put none fun k hk ↦ ?_
    rw [kind?, hn] at hk
    exact (Option.some.inj hk).symm
  have hkeepsFile : (t₁.remove (d ++ [draftName])).Keeps
      ((t₁.remove (d ++ [draftName])).put (d ++ [fileName]) (.file content now)) := by
    refine keeps_put (some _) fun k hk ↦ ?_
    rw [kind?_remove hsiblings] at hk
    obtain ⟨n, hn, rfl⟩ := Option.map_eq_some_iff.1 hk
    cases n with
    | file content modified => rfl
    | directory entries => cases hobstacle _ hn
    | link target =>
      refine absurd (Eq.trans ?_ hk) (hfileKind target)
      rw [hput]
      exact (Node.kind_at?_put hsiblings).symm
  have hd₂ := hkeepsDraft.2 d _ hd₁ nofun
  have hwalk₂ := hkeepsFile.walk (hkeepsFile.kind hd₂)
    (hkeepsDraft.walk (hkeepsDraft.kind hd₁) hwalkFile₁)
  exact read_of_walk hfileName hfile hchecked hwalk₂ (hkeepsFile.2 d _ hd₂ nofun)
    (Node.at?_put_some hd₂)

end FileTree

end ActionCatalog
