import ActionCatalog.Proofs.FileTree.Readings
import ActionCatalog.Proofs.UnixPath.RelativeNames

namespace ActionCatalog

def UnixPath.Component.move? : Component → Option String
  | root | current => none
  | parent => some ".."
  | name s => some s

namespace FileTree

open UnixPath (components Component)

def isIdle (piece : String) : Bool := piece = "" ∨ piece = "."

def move? (piece : String) : Option String := if isIdle piece then none else some piece

def moves (pieces : List String) : List String := pieces.filterMap move?

/-- The second list is the first one without some of its idle pieces. -/
inductive Shortens : List String → List String → Prop
  | nil : Shortens [] []
  | keep {pieces pieces' : List String} (piece : String) (h : Shortens pieces pieces') :
    Shortens (piece :: pieces) (piece :: pieces')
  | skip {pieces pieces' : List String} {piece : String} (hidle : isIdle piece = true)
    (h : Shortens pieces pieces') : Shortens (piece :: pieces) pieces'

variable {t t' : FileTree} {here l m : Location} {path name : String}
  {pieces pieces' outer more : List String} {content : List UInt8}

theorem Shortens.append_left (h : Shortens pieces pieces') : (before : List String) →
    Shortens (before ++ pieces) (before ++ pieces')
  | [] => h
  | piece :: before => .keep piece (h.append_left before)

theorem shortens_refl : (pieces : List String) → Shortens pieces pieces
  | [] => .nil
  | piece :: pieces => .keep piece (shortens_refl pieces)

theorem shortens_moves (pieces more : List String) :
    Shortens (pieces ++ more) (moves pieces ++ more) := by
  induction pieces with
  | nil => exact shortens_refl more
  | cons piece pieces ih =>
    rw [moves, List.filterMap_cons, move?]
    by_cases hidle : isIdle piece = true
    · rw [if_pos hidle]
      exact .skip hidle ih
    · rw [if_neg hidle]
      exact .keep piece ih

theorem Shortens.follow {jump jump' : Location → List String → Except FileError Location}
    (h : Shortens pieces pieces')
    (hjump : ∀ here {pieces pieces'}, Shortens pieces pieces' → jump here pieces = .ok m →
      jump' here pieces' = .ok m)
    (hl : follow t (fun _ _ ↦ true) jump here pieces = .ok m) :
    follow t (fun _ _ ↦ true) jump' here pieces' = .ok m := by
  induction h generalizing here with
  | nil => exact hl
  | skip hidle h ih =>
    rw [follow_cons] at hl
    split at hl
    · rw [if_pos (by simpa [isIdle] using hidle)] at hl
      exact ih hl
    · cases hl
    · cases hl
  | keep piece h ih =>
    obtain ⟨move, hmoves, hl⟩ := exists_of_follow hl
    rw [hmoves.follow]
    cases move with
    | stay l => exact ih hl
    | enter l => exact ih hl
    | jump l target => exact hjump _ (h.append_left _) hl

theorem Shortens.followLinks (h : Shortens pieces pieces') (links : Nat)
    (hl : followLinks t (fun _ _ ↦ true) links here pieces = .ok m) :
    followLinks t (fun _ _ ↦ true) links here pieces' = .ok m := by
  induction links generalizing here pieces pieces' with
  | zero => exact h.follow (fun _ _ _ _ hjump ↦ by cases hjump) hl
  | succ links ih => exact h.follow (fun _ _ _ h ↦ ih h) hl

theorem walk_moves (hl : t.walk path (pieces ++ more) = .ok m) :
    t.walk path (moves pieces ++ more) = .ok m :=
  (shortens_moves pieces more).followLinks maxLinks hl

theorem of_mem_moves (hup : ".." ∉ pieces) (h : name ∈ moves pieces) :
    isIdle name = false ∧ name ≠ ".." := by
  obtain ⟨piece, hpiece, h⟩ := List.mem_filterMap.1 h
  rw [move?] at h
  split at h
  · cases h
  rename_i hidle
  obtain rfl := Option.some.inj h
  exact ⟨Bool.eq_false_iff.2 hidle, fun heq ↦ hup (heq ▸ hpiece)⟩

theorem moves_dropWhile (pieces : List String) :
    moves (pieces.dropWhile (· = "")) = moves pieces := by
  induction pieces with
  | nil => rfl
  | cons piece pieces ih =>
    by_cases hempty : piece = ""
    · rw [List.dropWhile_cons_of_pos (by simpa using hempty), ih]
      exact (List.filterMap_cons_none (by simp [move?, isIdle, hempty])).symm
    · rw [List.dropWhile_cons_of_neg (by simpa using hempty)]

theorem isIdle_ofList {p : List Char} :
    isIdle (String.ofList p) = true ↔ p = [] ∨ p = ['.'] := by
  have hdot : "." = String.ofList ['.'] := rfl
  rw [isIdle, decide_eq_true_iff, String.ofList_eq_empty_iff, hdot, String.ofList_inj]

theorem move_componentOf (p : List Char) :
    (UnixPath.componentOf? p).bind Component.move? = move? (String.ofList p) := by
  rw [move?]
  unfold UnixPath.componentOf?
  by_cases hidle : p = [] ∨ p = ['.']
  · rw [if_pos hidle, if_pos (isIdle_ofList.2 hidle)]
    rfl
  rw [if_neg hidle, if_neg (mt isIdle_ofList.1 hidle)]
  split
  · rename_i hup
    subst hup
    rfl
  · rfl

theorem move_firstComponent (p : List Char) :
    (UnixPath.firstComponent p).move? = move? (String.ofList p) := by
  by_cases hempty : p = []
  · subst hempty
    decide
  by_cases hhere : p = ['.']
  · subst hhere
    decide
  rw [← move_componentOf, UnixPath.componentOf_eq hempty hhere, Option.bind_some]

theorem moves_piecesOf (path : String) :
    moves (piecesOf path) = (components path).filterMap Component.move? := by
  by_cases hpath : path = ""
  · subst hpath
    decide
  obtain ⟨first, rest, hpieces⟩ := UnixPath.exists_pieces path
  rw [UnixPath.components_of_pieces hpath hpieces, piecesOf, hpieces, moves, List.filterMap_map,
    List.filterMap_cons, List.filterMap_cons, List.filterMap_filterMap, move_firstComponent]
  simp only [move_componentOf, Function.comp_def]

/-- Whether a path leads to an empty directory. -/
def LeadsToEmpty (t : FileTree) (path : String) : Prop :=
  ∃ l, t.walk path (moves (piecesOf path)) = .ok l ∧ t.at? l = some (.directory [])

theorem moves_of_last {last : List String}
    (h : pieces.reverse.dropWhile (· = "") = name :: last) (hname : IsEntryName name) :
    moves pieces = moves last.reverse ++ [name] := by
  have hidle : isIdle name = false := by simp [isIdle, hname.ne_nothing, hname.ne_here]
  rw [← List.reverse_inj, moves, ← List.filterMap_reverse, ← moves, ← moves_dropWhile, h]
  simp [moves, move?, hidle]

theorem leadsToEmpty_of_makeDirectory (h : t.makeDirectory path = .ok t') :
    t'.LeadsToEmpty path := by
  obtain ⟨l, hl, h⟩ := exists_of_bind_ok h
  obtain ⟨-, name, last, d, hlast, hname, hwalk, hd, rfl⟩ := entryLocation_eq_ok hl
  split at h
  · cases h
  rename_i hnone
  obtain rfl := Except.ok.inj h
  have hkeeps : t.Keeps (t.put (d ++ [name]) (.directory [])) := by
    refine keeps_put (some _) fun k hk ↦ absurd ?_ hnone
    exact isSome_of_kind hk
  have hempty : (t.put (d ++ [name]) (.directory [])).at? (d ++ [name]) = some (.directory []) :=
    Node.at?_put_some hd
  have hkind : (t.put (d ++ [name]) (.directory [])).kind? (d ++ [name]) = some .directory := by
    rw [kind?, hempty]
    rfl
  -- the way to where it is made is still there, and goes on to what is made
  have hwalk := hkeeps.walk (hkeeps.kind hd) hwalk
  rw [← List.append_nil last.reverse] at hwalk
  have hwalk := walk_moves hwalk
  rw [List.append_nil] at hwalk
  refine ⟨d ++ [name], ?_, hempty⟩
  rw [moves_of_last hlast hname]
  have hlink (target : String) : Node.Kind.directory ≠ .link target := by simp
  have hd' := (hkeeps.kind hd).trans hd
  exact followLinks_join maxLinks (fun jump ↦ (Moves.enter hd' hname hkind hlink).follow) hwalk

theorem ensureDirectory_cases (h : t.ensureDirectory path = .ok t') :
    t' = t ∨ t'.LeadsToEmpty path := by
  unfold ensureDirectory at h
  split at h
  · rename_i hmade
    exact .inr (leadsToEmpty_of_makeDirectory (Except.ok.inj h ▸ hmade))
  · split at h
    · exact .inl (Except.ok.inj h).symm
    · cases h

/-- Whether a tree is still the same, or one of some paths leads to an empty directory in it. -/
def SameOrEmpty (t : FileTree) (paths : List String) (t' : FileTree) : Prop :=
  t' = t ∨ ∃ path ∈ paths, t'.LeadsToEmpty path

theorem SameOrEmpty.ensureDirectory {paths : List String} (h : t.SameOrEmpty paths t')
    (hpath : path ∈ paths) :
    t.SameOrEmpty paths (Attempt.ofStep t' (t'.ensureDirectory path)).tree := by
  cases hensure : t'.ensureDirectory path with
  | error e => exact h
  | ok t'' =>
    rcases ensureDirectory_cases hensure with rfl | hempty
    · exact h
    · exact .inr ⟨path, hpath, hempty⟩

theorem sameOrEmpty_ensureNested (t : FileTree) (paths : List String) :
    t.SameOrEmpty paths (t.ensureNested paths).tree := by
  induction paths with
  | nil => exact .inl rfl
  | cons path outer ih =>
    unfold ensureNested
    split
    · have ih : t.SameOrEmpty (path :: outer) (t.ensureNested outer).tree :=
        ih.imp_right fun ⟨b, hb, hempty⟩ ↦ ⟨b, List.mem_cons_of_mem path hb, hempty⟩
      unfold Attempt.step
      split
      · exact ih
      · exact ih.ensureDirectory List.mem_cons_self
    · exact SameOrEmpty.ensureDirectory (.inl rfl) List.mem_cons_self

theorem components_of_mem_beginnings {b : String} (h : b ∈ beginnings path) :
    components b <+: components path ∧ components b ≠ [] := by
  obtain ⟨i, hi, rfl⟩ := List.mem_map.1 h
  have hplaced := UnixPath.wellPlaced_components path
  rw [← List.take_append_drop (i + 1) (components path)] at hplaced
  rw [UnixPath.components_ofComponents hplaced.of_append_left]
  refine ⟨List.take_prefix _ _, ?_⟩
  have hlt := List.mem_range.1 hi
  rw [← List.length_pos_iff, List.length_take]
  omega

theorem follow_empty {visit : Visit} {jump : Location → List String → Except FileError Location}
    (hempty : t.at? l = some (.directory [])) (hidle : isIdle name = false) (hup : name ≠ "..") :
    follow t visit jump l (name :: more) =
      if maxNameSize < name.utf8ByteSize then .error .nameTooLong else .error .notFound := by
  have hl : t.kind? l = some .directory := by
    rw [kind?, hempty]
    rfl
  have hnone : t.kind? (l ++ [name]) = none := by
    rw [kind?, at?, at?_concat name hempty]
    rfl
  rw [follow_cons, hl, hnone]
  dsimp only
  rw [if_neg (by simpa [isIdle] using hidle), if_neg hup]

theorem isAbsolute_append {p q : String} (hp : p ≠ "") :
    UnixPath.isAbsolute (p ++ q) = UnixPath.isAbsolute p := by
  obtain ⟨c, cs, hcs⟩ := List.exists_cons_of_ne_nil (String.toList_eq_nil_iff.not.2 hp)
  rw [UnixPath.isAbsolute, UnixPath.isAbsolute, String.toList_append, hcs]
  rfl

theorem exists_pieces_join {base : String} (hbase : base ≠ "") (hname : IsFileName name) :
    ∃ outer, piecesOf (UnixPath.join base name) = outer ++ [name] ∧
      moves outer = moves (piecesOf base) ∧
      UnixPath.isAbsolute (UnixPath.join base name) = UnixPath.isAbsolute base := by
  have hpieces : piecesOf name = [name] := by
    rw [piecesOf, Text.pieces_of_notMem hname.no_slash]
    simp
  have habsolute : UnixPath.isAbsolute name = false := by
    by_contra hc
    refine hname.no_slash (List.mem_of_mem_head? ?_)
    simpa [UnixPath.isAbsolute] using hc
  obtain ⟨outer, hjoin, rfl | rfl⟩ := UnixPath.exists_join hbase habsolute
  · refine ⟨piecesOf base, ?_, rfl, ?_⟩
    · rw [hjoin, piecesOf_append, hpieces]
    · rw [hjoin, String.append_assoc, isAbsolute_append hbase]
  · refine ⟨piecesOf outer, ?_, ?_, ?_⟩
    · rw [hjoin, piecesOf_append, hpieces]
    · have hslash := piecesOf_append outer ""
      rw [String.append_empty] at hslash
      rw [hslash, moves, moves, List.filterMap_append]
      exact (List.append_nil _).symm
    · rw [hjoin, isAbsolute_append hbase]

theorem LeadsToEmpty.not_read {b base : String} (h : t.LeadsToEmpty b)
    (hb : components b <+: components base) (hne : components b ≠ [])
    (hup : ".." ∉ piecesOf base) (hname : IsFileName name) :
    t.read (UnixPath.join base name) ≠ .ok content := by
  intro hread
  obtain ⟨file, modified, hfile, -⟩ := read_ok_iff.1 hread
  obtain ⟨l, hl, hempty⟩ := h
  have hbase : base ≠ "" := by
    rintro rfl
    exact hne (List.prefix_nil.1 hb)
  obtain ⟨outer, hpieces, hmoves, habsolute⟩ := exists_pieces_join hbase hname
  -- both paths are walked without their idle pieces, so that one goes on where the other ends
  have hwalk := walk_of_resolve hfile
  rw [hpieces] at hwalk
  have hwalk := walk_moves hwalk
  obtain ⟨rest, hrest⟩ := hb.filterMap Component.move?
  rw [← moves_piecesOf, ← moves_piecesOf] at hrest
  rw [hmoves, ← hrest, List.append_assoc] at hwalk
  have horigin : UnixPath.isAbsolute (UnixPath.join base name) = UnixPath.isAbsolute b := by
    rw [habsolute, Bool.eq_iff_iff, UnixPath.isAbsolute_iff, UnixPath.isAbsolute_iff]
    obtain ⟨more, hmore⟩ := hb
    rw [← hmore, List.head?_append_of_ne_nil _ hne]
  have hproper : ∀ piece ∈ rest ++ [name], isIdle piece = false ∧ piece ≠ ".." := by
    intro piece hpiece
    rcases List.mem_append.1 hpiece with hpiece | hpiece
    · have hmoved : piece ∈ moves (piecesOf base) := hrest ▸ List.mem_append_right _ hpiece
      exact of_mem_moves hup hmoved
    · obtain rfl := List.mem_singleton.1 hpiece
      exact ⟨by simp [isIdle, hname.ne_nothing, hname.ne_here], hname.ne_up⟩
  obtain ⟨piece, more, hmore⟩ := List.exists_cons_of_ne_nil (List.concat_ne_nil name rest)
  rw [hmore] at hwalk hproper
  obtain ⟨hidle, hpieceUp⟩ := hproper piece List.mem_cons_self
  have hstuck : t.walk b (moves (piecesOf b) ++ piece :: more) = _ :=
    followLinks_join maxLinks (fun jump ↦ follow_empty hempty hidle hpieceUp) hl
  rw [walk, origin, horigin] at hwalk
  have hresult := hwalk.symm.trans hstuck
  split at hresult <;> cases hresult

/-- Making directories lets nothing be read that could not be read before. -/
theorem read_of_makeDirectories {base : String} (hup : ".." ∉ piecesOf base)
    (hname : IsFileName name)
    (h : (t.makeDirectories base).tree.read (UnixPath.join base name) = .ok content) :
    t.read (UnixPath.join base name) = .ok content := by
  unfold makeDirectories at h
  split at h
  · exact h
  rename_i hbase
  rcases t.sameOrEmpty_ensureNested (base :: (beginnings base).dropLast.reverse) with
    hsame | ⟨b, hb, hempty⟩
  · rwa [hsame] at h
  obtain ⟨hwithin, hne⟩ : components b <+: components base ∧ components b ≠ [] := by
    rcases List.mem_cons.1 hb with rfl | hb
    · exact ⟨List.prefix_refl _, UnixPath.components_eq_nil.not.2 hbase⟩
    · exact components_of_mem_beginnings (List.dropLast_subset _ (List.mem_reverse.1 hb))
  exact absurd h (hempty.not_read hwithin hne hup hname)

end FileTree

end ActionCatalog
