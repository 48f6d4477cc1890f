import ActionCatalog.FileTree.Edit
import ActionCatalog.Proofs.FileTree.LookUps
import ActionCatalog.Proofs.Keyed
import ActionCatalog.Proofs.Outcomes
import ActionCatalog.Proofs.Text.Pieces

namespace ActionCatalog

namespace FileTree

structure IsFileName (name : String) : Prop extends IsEntryName name where
  no_slash : '/' ∉ name.toList
  no_nul : '\x00' ∉ name.toList

/-- Where an entry can be put: where there is one already, or under a proper name. -/
def IsPlace (n : Node) (l : Location) : Prop :=
  (n.at? l).isSome ∨ ∃ directory name, l = directory ++ [name] ∧ IsFileName name

variable {t t' : FileTree} {l m here : Location} {path : String} {pieces : List String}

theorem of_checkedPieces (h : checkedPieces path = .ok pieces) :
    '\x00' ∉ path.toList ∧ pieces = piecesOf path := by
  obtain ⟨named, hnamed, h⟩ := exists_of_bind_ok h
  unfold namedPieces at hnamed
  split at hnamed
  · cases hnamed
  rename_i hnul
  split at hnamed
  · cases hnamed
  split at h
  · cases h
  · cases h
    exact ⟨hnul, (Except.ok.inj hnamed).symm⟩

theorem entryLocation_eq_ok (h : t.entryLocation path = .ok l) :
    checkedPieces path = .ok (piecesOf path) ∧ ∃ name outer directory,
      (piecesOf path).reverse.dropWhile (· = "") = name :: outer ∧ IsEntryName name ∧
      t.walk path outer.reverse = .ok directory ∧ t.kind? directory = some .directory ∧
      l = directory ++ [name] := by
  obtain ⟨pieces, hpieces, h⟩ := exists_of_bind_ok h
  obtain rfl := (of_checkedPieces hpieces).2
  split at h
  · cases h
  rename_i name outer hlast
  obtain ⟨directory, hwalk, h⟩ := exists_of_bind_ok h
  split at h
  · cases h
  rename_i hdirectory
  split at h
  · cases h
  rename_i hplain
  split at h
  · cases h
  rename_i hsize
  obtain ⟨hhere, hup⟩ := not_or.1 hplain
  have hne : name ≠ "" := by
    rintro rfl
    have hhead := List.head?_dropWhile_not (· = "") (piecesOf path).reverse
    rw [hlast] at hhead
    simp at hhead
  exact ⟨hpieces, name, outer, directory, hlast, ⟨hne, hhere, hup, not_lt.1 hsize⟩, hwalk,
    any_isDirectory.1 (not_not.1 hdirectory), (Except.ok.inj h).symm⟩

theorem isPlace_of_entryLocation (n : Node) (h : t.entryLocation path = .ok l) : IsPlace n l := by
  obtain ⟨hchecked, name, outer, directory, hlast, hname, -, -, rfl⟩ := entryLocation_eq_ok h
  have hmem : name ∈ piecesOf path := by
    rw [← List.mem_reverse]
    exact (List.dropWhile_suffix _).subset (hlast ▸ List.mem_cons_self)
  obtain ⟨p, hp, rfl⟩ := List.mem_map.1 hmem
  obtain ⟨hslash, hsub⟩ := Text.of_mem_pieces hp
  refine .inr ⟨directory, _, rfl, ⟨hname, ?_, ?_⟩⟩
  · rwa [String.toList_ofList]
  · rw [String.toList_ofList]
    exact fun hc ↦ (of_checkedPieces hchecked).1 (hsub hc)

theorem isSome_at?_above {n : Node} (h : (n.at? m).isSome) (hp : l <+: m) :
    (n.at? l).isSome := by
  obtain ⟨rest, rfl⟩ := hp
  rw [Node.at?_append] at h
  exact Option.isSome_of_isSome_bind h

/-- A look-up that begins where there is something ends where there is something. -/
theorem isSome_of_follow {visit : Visit}
    {jump : Location → List String → Except FileError Location}
    (hjump : ∀ here rest, (t.at? here).isSome → jump here rest = .ok l → (t.at? l).isSome)
    (hhere : (t.at? here).isSome) (h : follow t visit jump here pieces = .ok l) :
    (t.at? l).isSome := by
  induction pieces generalizing here with
  | nil => exact Except.ok.inj h ▸ hhere
  | cons piece rest ih =>
    obtain ⟨move, hmoves, h⟩ := exists_of_follow h
    cases hmoves with
    | idle => exact ih hhere h
    | up => exact ih (isSome_at?_above hhere here.dropLast_prefix) h
    | enter _ _ hkind => exact ih (isSome_of_kind hkind) (proceed_enter.1 h).2
    | jump =>
      refine hjump _ _ ?_ (proceed_jump.1 h).2
      unfold origin
      split
      · rfl
      · exact hhere

theorem isSome_of_followLinks {visit : Visit} {links : Nat} (hhere : (t.at? here).isSome)
    (h : followLinks t visit links here pieces = .ok l) : (t.at? l).isSome := by
  induction links generalizing here pieces with
  | zero => exact isSome_of_follow (fun _ _ _ hjump ↦ by cases hjump) hhere h
  | succ links ih => exact isSome_of_follow (fun _ _ hjump ↦ ih hjump) hhere h

theorem piecesOf_ne_nil (path : String) : piecesOf path ≠ [] := fun h ↦
  Text.pieces_ne_nil _ (List.map_eq_nil_iff.1 h)

theorem isSome_of_follow_ok {visit : Visit} {links : Nat} (hp : pieces ≠ [])
    (h : followLinks t visit links here pieces = .ok l) : (t.at? here).isSome := by
  obtain ⟨piece, rest, rfl⟩ := List.exists_cons_of_ne_nil hp
  cases hhere : t.at? here with
  | some n => rfl
  | none => cases links <;> simp [followLinks, follow, hhere] at h

theorem isSome_of_resolve (h : t.resolve path = .ok l) : (t.at? l).isSome := by
  obtain ⟨pieces, hpieces, h⟩ := exists_of_bind_ok h
  obtain ⟨-, rfl⟩ := of_checkedPieces hpieces
  exact isSome_of_followLinks (isSome_of_follow_ok (piecesOf_ne_nil path) h) h

theorem isPlace_of_creationLocation {links : Nat} (h : t.creationLocation links path = .ok l) :
    IsPlace t.top l := by
  induction links generalizing path with
  | zero => cases h
  | succ links ih =>
    rw [creationLocation] at h
    split at h
    · rename_i m hm
      cases h
      exact .inl (isSome_of_resolve hm)
    · obtain ⟨m, hm, h⟩ := exists_of_bind_ok h
      split at h
      · exact ih h
      · cases h
        exact isPlace_of_entryLocation t.top hm
    · cases h

theorem exists_of_removeFile (h : t.removeFile path = .ok t') : ∃ l n,
    t.entryLocation path = .ok l ∧ t.at? l = some n ∧ n.isDirectory = false ∧ t' = t.remove l := by
  obtain ⟨l, hl, h⟩ := exists_of_bind_ok h
  split at h
  · cases h
  · rename_i n hnot hn
    cases h
    refine ⟨l, n, hl, hn, ?_, rfl⟩
    cases n with
    | directory entries => exact (hnot entries rfl).elim
    | file content modified => rfl
    | link target => rfl
  · cases h

theorem exists_of_rename {target : String} (h : t.rename path target = .ok t') :
    ∃ l m n, t.entryLocation path = .ok l ∧ t.entryLocation target = .ok m ∧ t.at? l = some n ∧
      (l = m ∧ t' = t ∨
        l ≠ m ∧ (∀ n' ∈ t.at? m, obstacle? n n' = none) ∧ t' = (t.remove l).put m n) := by
  obtain ⟨l, hl, h⟩ := exists_of_bind_ok h
  obtain ⟨m, hm, h⟩ := exists_of_bind_ok h
  split at h
  · cases h
  rename_i n hn
  refine ⟨l, m, n, hl, hm, hn, ?_⟩
  split at h
  · rename_i hsame
    exact .inl ⟨hsame, (Except.ok.inj h).symm⟩
  rename_i hother
  split at h
  · cases h
  split at h
  · cases h
  rename_i hobstacle
  refine .inr ⟨hother, fun n' hn' ↦ ?_, (Except.ok.inj h).symm⟩
  rwa [hn', Option.bind_some] at hobstacle

theorem exists_of_write {content : List UInt8} {modified : Int}
    (h : t.write path content modified = .ok t') :
    ∃ l, t.creationLocation maxLinks path = .ok l ∧ t' = t.put l (.file content modified) := by
  obtain ⟨l, hl, h⟩ := exists_of_bind_ok h
  split at h
  · cases h
  · exact ⟨l, hl, (Except.ok.inj h).symm⟩

/-- A property of nodes that changes of entries keep. -/
structure Kept (P : Node → Prop) : Prop where
  file : ∀ content modified, P (.file content modified)
  link : ∀ target, P (.link target)
  empty : P (.directory [])
  part : ∀ {n m l}, P n → n.at? l = some m → P m
  put : ∀ {n m l}, P n → P m → IsPlace n l → P (n.put (some m) l)
  remove : ∀ {n l}, P n → P (n.put none l)

section Kept

variable {P : Node → Prop} (hP : Kept P)

include hP

theorem Kept.makeDirectory (h : P t.top) (hm : t.makeDirectory path = .ok t') : P t'.top := by
  obtain ⟨l, hl, hm⟩ := exists_of_bind_ok hm
  split at hm
  · cases hm
  · cases hm
    exact hP.put h hP.empty (isPlace_of_entryLocation _ hl)

theorem Kept.ensureDirectory (h : P t.top) (hm : t.ensureDirectory path = .ok t') : P t'.top := by
  unfold FileTree.ensureDirectory at hm
  split at hm
  · rename_i hmade
    cases hm
    exact hP.makeDirectory h hmade
  · split at hm
    · cases hm
      exact h
    · cases hm

omit hP in
theorem kept_ofStep (h : P t.top) {r : Except FileError FileTree}
    (hr : ∀ t', r = .ok t' → P t'.top) : P (Attempt.ofStep t r).tree.top := by
  cases r with
  | ok t' => exact hr t' rfl
  | error e => exact h

omit hP in
theorem kept_step {a : Attempt} (h : P a.tree.top) {f : FileTree → Except FileError FileTree}
    (hf : ∀ t', f a.tree = .ok t' → P t'.top) : P (a.step f).tree.top := by
  unfold Attempt.step
  split
  · exact h
  · exact kept_ofStep h hf

omit hP in
theorem kept_result {a : Attempt} (h : P a.tree.top) (hr : a.result = .ok t') : P t'.top := by
  unfold Attempt.result at hr
  split at hr
  · cases hr
    exact h
  · cases hr

theorem Kept.ensureNested (h : P t.top) (paths : List String) :
    P (t.ensureNested paths).tree.top := by
  induction paths with
  | nil => exact h
  | cons path outer ih =>
    unfold FileTree.ensureNested
    split
    · exact kept_step ih fun t' ↦ hP.ensureDirectory ih
    · exact kept_ofStep h fun t' ↦ hP.ensureDirectory h

theorem Kept.makeDirectories (h : P t.top) (path : String) :
    P (t.makeDirectories path).tree.top := by
  unfold FileTree.makeDirectories
  split
  · exact h
  · exact hP.ensureNested h _

theorem Kept.makeParent (h : P t.top) (hm : t.makeParent path = .ok t') : P t'.top := by
  unfold FileTree.makeParent at hm
  split at hm
  · exact kept_result (hP.makeDirectories h _) hm
  · cases hm
    exact h

theorem Kept.write (h : P t.top) {content : List UInt8} {modified : Int}
    (hw : t.write path content modified = .ok t') : P t'.top := by
  obtain ⟨l, hl, rfl⟩ := exists_of_write hw
  exact hP.put h (hP.file _ _) (isPlace_of_creationLocation hl)

theorem Kept.removeFile (h : P t.top) (hr : t.removeFile path = .ok t') : P t'.top := by
  obtain ⟨l, n, -, -, -, rfl⟩ := exists_of_removeFile hr
  exact hP.remove h

theorem Kept.rename (h : P t.top) {target : String} (hr : t.rename path target = .ok t') :
    P t'.top := by
  obtain ⟨l, m, n, -, hm, hn, ⟨-, rfl⟩ | ⟨-, -, rfl⟩⟩ := exists_of_rename hr
  · exact h
  · exact hP.put (hP.remove h) (hP.part h hn) (isPlace_of_entryLocation _ hm)

theorem Kept.tryEdit (h : P t.top) {e : Edit} (he : t.tryEdit e = .ok t') : P t'.top := by
  cases e with
  | write path content modified =>
    obtain ⟨made, hmade, he⟩ := exists_of_bind_ok he
    exact hP.write (hP.makeParent h hmade) he
  | touch path modified =>
    obtain ⟨l, hl, he⟩ := exists_of_bind_ok he
    split at he
    · cases he
      exact hP.put h (hP.file _ _) (.inl (isSome_of_resolve hl))
    · cases he
      exact h
  | delete path =>
    obtain ⟨l, -, he⟩ := exists_of_bind_ok he
    cases he
    exact hP.remove h
  | makeDirectory path => exact kept_result (hP.makeDirectories h path) he
  | rename path target =>
    obtain ⟨made, hmade, he⟩ := exists_of_bind_ok he
    exact hP.rename (hP.makeParent h hmade) he
  | link path target =>
    obtain ⟨made, hmade, he⟩ := exists_of_bind_ok he
    obtain ⟨pieces, -, he⟩ := exists_of_bind_ok he
    obtain ⟨l, hl, he⟩ := exists_of_bind_ok he
    split at he
    · cases he
    · cases he
      exact hP.put (hP.makeParent h hmade) (hP.link target) (isPlace_of_entryLocation _ hl)

theorem Kept.edit (h : P t.top) (e : Edit) : P (t.edit e).top := by
  unfold FileTree.edit
  cases he : t.tryEdit e with
  | ok t' => exact hP.tryEdit h he
  | error e => exact h

end Kept

end FileTree

end ActionCatalog
