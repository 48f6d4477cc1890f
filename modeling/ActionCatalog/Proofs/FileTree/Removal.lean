import ActionCatalog.Proofs.FileTree.LookUps
import ActionCatalog.Proofs.FileTree.Order

namespace ActionCatalog

namespace Node

variable {n : Node} {new : Option Node} {l here : Location} {name key : String}
  {entries : List (String × Node)}

theorem lookup_entries_put (hne : name ≠ key) (rest : Location) :
    (n.put new (key :: rest)).entries.lookup name = n.entries.lookup name := by
  cases n with
  | file content modified => cases rest <;> rfl
  | link target => cases rest <;> rfl
  | directory entries =>
    cases rest with
    | nil =>
      cases new with
      | none => exact Keyed.lookup_filter (· ≠ key) (decide_eq_true hne)
      | some m => exact Keyed.lookup_insert hne
    | cons next rest => exact (Keyed.lookup_map _).trans (if_neg hne)

theorem lookup_entries_put_self (next : String) (rest : Location) :
    (n.put new (key :: next :: rest)).entries.lookup key =
      (n.entries.lookup key).map (put new (next :: rest)) := by
  cases n with
  | file content modified => rfl
  | link target => rfl
  | directory entries => exact (Keyed.lookup_map _).trans (if_pos rfl)

theorem kind_put : (n.put new l).kind = n.kind := by
  cases n <;> obtain _ | ⟨key, _ | ⟨next, rest⟩⟩ := l <;> first | rfl | (cases new <;> rfl)

theorem kind_at?_put (h : ¬l <+: here) :
    ((n.put new l).at? here).map kind = (n.at? here).map kind := by
  induction here generalizing l n with
  | nil => exact congrArg some kind_put
  | cons name rest ih =>
    obtain _ | ⟨key, l⟩ := l
    · exact absurd (List.nil_prefix) h
    change (((n.put new (key :: l)).entries.lookup name).bind (at? rest)).map kind =
      ((n.entries.lookup name).bind (at? rest)).map kind
    by_cases hne : name = key
    · subst hne
      have hl : ¬l <+: rest := fun hl ↦ h ((List.prefix_cons_inj name).2 hl)
      obtain _ | ⟨next, l⟩ := l
      · exact absurd (List.nil_prefix) hl
      rw [lookup_entries_put_self]
      cases n.entries.lookup name with
      | none => rfl
      | some m => exact ih hl
    · rw [lookup_entries_put hne]

/-- Aside from a location and those that it lies below, a change there leaves the very nodes. -/
theorem at?_put (h : ¬l <+: here) (h' : ¬here <+: l) : (n.put new l).at? here = n.at? here := by
  induction here generalizing l n with
  | nil => exact absurd (List.nil_prefix) h'
  | cons name rest ih =>
    obtain _ | ⟨key, l⟩ := l
    · exact absurd (List.nil_prefix) h
    change ((n.put new (key :: l)).entries.lookup name).bind (at? rest) =
      (n.entries.lookup name).bind (at? rest)
    by_cases hne : name = key
    · subst hne
      have hl : ¬l <+: rest := fun hl ↦ h ((List.prefix_cons_inj name).2 hl)
      have hl' : ¬rest <+: l := fun hl ↦ h' ((List.prefix_cons_inj name).2 hl)
      obtain _ | ⟨next, l⟩ := l
      · exact absurd (List.nil_prefix) hl
      rw [lookup_entries_put_self]
      cases n.entries.lookup name with
      | none => rfl
      | some m => exact ih hl hl'
    · rw [lookup_entries_put hne]

theorem at?_put_none (h : l ≠ []) : (n.put none l).at? l = none := by
  induction l generalizing n with
  | nil => exact absurd rfl h
  | cons key l ih =>
    change ((n.put none (key :: l)).entries.lookup key).bind (at? l) = none
    obtain _ | ⟨next, l⟩ := l
    · cases n with
      | file content modified => rfl
      | link target => rfl
      | directory entries =>
        change ((entries.filter fun e ↦ e.1 ≠ key).lookup key).bind _ = none
        rw [Keyed.lookup_filter_of_not (· ≠ key) (by simp)]
        rfl
    · rw [lookup_entries_put_self]
      cases n.entries.lookup key with
      | none => rfl
      | some m => exact ih (List.cons_ne_nil next l)

theorem directoryCountAll_filter (h : ∀ e ∈ entries, e.1 = key → e.2.isDirectory = false) :
    directoryCountAll (entries.filter fun e ↦ e.1 ≠ key) = directoryCountAll entries := by
  induction entries with
  | nil => rfl
  | cons e rest ih =>
    obtain ⟨k, n⟩ := e
    have hrest := ih fun e he ↦ h e (List.mem_cons_of_mem _ he)
    by_cases hk : k = key
    · have hn : n.isDirectory = false := h _ List.mem_cons_self hk
      have hcount : n.directoryCount = 0 := by
        cases n with
        | directory entries => cases hn
        | file content modified => rfl
        | link target => rfl
      rw [List.filter_cons_of_neg (by simpa using hk), hrest, directoryCountAll, hcount,
        Nat.zero_add]
    · rw [List.filter_cons_of_pos (by simpa using hk), directoryCountAll, directoryCountAll, hrest]

theorem directoryCountAll_map {f : Node → Node}
    (h : ∀ e ∈ entries, e.1 = key → (f e.2).directoryCount = e.2.directoryCount) :
    directoryCountAll (entries.map fun (k, n) ↦ if k = key then (k, f n) else (k, n)) =
      directoryCountAll entries := by
  induction entries with
  | nil => rfl
  | cons e rest ih =>
    obtain ⟨k, n⟩ := e
    have hrest := ih fun e he ↦ h e (List.mem_cons_of_mem _ he)
    rw [List.map_cons]
    dsimp only
    by_cases hk : k = key
    · rw [if_pos hk, directoryCountAll, directoryCountAll, hrest, h _ List.mem_cons_self hk]
    · rw [if_neg hk, directoryCountAll, directoryCountAll, hrest]

theorem directoryCount_put_none (h : n.Ordered) (hl : ∀ m ∈ n.at? l, m.isDirectory = false) :
    (n.put none l).directoryCount = n.directoryCount := by
  induction l generalizing n with
  | nil => cases n <;> rfl
  | cons key l ih =>
    cases n with
    | file content modified => cases l <;> rfl
    | link target => cases l <;> rfl
    | directory entries =>
      obtain ⟨hsorted, hall⟩ := ordered_directory.1 h
      have hat {e : String × Node} (he : e ∈ entries) (hk : e.1 = key) :
          ∀ m ∈ e.2.at? l, m.isDirectory = false := by
        intro m hm
        refine hl m (Option.mem_def.2 ?_)
        change (entries.lookup key).bind (at? l) = some m
        rw [← hk, Keyed.lookup_of_mem hsorted.nodup he]
        exact hm
      obtain _ | ⟨next, l⟩ := l
      · exact congrArg (· + 1) (directoryCountAll_filter fun e he hk ↦ hat he hk e.2 rfl)
      · exact congrArg (· + 1) (directoryCountAll_map fun e he hk ↦ ih (hall e he) (hat he hk))

end Node

namespace FileTree

variable {t t' : FileTree} {l here : Location}

def avoiding (l : Location) : Visit := fun m _ ↦ m ≠ l

variable (hl : l ≠ []) (hsame : ∀ m, ¬l <+: m → t'.kind? m = t.kind? m) (hgone : t'.kind? l = none)

include hl hsame hgone

/-- Without an entry, paths lead where they lead if the entry may not be visited. -/
theorem follow_frame {jump jump' : Location → List String → Except FileError Location}
    (hjump : ∀ here pieces, ¬l <+: here →
      (jump here pieces).toOption = (jump' here pieces).toOption)
    (pieces : List String) {here : Location} (hhere : ¬l <+: here) :
    (follow t (avoiding l) jump here pieces).toOption =
      (follow t' (fun _ _ ↦ true) jump' here pieces).toOption := by
  induction pieces generalizing here with
  | nil => rfl
  | cons piece rest ih =>
    have hup : ¬l <+: here.dropLast := fun h ↦ hhere (h.trans here.dropLast_prefix)
    have hnext (h : here ++ [piece] ≠ l) : ¬l <+: here ++ [piece] := fun hp ↦
      (List.prefix_concat_iff.1 hp).elim (fun he ↦ h he.symm) hhere
    have horigin (target : String) : ¬l <+: origin here target := by
      unfold origin
      split
      · exact fun h ↦ hl (List.prefix_nil.1 h)
      · exact hhere
    rw [follow_cons, follow_cons, hsame here hhere]
    split
    · split
      · exact ih hhere
      split
      · exact ih hup
      split
      · rfl
      -- at the entry itself neither look-up goes on; anywhere else they make the same step
      by_cases hpast : here ++ [piece] = l
      · rw [hpast, hgone]
        simp only [avoiding, ne_eq, not_true_eq_false, decide_false, Bool.false_eq_true,
          ↓reduceIte]
        split <;> rfl
      · rw [hsame _ (hnext hpast)]
        simp only [avoiding, hpast, ne_eq, not_false_eq_true, decide_true, ↓reduceIte]
        split
        · exact hjump _ _ (horigin _)
        · exact ih (hnext hpast)
        · rfl
    · rfl
    · rfl

theorem followLinks_frame (links : Nat) (pieces : List String) {here : Location}
    (hhere : ¬l <+: here) :
    (followLinks t (avoiding l) links here pieces).toOption =
      (followLinks t' (fun _ _ ↦ true) links here pieces).toOption := by
  induction links generalizing here pieces with
  | zero => exact follow_frame hl hsame hgone (fun _ _ _ ↦ rfl) pieces hhere
  | succ links ih => exact follow_frame hl hsame hgone (fun _ pieces h ↦ ih pieces h) pieces hhere

omit hl hsame hgone

theorem followLinks_error {visit : Visit} {links : Nat} {pieces : List String} (hp : pieces ≠ [])
    (hhere : t.kind? here ≠ some .directory) :
    (followLinks t visit links here pieces).toOption = none := by
  obtain ⟨piece, rest, rfl⟩ := List.exists_cons_of_ne_nil hp
  cases links <;>
  · rw [followLinks, follow_cons]
    split
    · contradiction
    · rfl
    · rfl

theorem piecesOf_append (p q : String) : piecesOf (p ++ "/" ++ q) =
    piecesOf p ++ piecesOf q := by
  have hchars : (p ++ "/" ++ q).toList = p.toList ++ '/' :: q.toList := by simp
  rw [piecesOf, hchars, Text.pieces_append, List.map_append]
  rfl

/-- Whether a path is looked up without coming past a location: to forbid it changes nothing. -/
def Avoids (t : FileTree) (l : Location) (path : String) : Prop :=
  followLinks t (avoiding l) maxLinks (origin t.workingDirectory path) (piecesOf path) =
    t.walk path (piecesOf path)

theorem kind?_remove {m : Location} (h : ¬l <+: m) : (t.remove l).kind? m = t.kind? m :=
  Node.kind_at?_put h

theorem at?_below {m : Location} (h : l <+: m) (hfile : ∀ n ∈ t.at? l, n.isDirectory = false)
    (hne : l ≠ m) : t.at? m = none := by
  obtain ⟨_ | ⟨name, rest⟩, rfl⟩ := h
  · exact absurd (List.append_nil l).symm hne
  rw [at?, Node.at?_append]
  change (t.at? l).bind _ = none
  cases hn : t.at? l with
  | none => rfl
  | some n =>
    have := hfile n hn
    cases n with
    | directory entries => cases this
    | file content modified => rfl
    | link target => rfl

theorem kind?_below {m : Location} (h : l <+: m)
    (hfile : ∀ n ∈ t.at? l, n.isDirectory = false) : t.kind? m ≠ some .directory := by
  intro hm
  obtain ⟨n, hn, hkind⟩ := Option.map_eq_some_iff.1 hm
  by_cases hne : l = m
  · have hdir := hfile n (hne ▸ hn)
    cases n with
    | directory entries => cases hdir
    | file content modified => cases hkind
    | link target => cases hkind
  · rw [at?_below h hfile hne] at hn
    cases hn

theorem at?_remove_below (hl : l ≠ []) {m : Location} (h : l <+: m) :
    (t.remove l).at? m = none := by
  have hgone : (t.remove l).at? l = none := Node.at?_put_none hl
  by_cases hne : l = m
  · rw [← hne, hgone]
  · refine at?_below h ?_ hne
    rw [hgone]
    rintro n ⟨⟩

theorem kind?_remove_below (hl : l ≠ []) {m : Location} (h : l <+: m) :
    (t.remove l).kind? m = none := by
  rw [kind?, at?_remove_below hl h]
  rfl

theorem walk_remove (hl : l ≠ []) (hfile : ∀ n ∈ t.at? l, n.isDirectory = false) {path : String}
    (h : t.Avoids l path) : ((t.remove l).walk path (piecesOf path)).toOption =
      (t.walk path (piecesOf path)).toOption := by
  by_cases hstart : l <+: origin t.workingDirectory path
  · have hnone : (t.walk path (piecesOf path)).toOption = none :=
      followLinks_error (piecesOf_ne_nil path) (kind?_below hstart hfile)
    have hgone : (t.remove l).kind? (origin t.workingDirectory path) ≠ some .directory := by
      rw [kind?_remove_below hl hstart]
      nofun
    exact (followLinks_error (piecesOf_ne_nil path) hgone).trans hnone.symm
  · rw [← h]
    exact (followLinks_frame hl (fun m ↦ kind?_remove)
      (kind?_remove_below hl (List.prefix_refl l)) maxLinks _ hstart).symm

theorem checkedPieces_cases (path : String) :
    (∃ e, checkedPieces path = .error e) ∨ checkedPieces path = .ok (piecesOf path) := by
  unfold checkedPieces namedPieces
  split
  · exact .inl ⟨_, rfl⟩
  split
  · exact .inl ⟨_, rfl⟩
  by_cases hlong : isTooLong path
  · exact .inl ⟨.nameTooLong, if_pos hlong⟩
  · exact .inr (if_neg hlong)

theorem resolve_eq_ok {path : String} : t.resolve path = .ok l ↔
    checkedPieces path = .ok (piecesOf path) ∧ t.walk path (piecesOf path) = .ok l := by
  constructor
  · intro h
    obtain ⟨pieces, hpieces, hl⟩ := exists_of_bind_ok h
    obtain ⟨e, he⟩ | hok := checkedPieces_cases path
    · cases he.symm.trans hpieces
    · exact ⟨hok, Except.ok.inj (hok.symm.trans hpieces) ▸ hl⟩
  · rintro ⟨hok, hl⟩
    rw [resolve, hok]
    exact hl

theorem walk_of_resolve {path : String} (h : t.resolve path = .ok l) :
    t.walk path (piecesOf path) = .ok l := (resolve_eq_ok.1 h).2

/-- Paths that avoid an entry lead where they led once it has been taken away. -/
theorem resolve_remove (hl : l ≠ []) (hfile : ∀ n ∈ t.at? l, n.isDirectory = false) {path : String}
    (h : t.Avoids l path) : ((t.remove l).resolve path).toOption = (t.resolve path).toOption := by
  unfold resolve
  obtain ⟨e, he⟩ | hok := checkedPieces_cases path
  · simp only [he, bind, Except.bind]
  · simp only [hok, bind, Except.bind]
    exact walk_remove hl hfile h

end FileTree

end ActionCatalog
