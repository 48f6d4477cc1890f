import ActionCatalog.Proofs.FileTree.Removal

namespace ActionCatalog

namespace Node

mutual

def decEq : (n m : Node) → Decidable (n = m)
  | file content modified, file content' modified' =>
    decidable_of_iff (content = content' ∧ modified = modified') (by simp)
  | link target, link target' => decidable_of_iff (target = target') (by simp)
  | directory entries, directory entries' =>
    match decEqEntries entries entries' with
    | .isTrue h => .isTrue (by rw [h])
    | .isFalse h => .isFalse (by simp [h])
  | file _ _, directory _ | file _ _, link _ | directory _, file _ _ | directory _, link _
  | link _, file _ _ | link _, directory _ => .isFalse (by simp)

def decEqEntries : (entries entries' : List (String × Node)) → Decidable (entries = entries')
  | [], [] => .isTrue rfl
  | (name, n) :: rest, (name', n') :: rest' =>
    if hname : name = name' then
      match decEq n n', decEqEntries rest rest' with
      | .isTrue h, .isTrue h' => .isTrue (by rw [hname, h, h'])
      | .isFalse h, _ => .isFalse (by simp [h])
      | _, .isFalse h => .isFalse (by simp [h])
    else .isFalse (by simp [hname])
  | [], _ :: _ | _ :: _, [] => .isFalse (by simp)

end

instance : DecidableEq Node := decEq

/-- Whether there are the same nodes in two places, or a directory in either. -/
def Alike (n n' : Option Node) : Prop :=
  n = n' ∨ n.map kind = some .directory ∧ n'.map kind = some .directory

variable {o o' : Option Node}

theorem Alike.symm (h : Alike o o') : Alike o' o := h.imp Eq.symm And.symm

theorem Alike.kind (h : Alike o o') : o.map Node.kind = o'.map Node.kind := by
  rcases h with rfl | ⟨h, h'⟩
  · rfl
  · rw [h, h']

theorem eq_of_not_directory {n n' : Node} (h : Alike (some n) (some n'))
    (hn : n.kind ≠ .directory) : n = n' := by
  rcases h with h | ⟨h, -⟩
  · exact Option.some.inj h
  · exact absurd (Option.some.inj h) hn

theorem eq_of_alike_below (halike : ∀ l, Alike (o.bind (at? l)) (o'.bind (at? l)))
    (hnodes : ∀ n ∈ o, ∀ n' ∈ o', (∀ l, Alike (n.at? l) (n'.at? l)) → n = n') : o = o' := by
  have hkind := (halike []).kind
  cases o with
  | none =>
    cases o' with
    | none => rfl
    | some n' => cases hkind
  | some n =>
    cases o' with
    | none => cases hkind
    | some n' => exact congrArg some (hnodes n rfl n' rfl halike)

/-- Nodes are the same if they look alike in every place. -/
theorem eq_of_alike : {n n' : Node} → n.Ordered → n'.Ordered →
    (∀ l, Alike (n.at? l) (n'.at? l)) → n = n'
  | .file _ _, _, _, _, halike => eq_of_not_directory (halike []) nofun
  | .link _, _, _, _, halike => eq_of_not_directory (halike []) nofun
  | .directory _, .file _ _, _, _, halike => nomatch (halike []).kind
  | .directory _, .link _, _, _, halike => nomatch (halike []).kind
  | .directory entries, .directory entries', hn, hn', halike => by
    obtain ⟨hsorted, hall⟩ := ordered_directory.1 hn
    obtain ⟨hsorted', hall'⟩ := ordered_directory.1 hn'
    refine congrArg directory (Keyed.eq_of_lookup hsorted hsorted' fun name ↦ ?_)
    refine eq_of_alike_below (fun l ↦ halike (name :: l)) fun m hm m' hm' halike ↦ ?_
    have he := Keyed.mem_of_lookup hm
    exact eq_of_alike (hall _ he) (hall' _ (Keyed.mem_of_lookup hm')) halike
termination_by n => sizeOf n
decreasing_by
  have hsize := List.sizeOf_lt_of_mem he
  simp only [Prod.mk.sizeOf_spec, Node.directory.sizeOf_spec] at hsize ⊢
  omega

end Node

namespace FileTree

variable {t t' : FileTree} {l m here : Location} {pieces : List String}

def AgreeAt (t t' : FileTree) (l : Location) : Prop := Node.Alike (t.at? l) (t'.at? l)

theorem AgreeAt.symm (h : t.AgreeAt t' l) : t'.AgreeAt t l := Node.Alike.symm h

theorem AgreeAt.kind (h : t.AgreeAt t' l) : t.kind? l = t'.kind? l := Node.Alike.kind h

theorem at?_eq_of_agree (ht : t.Ordered) (ht' : t'.Ordered) (h : ∀ m, l <+: m → t.AgreeAt t' m) :
    t.at? l = t'.at? l := by
  refine Node.eq_of_alike_below (fun rest ↦ ?_) fun n hn n' hn' ↦
    Node.eq_of_alike (ht.at? hn) (ht'.at? hn')
  have hagree := h (l ++ rest) (List.prefix_append l rest)
  rwa [AgreeAt, at?, at?, Node.at?_append, Node.at?_append] at hagree

theorem kind?_above (h : t.kind? m = some .directory) (hp : l <+: m) :
    t.kind? l = some .directory := by
  obtain ⟨rest, rfl⟩ := hp
  obtain ⟨n, hn, hkind⟩ := Option.map_eq_some_iff.1 h
  rw [at?, Node.at?_append] at hn
  obtain ⟨n', hn', hrest⟩ := Option.bind_eq_some_iff.1 hn
  have hdirectory : n'.kind = .directory := by
    obtain _ | ⟨name, rest⟩ := rest
    · rw [Option.some.inj hrest, hkind]
    · cases n' with
      | directory entries => rfl
      | file content modified => cases hrest
      | link target => cases hrest
  rw [kind?, at?, hn', Option.map_some, hdirectory]

def StaysDirectory (t t' : FileTree) (l : Location) : Prop :=
  t.kind? l = some .directory → t'.kind? l = some .directory

theorem AgreeAt.staysDirectory (h : t.AgreeAt t' l) : t.StaysDirectory t' l :=
  fun hl ↦ h.kind ▸ hl

/-- A path that leads somewhere without coming past a difference leads there in the other tree. -/
theorem follow_agree {jump jump' : Location → List String → Except FileError Location}
    {jumpAvoiding : Location → Location → List String → Except FileError Location}
    (hjump : ∀ here pieces, t.StaysDirectory t' here → jump here pieces = .ok m →
      (∀ l, ¬t.AgreeAt t' l → jumpAvoiding l here pieces = .ok m) → jump' here pieces = .ok m)
    (hhere : t.StaysDirectory t' here) (hm : follow t (fun _ _ ↦ true) jump here pieces = .ok m)
    (havoid : ∀ l, ¬t.AgreeAt t' l →
      follow t (avoiding l) (jumpAvoiding l) here pieces = .ok m) :
    follow t' (fun _ _ ↦ true) jump' here pieces = .ok m := by
  induction pieces generalizing here with
  | nil => exact hm
  | cons piece rest ih =>
    obtain ⟨move, hmoves, hm⟩ := exists_of_follow hm
    simp only [hmoves.follow] at havoid
    -- where the trees differ the look-up may not come past
    have hagree (hpast : ∀ l, ¬t.AgreeAt t' l → avoiding l (here ++ [piece]) rest = true) :
        t.AgreeAt t' (here ++ [piece]) := by
      by_contra hdiffer
      exact absurd rfl (of_decide_eq_true (hpast _ hdiffer))
    cases hmoves with
    | idle hd hidle =>
      rw [(Moves.idle (hhere hd) hidle).follow]
      exact ih hhere hm havoid
    | up hd =>
      rw [(Moves.up (hhere hd)).follow]
      exact ih (fun _ ↦ kind?_above (hhere hd) here.dropLast_prefix) hm havoid
    | enter hd hname hkind hlink =>
      have hnext := hagree fun l hl ↦ (proceed_enter.1 (havoid l hl)).1
      rw [(Moves.enter (hhere hd) hname (hnext.kind ▸ hkind) hlink).follow]
      exact ih hnext.staysDirectory hm fun l hl ↦ (proceed_enter.1 (havoid l hl)).2
    | jump hd hname hkind =>
      have hnext := hagree fun l hl ↦ (proceed_jump.1 (havoid l hl)).1
      rw [(Moves.jump (hhere hd) hname (hnext.kind ▸ hkind)).follow]
      refine hjump _ _ ?_ hm fun l hl ↦ (proceed_jump.1 (havoid l hl)).2
      unfold origin
      split
      · exact fun _ ↦ kind?_above (hhere hd) List.nil_prefix
      · exact hhere

theorem followLinks_agree (links : Nat) (hhere : t.StaysDirectory t' here)
    (hm : followLinks t (fun _ _ ↦ true) links here pieces = .ok m)
    (havoid : ∀ l, ¬t.AgreeAt t' l → followLinks t (avoiding l) links here pieces = .ok m) :
    followLinks t' (fun _ _ ↦ true) links here pieces = .ok m := by
  induction links generalizing here pieces with
  | zero =>
    refine follow_agree (fun here pieces _ hjump ↦ ?_) hhere hm havoid
    cases hjump
  | succ links ih => exact follow_agree (fun _ _ h hm havoid ↦ ih h hm havoid) hhere hm havoid

end FileTree

end ActionCatalog
