import ActionCatalog.Proofs.Text.Pieces
import ActionCatalog.UnixPath
import Mathlib.Data.List.Basic

namespace ActionCatalog.UnixPath

/-- Whether a component is what its own text is read as between slashes, so that it may stand after
others. This leaves out the root and the single dot. -/
structure Component.Inner (c : Component) : Prop where
  read : componentOf? c.text.toList = some c
  no_slash : '/' ∉ c.text.toList

/-- The lists that are the components of a path: only the first one may be a root or a single
dot. -/
inductive WellPlaced : List Component → Prop
  | inner {cs : List Component} (h : ∀ c ∈ cs, c.Inner) : WellPlaced cs
  | root {cs : List Component} (h : ∀ c ∈ cs, c.Inner) : WellPlaced (.root :: cs)
  | current {cs : List Component} (h : ∀ c ∈ cs, c.Inner) : WellPlaced (.current :: cs)

def firstComponent (piece : List Char) : Component :=
  if piece = [] then .root
  else if piece = ['.'] then .current
  else if piece = ['.', '.'] then .parent
  else .name (String.ofList piece)

def innerComponents (name : String) : List Component :=
  (Text.pieces '/' name.toList).filterMap componentOf?

variable {piece first : List Char} {rest : List (List Char)} {c : Component}
  {as bs cs : List Component} {root path name p q : String}

theorem text_of_componentOf (h : componentOf? piece = some c) : c.text.toList = piece := by
  unfold componentOf? at h
  split at h
  · cases h
  split at h
  · rename_i hup
    cases h
    exact hup.symm
  · cases h
    exact String.toList_ofList

theorem inner_of_componentOf (hslash : '/' ∉ piece) (h : componentOf? piece = some c) :
    c.Inner := by
  have htext := text_of_componentOf h
  constructor
  · rw [htext]
    exact h
  · rw [htext]
    exact hslash

theorem inner_of_mem (hslash : ∀ piece ∈ rest, '/' ∉ piece)
    (h : c ∈ rest.filterMap componentOf?) : c.Inner := by
  obtain ⟨piece, hpiece, hc⟩ := List.mem_filterMap.1 h
  exact inner_of_componentOf (hslash piece hpiece) hc

theorem componentOf_eq (hempty : piece ≠ []) (hhere : piece ≠ ['.']) :
    componentOf? piece = some (firstComponent piece) := by
  unfold componentOf? firstComponent
  rw [if_neg (by simp [hempty, hhere]), if_neg hempty, if_neg hhere]
  split <;> rfl

theorem components_of_pieces (hpath : path ≠ "")
    (h : Text.pieces '/' path.toList = first :: rest) :
    components path = firstComponent first :: rest.filterMap componentOf? := by
  -- only of an empty path is the one piece empty
  have hrest : first = [] → rest ≠ [] := by
    rintro rfl rfl
    cases hchars : path.toList with
    | nil => exact hpath (by simpa using hchars)
    | cons c cs =>
      rw [hchars, Text.pieces] at h
      split at h
      · exact Text.pieces_ne_nil cs (List.cons.inj h).2
      · split at h <;> cases h
  rw [components, h]
  dsimp only
  unfold firstComponent componentOf?
  by_cases hempty : first = []
  · simp [hempty, hrest hempty]
  by_cases hhere : first = ['.']
  · simp [hhere]
  by_cases hup : first = ['.', '.']
  · simp [hup]
  · simp [hempty, hhere, hup]

theorem exists_pieces (path : String) : ∃ first rest,
    Text.pieces '/' path.toList = first :: rest :=
  List.exists_cons_of_ne_nil (Text.pieces_ne_nil path.toList)

theorem components_eq_nil : components path = [] ↔ path = "" := by
  constructor
  · intro h
    by_contra hpath
    obtain ⟨first, rest, hpieces⟩ := exists_pieces path
    rw [components_of_pieces hpath hpieces] at h
    cases h
  · rintro rfl
    rfl

theorem components_append (path name : String) : components (path ++ "/" ++ name) =
    (if path = "" then [.root] else components path) ++ innerComponents name := by
  have hchars : (path ++ "/" ++ name).toList = path.toList ++ '/' :: name.toList := by simp
  have hne : path ++ "/" ++ name ≠ "" := by
    intro h
    simp [h] at hchars
  have hpieces : Text.pieces '/' (path ++ "/" ++ name).toList =
      Text.pieces '/' path.toList ++ Text.pieces '/' name.toList := by
    rw [hchars, Text.pieces_append]
  by_cases hpath : path = ""
  · subst hpath
    rw [if_pos rfl, components_of_pieces hne hpieces]
    rfl
  · obtain ⟨first, rest, hfirst⟩ := exists_pieces path
    rw [hfirst, List.cons_append] at hpieces
    rw [if_neg hpath, components_of_pieces hne hpieces, components_of_pieces hpath hfirst,
      List.filterMap_append, innerComponents, List.cons_append]

theorem wellPlaced_components (path : String) : WellPlaced (components path) := by
  by_cases hpath : path = ""
  · rw [components_eq_nil.2 hpath]
    exact .inner (List.forall_mem_nil _)
  obtain ⟨first, rest, hpieces⟩ := exists_pieces path
  have hslash : ∀ piece ∈ first :: rest, '/' ∉ piece := by
    intro piece hpiece
    exact (Text.of_mem_pieces (hpieces ▸ hpiece)).1
  obtain ⟨hfirst, hrest⟩ := List.forall_mem_cons.1 hslash
  have hinner : ∀ c ∈ rest.filterMap componentOf?, c.Inner := fun c ↦ inner_of_mem hrest
  rw [components_of_pieces hpath hpieces]
  by_cases hempty : first = []
  · subst hempty
    exact .root hinner
  by_cases hhere : first = ['.']
  · subst hhere
    exact .current hinner
  · have hread := componentOf_eq hempty hhere
    exact .inner (List.forall_mem_cons.2 ⟨inner_of_componentOf hfirst hread, hinner⟩)

theorem WellPlaced.inner_of_append (h : WellPlaced (as ++ bs)) (hne : as ≠ []) :
    ∀ c ∈ bs, c.Inner := by
  obtain ⟨a, as, rfl⟩ := List.exists_cons_of_ne_nil hne
  intro c hc
  have hmem : c ∈ as ++ bs := List.mem_append_right as hc
  rw [List.cons_append] at h
  generalize hcs : a :: (as ++ bs) = cs at h
  cases h with
  | inner h => exact h c (hcs ▸ List.mem_cons_of_mem a hmem)
  | root h => exact h c ((List.cons.inj hcs).2 ▸ hmem)
  | current h => exact h c ((List.cons.inj hcs).2 ▸ hmem)

theorem WellPlaced.of_append (h : WellPlaced (as ++ bs)) : WellPlaced bs := by
  by_cases hne : as = []
  · rwa [hne, List.nil_append] at h
  · exact .inner (h.inner_of_append hne)

theorem WellPlaced.of_append_left (h : WellPlaced (as ++ bs)) : WellPlaced as := by
  cases as with
  | nil => exact .inner (List.forall_mem_nil _)
  | cons a as =>
    have hsplit : WellPlaced ([a] ++ (as ++ bs)) := h
    have hinner : ∀ c ∈ as, c.Inner := fun c hc ↦
      hsplit.inner_of_append (List.cons_ne_nil a []) c (List.mem_append_left bs hc)
    rw [List.cons_append] at h
    generalize hcs : a :: (as ++ bs) = cs at h
    cases h with
    | inner h => exact .inner (List.forall_mem_cons.2 ⟨h a (hcs ▸ List.mem_cons_self), hinner⟩)
    | root h =>
      obtain rfl := (List.cons.inj hcs).1
      exact .root hinner
    | current h =>
      obtain rfl := (List.cons.inj hcs).1
      exact .current hinner

theorem innerComponents_joined (h : ∀ c ∈ cs, c.Inner) :
    innerComponents ("/".intercalate (cs.map Component.text)) = cs := by
  by_cases hne : cs = []
  · subst hne
    rfl
  have hpieces : Text.pieces '/' ("/".intercalate (cs.map Component.text)).toList =
      cs.map fun c ↦ c.text.toList := by
    rw [String.toList_intercalate, List.map_map]
    refine Text.pieces_intercalate (fun piece hpiece ↦ ?_) (by simpa using hne)
    obtain ⟨c, hc, rfl⟩ := List.mem_map.1 hpiece
    exact (h c hc).no_slash
  have hread : ∀ c ∈ cs, componentOf? c.text.toList = some c := fun c hc ↦ (h c hc).read
  rw [innerComponents, hpieces, List.filterMap_map]
  exact (List.filterMap_congr hread).trans List.filterMap_some

theorem components_text (h : c.Inner) : components c.text = [c] := by
  have hread := h.read
  have hempty : c.text.toList ≠ [] := by
    intro hc
    rw [hc] at hread
    cases hread
  have hhere : c.text.toList ≠ ['.'] := by
    intro hc
    rw [hc] at hread
    cases hread
  rw [componentOf_eq hempty hhere] at hread
  rw [components_of_pieces (by simpa using hempty) (Text.pieces_of_notMem h.no_slash),
    Option.some.inj hread, List.filterMap_nil]

theorem components_joined (h : WellPlaced cs) :
    components ("/".intercalate (cs.map Component.text)) = cs := by
  -- a root before a slash gives two slashes, which still are one root
  have hjoined {c : Component} {cs : List Component} (hc : components c.text = [c])
      (hcs : ∀ c ∈ cs, c.Inner) :
      components ("/".intercalate ((c :: cs).map Component.text)) = c :: cs := by
    by_cases hne : cs = []
    · subst hne
      simpa using hc
    · have htext : c.text ≠ "" := by
        intro hempty
        rw [hempty] at hc
        cases hc
      rw [List.map_cons, String.intercalate_cons_of_ne_nil (by simpa using hne),
        components_append, if_neg htext, hc, innerComponents_joined hcs, List.singleton_append]
  cases h with
  | inner h =>
    cases cs with
    | nil => rfl
    | cons c cs =>
      obtain ⟨hc, hcs⟩ := List.forall_mem_cons.1 h
      exact hjoined (components_text hc) hcs
  | root h => exact hjoined rfl h
  | current h => exact hjoined rfl h

theorem components_ofComponents (h : WellPlaced cs) : components (ofComponents cs) = cs := by
  unfold ofComponents
  split
  · rename_i rest
    have hsplit : WellPlaced ([.root] ++ rest) := h
    have hinner : ∀ c ∈ rest, c.Inner := hsplit.inner_of_append (List.cons_ne_nil _ [])
    have htext (s : String) : "/" ++ s = "" ++ "/" ++ s := rfl
    rw [htext, components_append, if_pos rfl, innerComponents_joined hinner, List.singleton_append]
  · exact components_joined h

theorem isAbsolute_iff : isAbsolute path = true ↔ (components path).head? = some .root := by
  by_cases hpath : path = ""
  · subst hpath
    decide
  obtain ⟨first, rest, hpieces⟩ := exists_pieces path
  rw [components_of_pieces hpath hpieces, List.head?_cons, isAbsolute, beq_iff_eq]
  obtain ⟨c, cs, hcs⟩ := List.exists_cons_of_ne_nil (String.toList_eq_nil_iff.not.2 hpath)
  rw [hcs, Text.pieces] at hpieces
  rw [hcs, List.head?_cons, Option.some_inj, Option.some_inj]
  split at hpieces
  · rename_i hslash
    obtain rfl := (List.cons.inj hpieces).1
    exact iff_of_true hslash rfl
  · rename_i hslash
    have hfirst : first ≠ [] := by
      rintro rfl
      split at hpieces <;> cases hpieces
    refine iff_of_false hslash fun hroot ↦ ?_
    unfold firstComponent at hroot
    rw [if_neg hfirst] at hroot
    split at hroot
    · cases hroot
    · split at hroot <;> cases hroot

theorem innerComponents_eq (h : ∀ c ∈ components name, c.Inner) :
    innerComponents name = components name := by
  by_cases hname : name = ""
  · subst hname
    rfl
  obtain ⟨first, rest, hpieces⟩ := exists_pieces name
  rw [components_of_pieces hname hpieces] at h ⊢
  obtain ⟨hfirst, -⟩ := List.forall_mem_cons.1 h
  have hempty : first ≠ [] := by
    rintro rfl
    cases hfirst.read
  have hhere : first ≠ ['.'] := by
    rintro rfl
    cases hfirst.read
  rw [innerComponents, hpieces, List.filterMap_cons_some (componentOf_eq hempty hhere)]

theorem exists_join (hroot : root ≠ "") (hname : isAbsolute name = false) : ∃ outer,
    join root name = outer ++ "/" ++ name ∧ (root = outer ∨ root = outer ++ "/") := by
  rw [join, if_neg (by simp [hroot, hname])]
  split
  · rename_i hslash
    obtain ⟨cs, hcs⟩ := List.getLast?_eq_some_iff.1 hslash
    have hroot : root = String.ofList cs ++ "/" := String.toList_inj.1 (by simpa using hcs)
    exact ⟨String.ofList cs, congrArg (· ++ name) hroot, .inr hroot⟩
  · exact ⟨root, rfl, .inl rfl⟩

theorem components_join (hroot : root ≠ "") (h : ∀ c ∈ components name, c.Inner) :
    components (join root name) = components root ++ components name := by
  have habsolute : isAbsolute name = false := by
    by_contra hc
    have hinner := h _ (List.mem_of_mem_head? (isAbsolute_iff.1 (by simpa using hc)))
    cases hinner.read
  obtain ⟨outer, hjoin, hroot' | hroot'⟩ := exists_join hroot habsolute
  · rw [hjoin, components_append, ← hroot', if_neg hroot, innerComponents_eq h]
  · -- what follows the slash at the end of the root adds nothing to it
    have hempty := components_append outer ""
    rw [String.append_empty, ← hroot'] at hempty
    rw [hjoin, components_append, hempty, innerComponents_eq h]
    simp [innerComponents, Text.pieces, componentOf?]

theorem dropPrefix_eq_some : dropPrefix? bs cs = some as ↔ cs = bs ++ as := by
  induction bs generalizing cs with
  | nil => simp [dropPrefix?]
  | cons b bs ih =>
    cases cs with
    | nil => simp [dropPrefix?]
    | cons c cs =>
      rw [dropPrefix?]
      split
      · rename_i heq
        rw [ih, heq, List.cons_append, List.cons.injEq]
        simp
      · rename_i hne
        simp [Ne.symm hne]

theorem relativeName_eq_some : relativeName? root path = some name ↔
    ∃ cs, cs ≠ [] ∧ components path = components root ++ cs ∧
      name = "/".intercalate (cs.map Component.text) := by
  simp only [← dropPrefix_eq_some]
  unfold relativeName?
  cases dropPrefix? (components root) (components path) with
  | none => simp
  | some cs => cases cs <;> simp [eq_comm]

/-- Whatever is named below a root consists of the root and of what its name says. -/
theorem components_of_relativeName (h : relativeName? root path = some name) :
    components path = components root ++ components name := by
  obtain ⟨cs, -, hpath, rfl⟩ := relativeName_eq_some.1 h
  have hplaced := wellPlaced_components path
  rw [hpath] at hplaced ⊢
  rw [components_joined hplaced.of_append]

theorem samePath_iff : samePath p q = true ↔ components p = components q := by
  rw [samePath, beq_iff_eq]

theorem samePath_join (h : relativeName? root path = some name) :
    samePath (join root name) path = true := by
  rw [samePath_iff, components_of_relativeName h]
  -- below no root at all a name may be absolute or begin with a single dot
  by_cases hroot : root = ""
  · subst hroot
    simp [join, components_eq_nil.2 rfl]
  · have hplaced := wellPlaced_components path
    rw [components_of_relativeName h] at hplaced
    exact components_join hroot (hplaced.inner_of_append (components_eq_nil.not.2 hroot))

theorem relativeName_eq_none : relativeName? root path = none ↔
    ¬components root <+: components path ∨ samePath path root = true := by
  rw [Option.eq_none_iff_forall_ne_some, samePath_iff]
  constructor
  · intro h
    by_contra hboth
    obtain ⟨hbelow, hne⟩ := not_or.1 hboth
    obtain ⟨cs, hcs⟩ := not_not.1 hbelow
    refine h _ (relativeName_eq_some.2 ⟨cs, ?_, hcs.symm, rfl⟩)
    rintro rfl
    exact hne (by simpa using hcs.symm)
  · rintro h name hname
    obtain ⟨cs, hne, hcs, -⟩ := relativeName_eq_some.1 hname
    rcases h with h | h
    · exact h ⟨cs, hcs.symm⟩
    · rw [h] at hcs
      exact hne (by simpa using hcs)

/-- Names below a root tell paths apart that have other components and no others, they lead back
from the root to their paths, and only the paths below the root have one. -/
theorem relativeName_identifies (root : String) :
    (∀ p q a b, relativeName? root p = some a → relativeName? root q = some b →
      (a = b ↔ samePath p q = true)) ∧
    (∀ p a, relativeName? root p = some a → samePath (join root a) p = true) ∧
    ∀ p, relativeName? root p = none ↔
      ¬components root <+: components p ∨ samePath p root = true := by
  refine ⟨fun p q a b hp hq ↦ ?_, fun p a ↦ samePath_join, fun p ↦ relativeName_eq_none⟩
  rw [samePath_iff]
  constructor
  · rintro rfl
    -- either path consists of the root and of what the name says
    rw [components_of_relativeName hp, components_of_relativeName hq]
  · intro h
    have hsame : relativeName? root p = relativeName? root q := by
      rw [relativeName?, relativeName?, h]
    rw [hp, hq] at hsame
    exact Option.some.inj hsame

theorem relativeName_identifies_slashes :
    relativeName? "/c/" "/c//a/../x.json" = some "a/../x.json" ∧
      relativeName? "/c/" "/c/a/.././x.json/" = some "a/../x.json" ∧
      samePath "/c//a/../x.json" "/c/a/.././x.json/" = true ∧
      samePath (join "/c/" "a/../x.json") "/c//a/../x.json" = true := by
  have hp : relativeName? "/c/" "/c//a/../x.json" = some "a/../x.json" := by decide +kernel
  have hq : relativeName? "/c/" "/c/a/.././x.json/" = some "a/../x.json" := by decide +kernel
  obtain ⟨hsame, hjoin, -⟩ := relativeName_identifies "/c/"
  exact ⟨hp, hq, (hsame _ _ _ _ hp hq).1 rfl, hjoin _ _ hp⟩

end ActionCatalog.UnixPath
