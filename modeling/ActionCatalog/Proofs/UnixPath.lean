import ActionCatalog.Proofs.Corpus.LinkFree
import ActionCatalog.Proofs.UnixPath.RelativeNames

namespace ActionCatalog.UnixPath

open FileTree (IsFileName piecesOf)
open Corpus (nameText isPlainName isPlainName_iff piecesOf_nameText isAbsolute_nameText)

variable {l m r names : Location} {name path : String}

theorem isPlainName_of_isFileName (h : ∀ n ∈ l, IsFileName n) :
    ∀ n ∈ l, isPlainName n = true := fun n hn ↦
  isPlainName_iff.2 ⟨(h n hn).ne_nothing, (h n hn).ne_up, (h n hn).no_slash⟩

theorem inner_name (h : IsFileName name) : (Component.name name).Inner := by
  have hempty : name.toList ≠ [] := by simpa using h.ne_nothing
  have hhere : name.toList ≠ ['.'] := fun hc ↦ h.ne_here (String.toList_inj.1 hc)
  have hup : name.toList ≠ ['.', '.'] := fun hc ↦ h.ne_up (String.toList_inj.1 hc)
  constructor
  · simp [Component.text, componentOf?, hempty, hhere, hup]
  · exact h.no_slash

theorem inner_names (h : ∀ n ∈ l, IsFileName n) : ∀ c ∈ l.map Component.name, c.Inner :=
  List.forall_mem_map.2 fun n hn ↦ inner_name (h n hn)

theorem nameText_eq (l : Location) :
    nameText l = "/".intercalate ((l.map Component.name).map Component.text) := by
  rw [List.map_map]
  exact congrArg _ (List.map_id l).symm

theorem piecesOf_locationText (h : ∀ n ∈ l, IsFileName n) :
    piecesOf (locationText l) = "" :: if l = [] then [""] else l := by
  have htext : locationText l = "" ++ "/" ++ nameText l := rfl
  rw [htext, FileTree.piecesOf_append, piecesOf_nameText (isPlainName_of_isFileName h)]
  rfl

theorem components_locationText (h : ∀ n ∈ l, IsFileName n) :
    components (locationText l) = .root :: l.map .name := by
  have htext : locationText l = "" ++ "/" ++ nameText l := rfl
  rw [htext, components_append, if_pos rfl, nameText_eq, innerComponents_joined (inner_names h)]
  rfl

theorem components_nameText (h : ∀ n ∈ l, IsFileName n) :
    components (nameText l) = l.map .name := by
  rw [nameText_eq]
  exact components_joined (.inner (inner_names h))

theorem fileName_locationText (h : ∀ n ∈ l ++ [name], IsFileName n) :
    fileName? (locationText (l ++ [name])) = some name := by
  rw [fileName?, components_locationText h, List.map_append, ← List.cons_append, List.map_singleton,
    List.getLast?_concat]

theorem fileName_nameText (h : ∀ n ∈ l ++ [name], IsFileName n) :
    fileName? (nameText (l ++ [name])) = some name := by
  rw [fileName?, components_nameText h, List.map_append, List.map_singleton,
    List.getLast?_concat]

theorem parent_locationText (h : ∀ n ∈ l ++ [name], IsFileName n) :
    parent? (locationText (l ++ [name])) = some (locationText l) := by
  rw [parent?, components_locationText h, List.map_append, ← List.cons_append, List.map_singleton,
    List.getLast?_concat]
  dsimp only
  rw [List.dropLast_concat, ofComponents, List.map_map]
  exact congrArg (fun names ↦ some ("/" ++ "/".intercalate names)) (List.map_id l)

theorem getLast_locationText (h : ∀ n ∈ l, IsFileName n) (hne : l ≠ []) :
    (locationText l).toList.getLast? ≠ some '/' := by
  obtain ⟨rest, n, rfl⟩ := List.eq_nil_or_concat' l |>.resolve_left hne
  have hn := h n (by simp)
  have htext : ∃ before, locationText (rest ++ [n]) = before ++ n := by
    by_cases hrest : rest = []
    · exact ⟨"/", by rw [hrest, locationText, List.nil_append, String.intercalate_singleton]⟩
    · refine ⟨locationText rest ++ "/", ?_⟩
      rw [locationText, String.intercalate_append_of_ne_nil hrest (by simp),
        String.intercalate_singleton, locationText, String.append_assoc, String.append_assoc,
        String.append_assoc]
  obtain ⟨before, htext⟩ := htext
  have hempty : n.toList ≠ [] := by simpa using hn.ne_nothing
  rw [htext, String.toList_append, List.getLast?_append_of_ne_nil _ hempty]
  exact fun hlast ↦ hn.no_slash (List.mem_of_getLast? hlast)

theorem join_locationText (hr : ∀ n ∈ r, IsFileName n) (h : ∀ n ∈ names, IsFileName n)
    (hne : names ≠ []) : join (locationText r) (nameText names) = locationText (r ++ names) := by
  have habsolute := isAbsolute_nameText (isPlainName_of_isFileName h)
  have hempty : locationText r ≠ "" := by simp [locationText]
  rw [join, if_neg (by simp [habsolute, hempty])]
  by_cases hnil : r = []
  · subst hnil
    rfl
  · rw [if_neg (getLast_locationText hr hnil), locationText, locationText,
      String.intercalate_append_of_ne_nil hnil hne, nameText]
    simp only [String.append_assoc]

theorem name_injective : Function.Injective Component.name := fun _ _ ↦ Component.name.inj

theorem isSome_relativeName (hr : ∀ n ∈ r, IsFileName n) (hm : ∀ n ∈ m, IsFileName n) :
    (relativeName? (locationText r) (locationText m)).isSome = true ↔ r <+: m ∧ r ≠ m := by
  rw [Option.isSome_iff_ne_none, Ne, relativeName_eq_none, not_or, not_not, samePath_iff,
    components_locationText hr, components_locationText hm, List.prefix_cons_inj,
    List.prefix_map_iff_of_injective name_injective, List.cons_inj_right,
    (List.map_injective_iff.2 name_injective).eq_iff, eq_comm]

theorem locationText_injective (hr : ∀ n ∈ r, IsFileName n) (hm : ∀ n ∈ m, IsFileName n)
    (h : locationText r = locationText m) : r = m := by
  have hcomponents := congrArg components h
  rw [components_locationText hr, components_locationText hm] at hcomponents
  exact List.map_injective_iff.2 name_injective (List.cons.inj hcomponents).2

end ActionCatalog.UnixPath
