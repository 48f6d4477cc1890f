import ActionCatalog.Proofs.Text.Spans
import ActionCatalog.Basic
import Mathlib.Data.List.TakeWhile

namespace ActionCatalog.Text

variable {separator : Char} {cs ds p : List Char}

theorem pieces_eq (cs : List Char) : pieces separator cs = cs.splitOn separator := by
  induction cs with
  | nil => rfl
  | cons c cs ih =>
    rw [pieces, List.splitOn_cons_eq_if_modifyHead, ih]
    by_cases hc : c = separator
    · simp [hc]
    · obtain ⟨q, qs, hq⟩ := List.exists_cons_of_ne_nil (List.splitOn_ne_nil separator cs)
      simp [hc, hq]

theorem pieces_ne_nil (cs : List Char) : pieces separator cs ≠ [] := by
  rw [pieces_eq]
  exact List.splitOn_ne_nil separator cs

theorem pieces_append (cs ds : List Char) : pieces separator (cs ++ separator :: ds) =
    pieces separator cs ++ pieces separator ds := by
  simp only [pieces_eq, List.splitOn_append_cons_self]

theorem pieces_of_notMem (h : separator ∉ cs) : pieces separator cs = [cs] := by
  rw [pieces_eq, List.splitOn_eq_singleton h]

/-- Cutting undoes joining for pieces that have no separator. -/
theorem pieces_intercalate {ps : List (List Char)} (h : ∀ p ∈ ps, separator ∉ p) (hne : ps ≠ []) :
    pieces separator ([separator].intercalate ps) = ps := by
  rw [pieces_eq, List.splitOn_intercalate separator h hne]

theorem intercalate_pieces (cs : List Char) :
    [separator].intercalate (pieces separator cs) = cs := by
  rw [pieces_eq, List.intercalate_splitOn]

theorem of_mem_pieces (h : p ∈ pieces separator cs) : separator ∉ p ∧ p ⊆ cs := by
  induction cs generalizing p with
  | nil =>
    obtain rfl := List.mem_singleton.1 h
    exact ⟨List.not_mem_nil, List.nil_subset _⟩
  | cons c cs ih =>
    have hlater {q : List Char} (hq : q ∈ pieces separator cs) :
        separator ∉ q ∧ q ⊆ c :: cs :=
      (ih hq).imp_right fun hsub ↦ List.subset_cons_of_subset c hsub
    rw [pieces] at h
    split at h
    · rcases List.mem_cons.1 h with rfl | h
      · exact ⟨List.not_mem_nil, List.nil_subset _⟩
      · exact hlater h
    rename_i hne
    cases hp : pieces separator cs with
    | nil =>
      rw [hp] at h
      obtain rfl := List.mem_singleton.1 h
      simpa using Ne.symm hne
    | cons q qs =>
      rw [hp] at h hlater
      rcases List.mem_cons.1 h with rfl | h
      · obtain ⟨hseparator, hsub⟩ := hlater List.mem_cons_self
        exact ⟨by simpa using ⟨Ne.symm hne, hseparator⟩, by simpa using hsub⟩
      · exact hlater (List.mem_cons_of_mem q h)

theorem ne_of_notMem (h : separator ∉ cs) : ∀ c ∈ cs, decide (c ≠ separator) = true := by
  intro c hc
  simpa using ne_of_mem_of_not_mem hc h

theorem before_append (h : separator ∉ cs) : before separator (cs ++ separator :: ds) = cs :=
  takeWhile_span (ne_of_notMem h) (by simp)

theorem before_of_notMem (h : separator ∉ cs) : before separator cs = cs :=
  List.takeWhile_eq_self_iff.2 (ne_of_notMem h)

theorem afterFirst_append (h : separator ∉ cs) :
    afterFirst separator (cs ++ separator :: ds) = ds := by
  rw [afterFirst, dropWhile_span (ne_of_notMem h) (by simp)]

theorem afterFirst_of_notMem (h : separator ∉ cs) : afterFirst separator cs = cs := by
  rw [afterFirst, List.dropWhile_eq_nil_iff.2 (ne_of_notMem h)]

theorem afterLast_append (h : separator ∉ ds) :
    afterLast separator (cs ++ separator :: ds) = ds := by
  -- the last separator is the first one from behind
  have hreverse : (cs ++ separator :: ds).reverse = ds.reverse ++ separator :: cs.reverse := by simp
  have hds : before separator (ds.reverse ++ separator :: cs.reverse) = ds.reverse :=
    before_append (by simpa using h)
  rw [afterLast, hreverse]
  exact List.reverse_eq_iff.2 hds

theorem afterLast_of_notMem (h : separator ∉ cs) : afterLast separator cs = cs := by
  have hcs : before separator cs.reverse = cs.reverse := before_of_notMem (by simpa using h)
  exact List.reverse_eq_iff.2 hcs

end ActionCatalog.Text
