import ActionCatalog.Proofs.Text.Spans
import Mathlib.Data.List.DropRight

namespace ActionCatalog.Text

variable {cs ds : List Char} {c : Char}

/-- Whether the second text is the first one with blanks around it. -/
def Padded (cs ds : List Char) : Prop :=
  ∃ before after, (∀ c ∈ before, isBlank c = true) ∧ (∀ c ∈ after, isBlank c = true) ∧
    ds = before ++ (cs ++ after)

theorem notMem_of_blank (hc : isBlank c = false) (h : ∀ c ∈ cs, isBlank c = true) : c ∉ cs := by
  intro hmem
  rw [h c hmem] at hc
  cases hc

theorem Padded.subset (h : Padded cs ds) : cs ⊆ ds := by
  obtain ⟨before, after, -, -, rfl⟩ := h
  intro c hc
  simp [hc]

theorem trimList_eq (cs : List Char) : trimList cs = (skipBlanks cs).rdropWhile isBlank := rfl

theorem trimList_eq_nil : trimList cs = [] ↔ ∀ c ∈ cs, isBlank c = true := by
  rw [trimList_eq, List.rdropWhile_eq_nil_iff, skipBlanks, ← List.dropWhile_eq_nil_iff,
    List.dropWhile_idempotent, List.dropWhile_eq_nil_iff]

theorem trim_eq_empty {s : String} : trim s = "" ↔ ∀ c ∈ s.toList, isBlank c = true := by
  rw [trim, String.ofList_eq_empty_iff, trimList_eq_nil]

theorem padded_rdropWhile (cs : List Char) : Padded (cs.rdropWhile isBlank) cs := by
  refine ⟨[], cs.rtakeWhile isBlank, List.forall_mem_nil _, fun c ↦ List.mem_rtakeWhile_imp, ?_⟩
  exact List.rdropWhile_append_rtakeWhile.symm

theorem padded_trimList (cs : List Char) : Padded (trimList cs) cs := by
  refine ⟨cs.takeWhile isBlank, (skipBlanks cs).rtakeWhile isBlank,
    forall_mem_takeWhile isBlank cs, fun c ↦ List.mem_rtakeWhile_imp, ?_⟩
  rw [trimList_eq, List.rdropWhile_append_rtakeWhile]
  exact List.takeWhile_append_dropWhile.symm

theorem trimList_of_padded (h : Padded cs ds) : trimList ds = trimList cs := by
  obtain ⟨before, after, hbefore, hafter, rfl⟩ := h
  have hskip : skipBlanks (before ++ (cs ++ after)) = skipBlanks (cs ++ after) :=
    List.dropWhile_append_of_pos hbefore
  have hafter' : ∀ c ∈ after.reverse, isBlank c = true := by simpa using hafter
  rw [trimList, trimList, hskip]
  simp only [skipBlanks, List.dropWhile_append, List.isEmpty_iff]
  split
  · rename_i hcs
    rw [hcs, List.dropWhile_eq_nil_iff.2 hafter]
  · rw [List.reverse_append, List.dropWhile_append_of_pos hafter']

theorem trimList_trimList (cs : List Char) : trimList (trimList cs) = trimList cs :=
  (trimList_of_padded (padded_trimList cs)).symm

@[simp] theorem trim_trim (s : String) : trim (trim s) = trim s := by
  unfold trim
  rw [String.toList_ofList, trimList_trimList]

theorem skipBlanks_append_cons (hc : isBlank c = false) :
    skipBlanks (cs ++ c :: ds) = skipBlanks cs ++ c :: ds := by
  simp only [skipBlanks, List.dropWhile_append, List.isEmpty_iff]
  split
  · rename_i hcs
    rw [hcs, List.nil_append, List.dropWhile_cons_of_neg (by simp [hc])]
  · rfl

theorem trimList_append_cons (hc : isBlank c = false) :
    trimList (cs ++ c :: ds) = skipBlanks cs ++ c :: ds.rdropWhile isBlank := by
  have hreverse : (skipBlanks cs ++ c :: ds).reverse =
      ds.reverse ++ c :: (skipBlanks cs).reverse := by simp
  rw [trimList, skipBlanks_append_cons hc, hreverse, skipBlanks_append_cons hc]
  simp [List.rdropWhile, skipBlanks]

end ActionCatalog.Text
