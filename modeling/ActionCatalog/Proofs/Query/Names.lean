import ActionCatalog.Proofs.Text.Spans
import ActionCatalog.Query.Reader

namespace ActionCatalog.Query

open Text

/-- A text of name characters that is none of the words between the parts of a query. -/
structure IsName (name : List Char) : Prop where
  nonempty : name ≠ []
  chars : ∀ c ∈ name, isNameChar c = true
  not_where : isWord "where" name = false
  not_and : isWord "and" name = false
  not_or : isWord "or" name = false

instance (name : List Char) : Decidable (IsName name) :=
  decidable_of_iff (name ≠ [] ∧ name.all isNameChar = true ∧ isWord "where" name = false ∧
      isWord "and" name = false ∧ isWord "or" name = false)
    ⟨fun h ↦ ⟨h.1, List.all_eq_true.1 h.2.1, h.2.2.1, h.2.2.2.1, h.2.2.2.2⟩,
      fun h ↦ ⟨h.nonempty, List.all_eq_true.2 h.chars, h.not_where, h.not_and, h.not_or⟩⟩

variable {name rest : List Char}

theorem inRanges_of_isAlphanum {c : Char} (h : c.isAlphanum = true) :
    inRanges [(0x30, 0x39), (0x41, 0x5a), (0x61, 0x7a)] c = true := by
  have h : (decide (c.val ≥ 'A'.val ∧ c.val ≤ 'Z'.val) ||
      (decide (c.val ≥ 'a'.val) && decide (c.val ≤ 'z'.val)) ||
      (decide (c.val ≥ '0'.val) && decide (c.val ≤ '9'.val))) = true := h
  simp only [Bool.or_eq_true, Bool.and_eq_true, decide_eq_true_eq, ge_iff_le,
    UInt32.le_iff_toNat_le] at h
  simp only [inRanges, List.any_cons, List.any_nil, Bool.or_eq_true, Bool.and_eq_true,
    decide_eq_true_eq, Char.toNat]
  grind

theorem not_isBlank {c : Char} (h : isNameChar c = true) : isBlank c = false := by
  simp only [isNameChar, Bool.or_eq_true, beq_iff_eq] at h
  obtain ((h | rfl) | rfl) | rfl := h
  · rcases Bool.or_eq_true_iff.1 h with h | h
    · exact inRanges_disjoint (by decide) (inRanges_of_isAlphanum h)
    · exact inRanges_disjoint (by decide +kernel) (Bool.and_eq_true_iff.1 h).2
  · rfl
  · rfl
  · rfl

theorem takeName_append (hc : ∀ c ∈ name, isNameChar c = true) (hr : Stops isNameChar rest) :
    takeName (name ++ rest) = (name, rest) :=
  Prod.ext (takeWhile_span hc hr) (dropWhile_span hc hr)

theorem skipBlanks_name (hn : name ≠ []) (hc : ∀ c ∈ name, isNameChar c = true) :
    skipBlanks (name ++ rest) = name ++ rest := by
  obtain ⟨c, cs, rfl⟩ := List.exists_cons_of_ne_nil hn
  exact skipBlanks_of_stops (stops_cons.2 (not_isBlank (hc c List.mem_cons_self)))

end ActionCatalog.Query
