import ActionCatalog.Basic

namespace ActionCatalog.Text

variable {p : Char → Bool} {cs rest : List Char}

/-- Whether a text does not go on with a character that has a property. -/
def Stops (p : Char → Bool) (rest : List Char) : Prop := ∀ c ∈ rest.head?, p c = false

@[simp] theorem stops_nil : Stops p [] := by simp [Stops]

@[simp] theorem stops_cons {c : Char} : Stops p (c :: rest) ↔ p c = false := by simp [Stops]

theorem Stops.of_append (h : Stops p (cs ++ rest)) : Stops p cs := by
  cases cs with
  | nil => exact stops_nil
  | cons c cs => exact h

theorem Stops.append (h : Stops p cs) (hne : cs ≠ []) (rest : List Char) :
    Stops p (cs ++ rest) := by
  obtain ⟨c, cs, rfl⟩ := List.exists_cons_of_ne_nil hne
  exact h

theorem takeWhile_span (hc : ∀ c ∈ cs, p c = true) (hr : Stops p rest) :
    (cs ++ rest).takeWhile p = cs := by
  rw [List.takeWhile_append_of_pos hc]
  cases rest with
  | nil => simp
  | cons c rest => simp [stops_cons.1 hr]

theorem dropWhile_span (hc : ∀ c ∈ cs, p c = true) (hr : Stops p rest) :
    (cs ++ rest).dropWhile p = rest := by
  rw [List.dropWhile_append_of_pos hc]
  cases rest with
  | nil => simp
  | cons c rest => simp [stops_cons.1 hr]

theorem forall_mem_takeWhile (p : Char → Bool) (cs : List Char) :
    ∀ c ∈ cs.takeWhile p, p c = true := List.all_eq_true.1 List.all_takeWhile

theorem stops_dropWhile (p : Char → Bool) (cs : List Char) : Stops p (cs.dropWhile p) := by
  intro c hc
  have hhead := List.head?_dropWhile_not p cs
  rw [Option.mem_def.1 hc] at hhead
  exact hhead

theorem skipBlanks_of_stops (h : Stops isBlank cs) : skipBlanks cs = cs := by
  cases cs with
  | nil => rfl
  | cons c cs => exact List.dropWhile_cons_of_neg (by simp [stops_cons.1 h])

theorem inRanges_disjoint {as bs : List (Nat × Nat)}
    (h : as.all (fun a ↦ bs.all fun b ↦ a.2 < b.1 || b.2 < a.1) = true) {c : Char}
    (ha : inRanges as c = true) : inRanges bs c = false := by
  obtain ⟨a, hmem, ha⟩ := List.any_eq_true.1 ha
  refine List.any_eq_false.2 fun b hb hc ↦ ?_
  have := List.all_eq_true.1 (List.all_eq_true.1 h a hmem) b hb
  simp only [Bool.and_eq_true, Bool.or_eq_true, decide_eq_true_eq] at ha hc this
  omega

end ActionCatalog.Text
