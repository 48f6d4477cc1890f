import ActionCatalog.Text.LowerCase
import ActionCatalog.Basic
import Mathlib.Data.List.Infix

namespace ActionCatalog.Text

variable {before before' after after' part cs : List Char}

theorem occursIn_iff : occursIn part cs = true ↔ part <:+: cs := by
  induction cs with
  | nil => simp [occursIn]
  | cons c cs ih =>
    rw [occursIn, Bool.or_eq_true, ih, List.isPrefixOf_iff_prefix, List.infix_cons_iff]

/-- Lower casing of a text between `before`, which is given backwards, and `after`. -/
def lowerCaseBetween (before after : List Char) : List Char → List Char
  | [] => []
  | c :: cs =>
    (if c = 'Σ' then [lowerCaseSigma before (cs ++ after)] else lowerCaseChar c) ++
      lowerCaseBetween (c :: before) after cs

theorem lowerCaseAfter_append (before cs ds : List Char) : lowerCaseAfter before (cs ++ ds) =
    lowerCaseBetween before ds cs ++ lowerCaseAfter (cs.reverse ++ before) ds := by
  induction cs generalizing before with
  | nil => rfl
  | cons c cs ih =>
    rw [List.cons_append, lowerCaseAfter, lowerCaseBetween, ih, List.append_assoc,
      List.reverse_cons, List.append_assoc]
    rfl

theorem lowerCase_eq_between (cs : List Char) : lowerCase cs = lowerCaseBetween [] [] cs := by
  simpa [lowerCase, lowerCaseAfter] using lowerCaseAfter_append [] cs []

theorem lowerCase_around (before part after : List Char) :
    lowerCase (before ++ part ++ after) = lowerCaseBetween [] (part ++ after) before ++
      lowerCaseBetween before.reverse after part ++
        lowerCaseAfter (part.reverse ++ before.reverse) after := by
  rw [lowerCase, List.append_assoc, lowerCaseAfter_append, lowerCaseAfter_append, List.append_nil,
    List.append_assoc]

/-- Whether every capital sigma of a part takes the same form by itself as inside the whole. -/
def SigmasAgree (before part after : List Char) : Prop :=
  ∀ x y, part = x ++ 'Σ' :: y →
    lowerCaseSigma x.reverse y = lowerCaseSigma (x.reverse ++ before.reverse) (y ++ after)

theorem forall_split_cons {P : List Char → List Char → Prop} {d c : Char} :
    (∀ x y, c :: cs = x ++ d :: y → P x y) ↔
      (c = d → P [] cs) ∧ ∀ x y, cs = x ++ d :: y → P (c :: x) y := by
  constructor
  · intro h
    exact ⟨fun hc ↦ h [] cs (by rw [hc, List.nil_append]),
      fun x y hcs ↦ h (c :: x) y (by rw [hcs, List.cons_append])⟩
  · rintro ⟨hfirst, hlater⟩ (_ | ⟨b, x⟩) y h
    · obtain ⟨rfl, rfl⟩ := List.cons.inj h
      exact hfirst rfl
    · obtain ⟨rfl, rfl⟩ := List.cons.inj h
      exact hlater x y rfl

theorem lowerCaseBetween_inj :
    lowerCaseBetween before after part = lowerCaseBetween before' after' part ↔
      ∀ x y, part = x ++ 'Σ' :: y → lowerCaseSigma (x.reverse ++ before) (y ++ after) =
        lowerCaseSigma (x.reverse ++ before') (y ++ after') := by
  induction part generalizing before before' with
  | nil => simp [lowerCaseBetween]
  | cons c part ih =>
    rw [lowerCaseBetween, lowerCaseBetween, forall_split_cons]
    simp only [List.reverse_nil, List.nil_append, List.reverse_cons, List.append_assoc,
      List.singleton_append, ← ih]
    split
    · rename_i hc
      simp [hc]
    · rename_i hc
      simp [hc]

theorem sigmasAgree_iff :
    SigmasAgree before part after ↔
      lowerCaseBetween before.reverse after part = lowerCase part := by
  rw [lowerCase_eq_between, eq_comm, lowerCaseBetween_inj]
  simp only [List.append_nil]
  rfl

instance : Decidable (SigmasAgree before part after) := decidable_of_iff _ sigmasAgree_iff.symm

def plainSigma (c : Char) : Char := if c = 'ς' then 'σ' else c

theorem plainSigma_lowerCaseSigma (before after : List Char) :
    plainSigma (lowerCaseSigma before after) = 'σ' := by
  unfold lowerCaseSigma
  split <;> rfl

theorem map_plainSigma (before after before' after' part : List Char) :
    (lowerCaseBetween before after part).map plainSigma =
      (lowerCaseBetween before' after' part).map plainSigma := by
  induction part generalizing before before' with
  | nil => rfl
  | cons c part ih =>
    rw [lowerCaseBetween, lowerCaseBetween, List.map_append, List.map_append,
      ih (c :: before) (c :: before')]
    split
    · simp [plainSigma_lowerCaseSigma]
    · rfl

theorem lowerCase_part (before part after : List Char) : ∃ place,
    place <:+: lowerCase (before ++ part ++ after) ∧
      place.map plainSigma = (lowerCase part).map plainSigma ∧
        (place = lowerCase part ↔ SigmasAgree before part after) := by
  refine ⟨lowerCaseBetween before.reverse after part, ?_, ?_, sigmasAgree_iff.symm⟩
  · rw [lowerCase_around]
    exact List.infix_append _ _ _
  · rw [lowerCase_eq_between]
    exact map_plainSigma _ _ _ _ part

end ActionCatalog.Text
