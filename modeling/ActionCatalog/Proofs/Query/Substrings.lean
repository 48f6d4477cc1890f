import ActionCatalog.Proofs.Text.LowerCase
import ActionCatalog.Query.Evaluation

namespace ActionCatalog

open Text (SigmasAgree lowerCase plainSigma)

/-- Whether a value has a text, of its own or as that of an item of a list. -/
def FieldValue.Shows (v : FieldValue) (t : String) : Prop :=
  v.text? = some t ∨
    ∃ items item, v = .parameter (.array items) ∧ item ∈ items ∧ item.scalarText? = some t

theorem FieldValue.mem_searchedTexts {v : FieldValue} {t : String} :
    t ∈ v.searchedTexts ↔ v.Shows t := by
  unfold Shows
  cases v with
  | parameter w =>
    cases w with
    | array items => simp [searchedTexts, text?, Json.Value.scalarText?, List.mem_filterMap]
    | _ => simp [searchedTexts]
  | _ => simp [searchedTexts]

namespace Predicate

variable {r : ActionRecord} {field s t : String} {v : FieldValue} {before after : List Char}

theorem holds_contains_iff (hv : r.field? field = some v) :
    holds ⟨field, .contains, .text s⟩ r = true ↔
      ∃ t, v.Shows t ∧ lowerCase s.toList <:+: lowerCase t.toList := by
  rw [holds, hv]
  simp only [FieldValue.satisfies, FieldValue.containsText, List.any_eq_true, Text.occursIn_iff,
    FieldValue.mem_searchedTexts]

/-- A part of a text is found if its sigmas have the same forms by themselves as in the text, and
their forms are all that can differ. -/
theorem holds_contains (hv : r.field? field = some v) (ht : v.Shows t)
    (hoccurs : t.toList = before ++ s.toList ++ after) :
    (SigmasAgree before s.toList after → holds ⟨field, .contains, .text s⟩ r = true) ∧
      (lowerCase s.toList).map plainSigma <:+: (lowerCase t.toList).map plainSigma := by
  obtain ⟨place, hplace, hplain, hagree⟩ := Text.lowerCase_part before s.toList after
  rw [← hoccurs] at hplace
  constructor
  · intro hsigmas
    rw [hagree.2 hsigmas] at hplace
    exact (holds_contains_iff hv).2 ⟨t, ht, hplace⟩
  · rw [← hplain]
    exact hplace.map plainSigma

def withWords (words : String) : ActionRecord :=
  { (default : ActionRecord) with
    parameters := .object [("words", .array [.null, .string words])] }

theorem holds_contains_final :
    holds ⟨"words", .contains, .text "ΟΣ"⟩ (withWords "ΣΟΦΟΣ ΒΙΟΣ") = true := by
  have hfield : (withWords "ΣΟΦΟΣ ΒΙΟΣ").field? "words" =
      some (.parameter (.array [.null, .string "ΣΟΦΟΣ ΒΙΟΣ"])) := by decide +kernel
  have hshows : (FieldValue.parameter (.array [.null, .string "ΣΟΦΟΣ ΒΙΟΣ"])).Shows "ΣΟΦΟΣ ΒΙΟΣ" :=
    .inr ⟨_, _, rfl, List.mem_cons_of_mem _ List.mem_cons_self, rfl⟩
  have hoccurs : "ΣΟΦΟΣ ΒΙΟΣ".toList = "ΣΟΦ".toList ++ "ΟΣ".toList ++ " ΒΙΟΣ".toList := by decide
  exact (holds_contains hfield hshows hoccurs).1 (by decide +kernel)

/-- The sigma of the part is final by itself but not in the text, where the part is not found. -/
theorem not_holds_contains_inner :
    ∃ r : ActionRecord, r.field? "skill_name" = some (.text "ΑΣΒΕΣΤΟΣ") ∧
      "ΑΣ".toList <:+: "ΑΣΒΕΣΤΟΣ".toList ∧
        holds ⟨"skill_name", .contains, .text "ΑΣ"⟩ r = false :=
  ⟨{ (default : ActionRecord) with skillName := "ΑΣΒΕΣΤΟΣ" }, by decide +kernel⟩

end Predicate

end ActionCatalog
