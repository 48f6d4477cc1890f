import ActionCatalog.Proofs.Json.Values
import ActionCatalog.Proofs.SkillDocument.Flatten

namespace ActionCatalog

open Json (Value)

namespace ActionRecord

/-- A record with the summary that shows a given number of parameters. -/
def summarized (shownParameters : Nat) (r : ActionRecord) : ActionRecord :=
  { r with summary := Summary.write r.actionType r.frame r.duration r.parameters shownParameters }

end ActionRecord

namespace SkillDocument

open ActionRecord (summarized)

variable {skillFile skillName defaultName : String} {shownParameters trackIndex actionIndex : Nat}
  {action track document : Value} {r : ActionRecord}

def Flattened.summarized (shownParameters : Nat) (f : Flattened) : Flattened :=
  ⟨f.records.map (ActionRecord.summarized shownParameters), f.skipped⟩

theorem recordOf_summarized (context : TrackContext) (k actionIndex : Nat) (action : Value) :
    recordOf? { context with shownParameters := k } actionIndex action =
      (recordOf? context actionIndex action).map (summarized k) := by
  unfold recordOf?
  cases action.asObject? with
  | none => rfl
  | some members =>
    simp only [Option.bind_eq_bind, Option.bind_some]
    cases actionType? members <;> rfl

theorem trackRecords_summarized (k : Nat) : trackRecords skillFile skillName k trackIndex track =
    (trackRecords skillFile skillName shownParameters trackIndex track).map
      (Option.map (summarized k)) := by
  unfold trackRecords
  split
  · rfl
  · rw [List.mapIdx_eq_zipIdx_map, List.mapIdx_eq_zipIdx_map, List.map_map]
    exact List.map_congr_left fun p _ ↦
      recordOf_summarized ⟨skillFile, skillName, _, trackIndex, _, shownParameters⟩ k p.2 p.1

theorem entries_summarized (skillFile skillName : String) (shownParameters k : Nat)
    (tracks : List Value) :
    (tracks.mapIdx (trackRecords skillFile skillName k)).flatten =
      ((tracks.mapIdx (trackRecords skillFile skillName shownParameters)).flatten).map
        (Option.map (summarized k)) := by
  rw [List.map_flatten, List.mapIdx_eq_zipIdx_map, List.mapIdx_eq_zipIdx_map, List.map_map]
  exact congrArg _ (List.map_congr_left fun p _ ↦ trackRecords_summarized k)

theorem flatten_summarized (skillFile defaultName : String) (shownParameters k : Nat)
    (document : Value) : flatten skillFile defaultName k document =
      (flatten skillFile defaultName shownParameters document).map (Flattened.summarized k) := by
  have hrecords (entries : List (Option ActionRecord)) :
      (entries.map (Option.map (summarized k))).filterMap id =
        (entries.filterMap id).map (summarized k) := by
    rw [List.filterMap_map, List.map_filterMap]
    rfl
  have hskipped (entries : List (Option ActionRecord)) :
      (entries.map (Option.map (summarized k))).countP Option.isNone =
        entries.countP Option.isNone := by
    rw [List.countP_map]
    exact List.countP_congr fun entry _ ↦ by rw [Function.comp_apply, Option.isNone_map]
  unfold flatten
  split
  · rfl
  split
  · rfl
  dsimp only
  rw [entries_summarized skillFile _ shownParameters k, hrecords, hskipped]
  rfl

theorem doubles_of_mem_members {members : Members} {name : String} {v : Value}
    (h : (name, v) ∈ members) : v.doubles ⊆ (Value.object members).doubles := by
  change v.doubles ⊆ Value.doublesMembers members
  induction members with
  | nil => cases h
  | cons m members ih =>
    rw [Value.doublesMembers]
    rcases List.mem_cons.1 h with rfl | h
    · exact List.subset_append_left _ _
    · exact List.Subset.trans (ih h) (List.subset_append_right _ _)

theorem doubles_of_mem_items {items : List Value} {v : Value} (h : v ∈ items) :
    v.doubles ⊆ (Value.array items).doubles := by
  change v.doubles ⊆ Value.doublesItems items
  induction items with
  | nil => cases h
  | cons item items ih =>
    rw [Value.doublesItems]
    rcases List.mem_cons.1 h with rfl | h
    · exact List.subset_append_left _ _
    · exact List.Subset.trans (ih h) (List.subset_append_right _ _)

theorem doubles_filter (keep : String × Value → Bool) (members : Members) :
    (Value.object (members.filter keep)).doubles ⊆ (Value.object members).doubles := by
  change Value.doublesMembers (members.filter keep) ⊆ Value.doublesMembers members
  induction members with
  | nil => exact List.Subset.refl _
  | cons m members ih =>
    rw [List.filter_cons, Value.doublesMembers]
    split
    · rw [Value.doublesMembers]
      exact List.append_subset.2 ⟨List.subset_append_left _ _,
        List.Subset.trans ih (List.subset_append_right _ _)⟩
    · exact List.Subset.trans ih (List.subset_append_right _ _)

theorem doubles_parametersOf (members : Members) :
    (parametersOf members).doubles ⊆ (Value.object members).doubles := by
  unfold parametersOf
  split
  · rename_i parameters hparameters
    exact doubles_of_mem_members (Keyed.mem_of_lookup hparameters)
  · exact doubles_filter _ _

theorem doubles_recordOf {context : TrackContext}
    (h : recordOf? context actionIndex action = some r) :
    r.parameters.doubles ⊆ action.doubles := by
  obtain ⟨members, hmembers, h⟩ := Option.bind_eq_some_iff.1 h
  obtain ⟨actionType, -, h⟩ := Option.bind_eq_some_iff.1 h
  obtain rfl := Option.some.inj h
  rw [asObject_eq_some.1 hmembers]
  exact doubles_parametersOf members

theorem doubles_of_items {v : Value} {name : String} {members : Members} {items : List Value}
    (hmembers : v.asObject? = some members)
    (hitems : (members.lookup name).bind Value.asArray? = some items) {item : Value}
    (hitem : item ∈ items) : item.doubles ⊆ v.doubles := by
  obtain ⟨w, hw, hitems⟩ := Option.bind_eq_some_iff.1 hitems
  rw [asArray_eq_some.1 hitems] at hw
  rw [asObject_eq_some.1 hmembers]
  exact List.Subset.trans (doubles_of_mem_items hitem)
    (doubles_of_mem_members (Keyed.mem_of_lookup hw))

theorem doubles_trackRecords
    (h : some r ∈ trackRecords skillFile skillName shownParameters trackIndex track) :
    r.parameters.doubles ⊆ track.doubles := by
  obtain ⟨members, actions, action, hmembers, hactions, haction, _, _, hr⟩ := exists_action_of_mem h
  exact List.Subset.trans (doubles_recordOf hr) (doubles_of_items hmembers hactions haction)

/-- All numbers among the parameters of a document's records are numbers of the document. -/
theorem doubles_flatten {f : Flattened}
    (h : flatten skillFile defaultName shownParameters document = .ok f) (hr : r ∈ f.records) :
    r.parameters.doubles ⊆ document.doubles := by
  obtain ⟨members, tracks, skillName, hmembers, htracks, hrecords⟩ := exists_of_flatten h
  rw [hrecords] at hr
  obtain ⟨i, hi, hmem⟩ := exists_track_of_mem hr
  exact List.Subset.trans (doubles_trackRecords hmem)
    (doubles_of_items hmembers htracks (List.getElem_mem hi))

end SkillDocument

end ActionCatalog
