import ActionCatalog.Proofs.ActionRecord.Order
import ActionCatalog.Proofs.Outcomes
import ActionCatalog.Proofs.Text.Trimming
import ActionCatalog.SkillDocument.Flatten

namespace ActionCatalog.SkillDocument

open Json (Value)

variable {skillFile skillName : String} {shownParameters trackIndex actionIndex : Nat}
  {r : ActionRecord} {action track document : Value}

theorem asObject_eq_some {v : Value} {members : Members} :
    v.asObject? = some members ↔ v = .object members := by
  cases v <;> simp [Value.asObject?]

theorem asArray_eq_some {v : Value} {items : List Value} :
    v.asArray? = some items ↔ v = .array items := by
  cases v <;> simp [Value.asArray?]

theorem trimmed_textMember {names : List String} {members : Members} {s : String}
    (h : textMember? names members = some s) : s ≠ "" ∧ Text.trim s = s := by
  obtain ⟨name, -, h⟩ := List.exists_of_findSome?_eq_some h
  obtain ⟨text, -, h⟩ := Option.bind_eq_some_iff.1 h
  dsimp only at h
  split at h
  · cases h
  · rename_i hne
    cases h
    exact ⟨hne, Text.trim_trim text⟩

theorem trim_bareName (tag : String) : Text.trim (TypeTag.bareName tag) = TypeTag.bareName tag := by
  unfold TypeTag.bareName TypeTag.bareNameList Text.trim
  rw [String.toList_ofList, Text.trimList_trimList]

theorem trimmed_actionType {members : Members} {s : String} (h : actionType? members = some s) :
    s ≠ "" ∧ Text.trim s = s := by
  rcases Option.or_eq_some_iff.1 h with h | ⟨-, h⟩
  · exact trimmed_textMember h
  · obtain ⟨tag, -, h⟩ := Option.bind_eq_some_iff.1 h
    dsimp only at h
    split at h
    · cases h
    · rename_i hne
      rw [← Option.some.inj h]
      exact ⟨hne, trim_bareName tag⟩

/-- Whether a record is that of an action at a given place of a file. -/
structure At (skillFile : String) (trackIndex actionIndex : Nat) (r : ActionRecord) : Prop where
  skillFile : r.skillFile = skillFile
  trackIndex : r.trackIndex = trackIndex
  actionIndex : r.actionIndex = actionIndex
  placed : r.Placed

theorem at_of_recordOf {context : TrackContext}
    (h : recordOf? context actionIndex action = some r) :
    At context.skillFile context.trackIndex actionIndex r := by
  obtain ⟨members, -, h⟩ := Option.bind_eq_some_iff.1 h
  obtain ⟨actionType, htype, h⟩ := Option.bind_eq_some_iff.1 h
  obtain ⟨hne, htrim⟩ := trimmed_actionType htype
  cases h
  exact ⟨rfl, rfl, rfl, rfl, hne, htrim⟩

theorem at_of_trackRecords
    (h : (trackRecords skillFile skillName shownParameters trackIndex track)[actionIndex]? =
      some (some r)) : At skillFile trackIndex actionIndex r := by
  unfold trackRecords at h
  split at h
  · cases h
  · rw [List.getElem?_mapIdx] at h
    obtain ⟨action, -, h⟩ := Option.map_eq_some_iff.1 h
    exact at_of_recordOf h

theorem exists_at_of_mem
    (h : some r ∈ trackRecords skillFile skillName shownParameters trackIndex track) :
    ∃ actionIndex, At skillFile trackIndex actionIndex r := by
  obtain ⟨i, hi⟩ := List.mem_iff_getElem?.1 h
  exact ⟨i, at_of_trackRecords hi⟩

theorem exists_action_of_mem
    (h : some r ∈ trackRecords skillFile skillName shownParameters trackIndex track) :
    ∃ (members : Members) (actions : List Value) (action : Value),
      track.asObject? = some members ∧
      (members.lookup "actions").bind Value.asArray? = some actions ∧ action ∈ actions ∧
      ∃ context actionIndex, recordOf? context actionIndex action = some r := by
  unfold trackRecords at h
  split at h
  · cases h
  rename_i members hmembers
  obtain ⟨i, hi, hr⟩ := List.mem_mapIdx.1 h
  cases hactions : (members.lookup "actions").bind Value.asArray? with
  | none =>
    rw [hactions] at hi
    cases hi
  | some actions =>
    simp only [hactions, Option.getD_some] at hi hr
    exact ⟨members, actions, actions[i], hmembers, hactions, List.getElem_mem hi, _, i, hr⟩

theorem exists_of_flatten {defaultName : String} {f : Flattened}
    (h : flatten skillFile defaultName shownParameters document = .ok f) :
    ∃ (members : Members) (tracks : List Value) (skillName : String),
      document.asObject? = some members ∧
      (members.lookup "tracks").bind Value.asArray? = some tracks ∧
      f.records = ((tracks.mapIdx
        (trackRecords skillFile skillName shownParameters)).flatten).filterMap id := by
  unfold flatten at h
  split at h
  · cases h
  rename_i members hmembers
  split at h
  · cases h
  rename_i tracks htracks
  cases h
  exact ⟨members, tracks, _, hmembers, htracks, rfl⟩

theorem exists_track_of_mem {tracks : List Value} (h : r ∈ ((tracks.mapIdx
      (trackRecords skillFile skillName shownParameters)).flatten).filterMap id) :
    ∃ i, ∃ hi : i < tracks.length,
      some r ∈ trackRecords skillFile skillName shownParameters i tracks[i] := by
  obtain ⟨entry, hentry, rfl⟩ := List.mem_filterMap.1 h
  obtain ⟨entries, hentries, hmem⟩ := List.mem_flatten.1 hentry
  obtain ⟨i, hi, rfl⟩ := List.mem_mapIdx.1 hentries
  exact ⟨i, hi, hmem⟩

variable {defaultName : String} {f : Flattened}

theorem exists_at_of_flatten (h : flatten skillFile defaultName shownParameters document = .ok f)
    (hr : r ∈ f.records) : ∃ trackIndex actionIndex, At skillFile trackIndex actionIndex r := by
  obtain ⟨members, tracks, skillName, -, -, hrecords⟩ := exists_of_flatten h
  rw [hrecords] at hr
  obtain ⟨i, hi, hmem⟩ := exists_track_of_mem hr
  exact ⟨i, exists_at_of_mem hmem⟩

theorem skillFile_of_flatten (h : flatten skillFile defaultName shownParameters document = .ok f)
    (hr : r ∈ f.records) : r.skillFile = skillFile := by
  obtain ⟨_, _, hat⟩ := exists_at_of_flatten h hr
  exact hat.skillFile

/-- Entries come in the order of their actions, and tracks one after the other. -/
theorem pairwise_flatten (h : flatten skillFile defaultName shownParameters document = .ok f) :
    f.records.Pairwise ActionRecord.Before := by
  obtain ⟨members, tracks, skillName, -, -, hrecords⟩ := exists_of_flatten h
  rw [hrecords, List.pairwise_filterMap]
  simp only [id_eq]
  refine List.pairwise_flatten.2 ⟨?_, ?_⟩
  · intro entries hentries
    obtain ⟨t, ht, rfl⟩ := List.mem_mapIdx.1 hentries
    refine List.pairwise_iff_getElem.2 fun i j hi hj hij r hr s hs ↦ ?_
    have hat := at_of_trackRecords (List.getElem?_eq_some_iff.2 ⟨hi, hr⟩)
    have hat' := at_of_trackRecords (List.getElem?_eq_some_iff.2 ⟨hj, hs⟩)
    right
    rw [hat.skillFile, hat'.skillFile, hat.trackIndex, hat'.trackIndex, hat.actionIndex,
      hat'.actionIndex]
    exact ⟨rfl, .inr ⟨rfl, hij⟩⟩
  · refine List.pairwise_iff_getElem.2 fun t u ht hu htu entry hentry entry' hentry' r hr s hs ↦ ?_
    subst hr hs
    rw [List.getElem_mapIdx] at hentry hentry'
    obtain ⟨_, hat⟩ := exists_at_of_mem hentry
    obtain ⟨_, hat'⟩ := exists_at_of_mem hentry'
    right
    rw [hat.skillFile, hat'.skillFile, hat.trackIndex, hat'.trackIndex]
    exact ⟨rfl, .inl htu⟩

end ActionCatalog.SkillDocument
