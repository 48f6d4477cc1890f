import ActionCatalog.Proofs.Keyed
import ActionCatalog.SkillDocument.Flatten
import Mathlib.Logic.Relation

namespace ActionCatalog.SkillDocument

open Json (Value)

def skillNames : List String := ["skillName", "skill_name", "name"]

def trackNames : List String := ["trackName", "track_name", "name"]

def typeNames : List String := ["actionType", "action_type", "type"]

/-- Whether one object is another one in which a member, the only one that has any of some names,
has another of these names. -/
structure Renamed (names : List String) (members members' : Members) : Prop where
  renamed : ∃ old ∈ names, ∃ new ∈ names, ∃ v, members.lookup old = some v ∧
    (∀ name ∈ names, name ≠ old → members.lookup name = none) ∧
    members' = Keyed.insert new v (members.filter (·.1 ≠ old))

/-- Whether one action is another one whose parameters were put among its other members. All these
others are structural, and no parameter is. -/
structure Inlined (action action' : Members) : Prop where
  sorted : Keyed.Sorted action
  structural : ∀ m ∈ action, m.1 ∈ structuralNames
  inlined : ∃ parameters, action.lookup "parameters" = some (.object parameters) ∧
    Keyed.Sorted parameters ∧ (∀ m ∈ parameters, m.1 ∉ structuralNames) ∧
    action' = parameters.foldl (fun members m ↦ Keyed.insert m.1 m.2 members)
      (action.filter (·.1 ≠ "parameters"))

inductive ActionRespelled (action action' : Members) : Prop
  | renamed (h : Renamed typeNames action action')
  | inlined (h : Inlined action action')
  | gathered (h : Inlined action' action)

inductive TrackRespelled (track : Members) : Members → Prop
  | renamed {track' : Members} (h : Renamed trackNames track track') : TrackRespelled track track'
  | action {actions : List Value} {i : Nat} {action action' : Members}
    (hactions : track.lookup "actions" = some (.array actions))
    (haction : actions[i]? = some (.object action)) (h : ActionRespelled action action') :
    TrackRespelled track
      (Keyed.insert "actions" (.array (actions.set i (.object action'))) track)

/-- Whether one document is another one that is spelled differently in one place. -/
inductive Respelled : Value → Value → Prop
  | renamed {root root' : Members} (h : Renamed skillNames root root') :
    Respelled (.object root) (.object root')
  | track {root : Members} {tracks : List Value} {i : Nat} {track track' : Members}
    (htracks : root.lookup "tracks" = some (.array tracks))
    (htrack : tracks[i]? = some (.object track)) (h : TrackRespelled track track') :
    Respelled (.object root)
      (.object (Keyed.insert "tracks" (.array (tracks.set i (.object track'))) root))

variable {names : List String} {members members' action action' track track' : Members}
  {document document' : Value}

theorem findSome_unique {α β : Type} {f : α → Option β} {as : List α} {a : α} (ha : a ∈ as)
    (hothers : ∀ b ∈ as, b ≠ a → f b = none) : as.findSome? f = f a := by
  induction as with
  | nil => cases ha
  | cons b as ih =>
    rw [List.findSome?_cons]
    by_cases hba : b = a
    · subst hba
      cases hf : f b with
      | some c => rfl
      | none =>
        apply List.findSome?_eq_none_iff.2
        intro c hc
        by_cases hcb : c = b
        · rw [hcb, hf]
        · exact hothers c (List.mem_cons_of_mem b hc) hcb
    · rw [hothers b List.mem_cons_self hba]
      apply ih
      · exact List.mem_of_ne_of_mem (Ne.symm hba) ha
      · intro c hc
        exact hothers c (List.mem_cons_of_mem b hc)

theorem mapIdx_set {α β : Type} {f : Nat → α → β} {as : List α} {i : Nat} {a b : α}
    (ha : as[i]? = some a) (hf : f i b = f i a) : (as.set i b).mapIdx f = as.mapIdx f := by
  apply List.ext_getElem?
  intro j
  rw [List.getElem?_mapIdx, List.getElem?_mapIdx, List.getElem?_set]
  by_cases hij : i = j
  · subst hij
    obtain ⟨hi, rfl⟩ := List.getElem?_eq_some_iff.1 ha
    simp [hi, hf]
  · simp [hij]

theorem textMember_congr (h : ∀ name ∈ names, members'.lookup name = members.lookup name) :
    textMember? names members' = textMember? names members := by
  unfold textMember?
  induction names with
  | nil => rfl
  | cons name names ih =>
    obtain ⟨hfirst, hrest⟩ := List.forall_mem_cons.1 h
    rw [List.findSome?_cons, List.findSome?_cons, hfirst, ih hrest]

theorem textMember_insert {key : String} {v : Value} (hkey : key ∉ names) :
    textMember? names (Keyed.insert key v members) = textMember? names members := by
  apply textMember_congr
  intro name hname
  apply Keyed.lookup_insert
  rintro rfl
  exact hkey hname

theorem Renamed.lookup (h : Renamed names members members') :
    ∃ old ∈ names, ∃ new ∈ names, members'.lookup new = members.lookup old ∧
      (∀ name ∈ names, name ≠ old → members.lookup name = none) ∧
      (∀ name ∈ names, name ≠ new → members'.lookup name = none) := by
  obtain ⟨old, hold, new, hnew, v, hv, halone, rfl⟩ := h.renamed
  refine ⟨old, hold, new, hnew, ?_, halone, ?_⟩
  · rw [Keyed.lookup_insert_self, hv]
  · intro name hname hne
    rw [Keyed.lookup_insert hne]
    by_cases heq : name = old
    · exact Keyed.lookup_filter_of_not (· ≠ old) (by simp [heq])
    · rw [Keyed.lookup_filter (· ≠ old) (by simp [heq])]
      exact halone name hname heq

theorem Renamed.lookup_of_notMem (h : Renamed names members members') {name : String}
    (hname : name ∉ names) : members'.lookup name = members.lookup name := by
  obtain ⟨old, hold, new, hnew, v, -, -, rfl⟩ := h.renamed
  have hother {k : String} (hk : k ∈ names) : name ≠ k := fun heq ↦ hname (heq ▸ hk)
  rw [Keyed.lookup_insert (hother hnew)]
  exact Keyed.lookup_filter (· ≠ old) (by simp [hother hold])

theorem Renamed.textMember (h : Renamed names members members') :
    textMember? names members' = textMember? names members := by
  obtain ⟨old, hold, new, hnew, hsame, halone, halone'⟩ := h.lookup
  unfold textMember?
  rw [findSome_unique hnew, findSome_unique hold, hsame]
  · intro name hname hne
    rw [halone name hname hne]
    rfl
  · intro name hname hne
    rw [halone' name hname hne]
    rfl

theorem Renamed.filter (h : Renamed names members members') (keep : String → Bool)
    (hkeep : ∀ name ∈ names, keep name = false) :
    (members'.filter fun m ↦ keep m.1) = members.filter fun m ↦ keep m.1 := by
  obtain ⟨old, hold, new, hnew, v, -, -, rfl⟩ := h.renamed
  rw [Keyed.insert, Keyed.filter_alter keep (hkeep new hnew), List.filter_filter]
  apply List.filter_congr
  intro m _
  by_cases hm : m.1 = old
  · simp [hm, hkeep old hold]
  · simp [hm]

/-- Whether two actions are alike in everything that goes into a record. -/
structure ReadAlike (action action' : Members) : Prop where
  frame : action'.lookup "frame" = action.lookup "frame"
  duration : action'.lookup "duration" = action.lookup "duration"
  enabled : action'.lookup "enabled" = action.lookup "enabled"
  actionType : actionType? action' = actionType? action
  parameters : parametersOf action' = parametersOf action

theorem ReadAlike.symm (h : ReadAlike action action') : ReadAlike action' action :=
  ⟨h.frame.symm, h.duration.symm, h.enabled.symm, h.actionType.symm, h.parameters.symm⟩

theorem ReadAlike.recordOf (h : ReadAlike action action') (context : TrackContext) (i : Nat) :
    recordOf? context i (.object action') = recordOf? context i (.object action) := by
  unfold recordOf?
  simp only [Value.asObject?, Option.bind_eq_bind, Option.bind_some, integerMember, flagMember,
    h.frame, h.duration, h.enabled, h.actionType, h.parameters]

theorem Renamed.readAlike (h : Renamed typeNames action action') : ReadAlike action action' where
  frame := h.lookup_of_notMem (by decide)
  duration := h.lookup_of_notMem (by decide)
  enabled := h.lookup_of_notMem (by decide)
  actionType := by
    have htype : textMember? ["actionType", "action_type", "type"] action' =
      textMember? ["actionType", "action_type", "type"] action := h.textMember
    unfold actionType?
    rw [htype, h.lookup_of_notMem (by decide)]
  parameters := by
    unfold parametersOf
    rw [h.lookup_of_notMem (by decide),
      h.filter (fun name ↦ !structuralNames.contains name) (by decide)]

theorem lookup_structural {parameters : Members} {name : String}
    (hnames : ∀ m ∈ parameters, m.1 ∉ structuralNames) (hname : name ∈ structuralNames) :
    parameters.lookup name = none := by
  apply Keyed.lookup_eq_none
  rintro m hm rfl
  exact hnames m hm hname

theorem Inlined.lookup (h : Inlined action action') {name : String}
    (hname : name ∈ structuralNames) (hne : name ≠ "parameters") :
    action'.lookup name = action.lookup name := by
  obtain ⟨parameters, -, hsorted, hnames, rfl⟩ := h.inlined
  rw [Keyed.lookup_foldl_insert hsorted.nodup, lookup_structural hnames hname, Option.none_or]
  exact Keyed.lookup_filter (· ≠ "parameters") (by simp [hne])

theorem Inlined.lookup_parameters (h : Inlined action action') :
    action'.lookup "parameters" = none := by
  obtain ⟨parameters, -, hsorted, hnames, rfl⟩ := h.inlined
  rw [Keyed.lookup_foldl_insert hsorted.nodup, lookup_structural hnames (by decide),
    Option.none_or]
  exact Keyed.lookup_filter_of_not (· ≠ "parameters") (by simp)

theorem Inlined.parameters (h : Inlined action action') :
    action.lookup "parameters" =
      some (.object (action'.filter fun m ↦ !structuralNames.contains m.1)) := by
  obtain ⟨parameters, hparameters, hsorted, hnames, rfl⟩ := h.inlined
  rw [hparameters]
  congr 2
  apply Keyed.eq_of_lookup hsorted
  · exact (Keyed.foldl_insert _ (h.sorted.filter _)).1.filter _
  intro name
  by_cases hname : name ∈ structuralNames
  · rw [Keyed.lookup_filter_of_not (fun name ↦ !structuralNames.contains name) (by simp [hname])]
    exact lookup_structural hnames hname
  · rw [Keyed.lookup_filter (fun name ↦ !structuralNames.contains name) (by simp [hname]),
      Keyed.lookup_foldl_insert hsorted.nodup]
    have hnone : (action.filter (·.1 ≠ "parameters")).lookup name = none := by
      apply Keyed.lookup_eq_none
      rintro m hm rfl
      exact hname (h.structural m (List.mem_of_mem_filter hm))
    rw [hnone, Option.or_none]

theorem Inlined.readAlike (h : Inlined action action') : ReadAlike action action' where
  frame := h.lookup (by decide) (by decide)
  duration := h.lookup (by decide) (by decide)
  enabled := h.lookup (by decide) (by decide)
  actionType := by
    have htype : textMember? ["actionType", "action_type", "type"] action' =
        textMember? ["actionType", "action_type", "type"] action := by
      apply textMember_congr
      intro name hname
      apply h.lookup
      · revert name
        decide
      · revert name
        decide
    unfold actionType?
    rw [htype, h.lookup (by decide) (by decide)]
  parameters := by
    unfold parametersOf
    rw [h.lookup_parameters, h.parameters]

theorem ActionRespelled.readAlike (h : ActionRespelled action action') :
    ReadAlike action action' := by
  cases h with
  | renamed h => exact h.readAlike
  | inlined h => exact h.readAlike
  | gathered h => exact h.readAlike.symm

theorem TrackRespelled.trackRecords (h : TrackRespelled track track') (skillFile skillName : String)
    (shownParameters trackIndex : Nat) :
    trackRecords skillFile skillName shownParameters trackIndex (.object track') =
      trackRecords skillFile skillName shownParameters trackIndex (.object track) := by
  unfold SkillDocument.trackRecords
  simp only [Value.asObject?]
  cases h with
  | renamed h =>
    have hname : textMember? ["trackName", "track_name", "name"] track' =
      textMember? ["trackName", "track_name", "name"] track := h.textMember
    have henabled : flagMember "enabled" track' = flagMember "enabled" track := by
      unfold flagMember
      rw [h.lookup_of_notMem (by decide)]
    rw [hname, henabled, h.lookup_of_notMem (by decide)]
  | action hactions haction h =>
    rename_i actions i action action'
    have henabled : flagMember "enabled"
          (Keyed.insert "actions" (.array (actions.set i (.object action'))) track) =
        flagMember "enabled" track := by
      unfold flagMember
      rw [Keyed.lookup_insert (by decide)]
    rw [textMember_insert (by decide), henabled, Keyed.lookup_insert_self, hactions]
    exact mapIdx_set haction (h.readAlike.recordOf _ i)

theorem flatten_respelled_once (h : Respelled document document') (skillFile defaultName : String)
    (shownParameters : Nat) : flatten skillFile defaultName shownParameters document' =
      flatten skillFile defaultName shownParameters document := by
  unfold flatten
  cases h with
  | renamed h =>
    rename_i root root'
    have hname : textMember? ["skillName", "skill_name", "name"] root' =
      textMember? ["skillName", "skill_name", "name"] root := h.textMember
    simp only [Value.asObject?]
    rw [hname, h.lookup_of_notMem (by decide)]
  | track htracks htrack h =>
    rename_i root tracks i track track'
    simp only [Value.asObject?]
    rw [textMember_insert (by decide), Keyed.lookup_insert_self, htracks]
    simp only [Option.bind_some, Value.asArray?]
    rw [mapIdx_set htrack (h.trackRecords skillFile _ shownParameters i)]

/-- How a document is spelled makes no difference, however often it is respelled. -/
theorem flatten_respelled (skillFile defaultName : String) (shownParameters : Nat)
    (h : Relation.ReflTransGen Respelled document document') :
    flatten skillFile defaultName shownParameters document' =
      flatten skillFile defaultName shownParameters document := by
  induction h with
  | refl => rfl
  | tail _ h ih => rw [flatten_respelled_once h, ih]

theorem flatten_respelled_twice :
    let track (action : Members) : Members := [("actions", .array [.object action])]
    let root (name : String) (action : Members) : Members :=
      [(name, .string "Mend"), ("tracks", .array [.object (track action)])]
    let apart : Members :=
      [("parameters", .object [("target", .string "self")]), ("type", .string "Heal")]
    let among : Members := [("target", .string "self"), ("type", .string "Heal")]
    Relation.ReflTransGen Respelled (.object (root "name" apart))
        (.object (root "skillName" among)) ∧
      flatten "mend.json" "mend" 3 (.object (root "skillName" among)) =
        flatten "mend.json" "mend" 3 (.object (root "name" apart)) := by
  intro track root apart among
  have hname : Respelled (.object (root "name" apart)) (.object (root "skillName" apart)) :=
    .renamed ⟨"name", by decide, "skillName", by decide, .string "Mend", rfl, by decide, rfl⟩
  have hparameters : Inlined apart among := by
    refine ⟨?_, by decide, [("target", .string "self")], rfl, ?_, by decide, rfl⟩
    · unfold Keyed.Sorted
      decide
    · unfold Keyed.Sorted
      decide
  have htrack : TrackRespelled (track apart) (track among) :=
    @TrackRespelled.action (track apart) [.object apart] 0 apart among rfl rfl
      (.inlined hparameters)
  have haction :
      Respelled (.object (root "skillName" apart)) (.object (root "skillName" among)) :=
    @Respelled.track (root "skillName" apart) [.object (track apart)] 0 (track apart) (track among)
      rfl rfl htrack
  have h : Relation.ReflTransGen Respelled (.object (root "name" apart))
      (.object (root "skillName" among)) := .tail (.single hname) haction
  exact ⟨h, flatten_respelled "mend.json" "mend" 3 h⟩

end ActionCatalog.SkillDocument
