import ActionCatalog.Proofs.SkillDocument.Flatten
import ActionCatalog.Proofs.Text.Pieces

namespace ActionCatalog

open Json (Value)

def Json.pointerIndex? (step : String) : Option Nat :=
  let cs := step.toList
  if cs = [] ∨ ¬cs.all Char.isDigit ∨ (cs.head? = some '0' ∧ cs.length ≠ 1) then none
  else some (Decimal.ofDigits cs)

namespace Json.Value

def item? (i : Nat) (v : Value) : Option Value := v.asArray?.bind fun items ↦ items[i]?

end Json.Value

namespace Locator

def index? (cs : List Char) : Option Nat :=
  if cs.getLast? = some ']' then Json.pointerIndex? (String.ofList cs.dropLast) else none

def followIndices : List (List Char) → Value → Option Value
  | [], v => some v
  | cs :: rest, v => do
    let item ← v.item? (← index? cs)
    followIndices rest item

def followPart (part : List Char) (v : Value) : Option Value :=
  match Text.pieces '[' part with
  | [] => none
  | name :: indices => (v.get? (String.ofList name)).bind (followIndices indices)

def followParts : List (List Char) → Value → Option Value
  | [], v => some v
  | part :: parts, v => (followPart part v).bind (followParts parts)

/-- The part of a document that a locator leads to. -/
def follow (locator : String) (document : Value) : Option Value :=
  followParts (Text.pieces '.' locator.toList) document

theorem index_toDigits (n : Nat) : index? (Nat.toDigits 10 n ++ [']']) = some n := by
  have hdigits : (Nat.toDigits 10 n).all Char.isDigit = true :=
    List.all_eq_true.2 fun c hc ↦ Decimal.isDigit_toDigits hc
  have hleading : ¬((Nat.toDigits 10 n).head? = some '0' ∧ (Nat.toDigits 10 n).length ≠ 1) := by
    rcases Decimal.toDigits_zero_or n with h | h
    · simp [h]
    · exact fun h' ↦ h h'.1
  rw [index?, if_pos List.getLast?_concat, List.dropLast_concat, Json.pointerIndex?]
  simp only [String.toList_ofList]
  rw [if_neg, Decimal.ofDigits_toDigits]
  rintro (h | h | h)
  · exact Nat.toDigits_ne_nil h
  · exact h hdigits
  · exact hleading h

theorem notMem_toDigits {c : Char} (hc : c.isDigit = false) (n : Nat) :
    c ∉ Nat.toDigits 10 n := by
  intro h
  rw [Decimal.isDigit_toDigits h] at hc
  cases hc

theorem followPart_indexed {name : List Char} (hname : '[' ∉ name) (i : Nat) (v : Value) :
    followPart (name ++ '[' :: (Nat.toDigits 10 i ++ [']'])) v =
      (v.get? (String.ofList name)).bind (Value.item? i) := by
  have hindex : '[' ∉ Nat.toDigits 10 i ++ [']'] := by
    simpa using notMem_toDigits (by decide) i
  have hindices : followIndices [Nat.toDigits 10 i ++ [']']] = Value.item? i := by
    funext v
    simp [followIndices, index_toDigits]
  rw [followPart, Text.pieces_append, Text.pieces_of_notMem hname, Text.pieces_of_notMem hindex,
    ← hindices]
  rfl

theorem follow_locatorOf (t a : Nat) (document : Value) :
    follow (locatorOf t a) document =
      (((document.get? "tracks").bind (Value.item? t)).bind (Value.get? "actions")).bind
        (Value.item? a) := by
  have hparts : (locatorOf t a).toList =
      ("tracks".toList ++ '[' :: (Nat.toDigits 10 t ++ [']'])) ++
        '.' :: ("actions".toList ++ '[' :: (Nat.toDigits 10 a ++ [']'])) := by
    simp [toList_locatorOf]
  have hdot {name : List Char} (hname : '.' ∉ name) (i : Nat) :
      '.' ∉ name ++ '[' :: (Nat.toDigits 10 i ++ [']']) := by
    simpa [hname] using notMem_toDigits (by decide) i
  have htracks : '[' ∉ "tracks".toList := by decide
  have hactions : '[' ∉ "actions".toList := by decide
  rw [follow, hparts, Text.pieces_append, Text.pieces_of_notMem (hdot (by decide) t),
    Text.pieces_of_notMem (hdot (by decide) a), List.singleton_append]
  simp only [followParts, followPart_indexed htracks, followPart_indexed hactions,
    Option.bind_fun_some, Option.bind_assoc, String.ofList_toList]

end Locator

namespace SkillDocument

variable {skillFile skillName defaultName : String} {shownParameters trackIndex actionIndex : Nat}
  {r : ActionRecord} {document track : Value} {action members : Members} {tracks : List Value}

/-- The elements of the `actions` of a track; whatever is no object has none. -/
def actionsOf (track : Value) : List Value :=
  ((track.get? "actions").bind Value.asArray?).getD []

def HasTracks (document : Value) (tracks : List Value) : Prop :=
  ∃ members, document = .object members ∧ members.lookup "tracks" = some (.array tracks)

/-- Whether the tracks of a document hold an object as an action at a place of an object. -/
structure ActionAt (tracks : List Value) (trackIndex actionIndex : Nat) (track action : Members) :
    Prop where
  inTracks : tracks[trackIndex]? = some (.object track)
  inActions : ∃ actions, track.lookup "actions" = some (.array actions) ∧
    actions[actionIndex]? = some (.object action)

/-- Whether a record tells what an action and its track say, each of them on its own. -/
structure ReadFrom (track action : Members) (r : ActionRecord) : Prop where
  frame : r.frame = integerMember "frame" action
  duration : r.duration = integerMember "duration" action
  enabled : r.enabled = flagMember "enabled" action
  actionType : actionType? action = some r.actionType
  parameters : r.parameters = parametersOf action
  trackName : r.trackName = (textMember? ["trackName", "track_name", "name"] track).getD
    s!"Track {r.trackIndex}"
  trackEnabled : r.trackEnabled = flagMember "enabled" track

/-- What became of the elements of all actions: each is counted once, and each record is that of one
of them, in their order. -/
structure Conserves (document : Value) (tracks : List Value) (f : Flattened) : Prop where
  ordered : f.records.Pairwise fun r s ↦ r.trackIndex < s.trackIndex ∨
    r.trackIndex = s.trackIndex ∧ r.actionIndex < s.actionIndex
  recorded : ∀ t a, (∃ r ∈ f.records, r.trackIndex = t ∧ r.actionIndex = a) ↔
    ∃ track action name, ActionAt tracks t a track action ∧ actionType? action = some name ∧
      name ≠ ""
  counted : f.records.length + f.skipped =
    (tracks.map fun track ↦ (actionsOf track).length).sum
  located : ∀ r ∈ f.records, ∃ track action,
    ActionAt tracks r.trackIndex r.actionIndex track action ∧ ReadFrom track action r ∧
      Locator.follow r.locator document = some (.object action)

def contextOf (skillFile skillName : String) (shownParameters trackIndex : Nat) (track : Members) :
    TrackContext where
  skillFile
  skillName
  trackName := (textMember? ["trackName", "track_name", "name"] track).getD s!"Track {trackIndex}"
  trackIndex
  trackEnabled := flagMember "enabled" track
  shownParameters

theorem length_trackRecords :
    (trackRecords skillFile skillName shownParameters trackIndex track).length =
      (actionsOf track).length := by
  cases track with
  | object members => exact List.length_mapIdx
  | _ => rfl

theorem exists_recordOf {context : TrackContext} : (∃ r,
      recordOf? context actionIndex (.object action) = some r) ↔
    ∃ name, actionType? action = some name ∧ name ≠ "" := by
  constructor
  · rintro ⟨r, h⟩
    obtain ⟨name, hname, -⟩ := Option.bind_eq_some_iff.1 h
    exact ⟨name, hname, (trimmed_actionType hname).1⟩
  · rintro ⟨name, hname, -⟩
    exact ⟨_, Option.bind_eq_some_iff.2 ⟨name, hname, rfl⟩⟩

theorem readFrom_of_recordOf (h : recordOf?
      (contextOf skillFile skillName shownParameters trackIndex members) actionIndex
      (.object action) = some r) : ReadFrom members action r := by
  obtain ⟨name, hname, h⟩ := Option.bind_eq_some_iff.1 h
  cases h
  exact ⟨rfl, rfl, rfl, hname, rfl, rfl, rfl⟩

theorem trackRecords_eq_some : (trackRecords skillFile skillName shownParameters trackIndex
      track)[actionIndex]? = some (some r) ↔
    ∃ members actions action, track = .object members ∧
      members.lookup "actions" = some (.array actions) ∧
      actions[actionIndex]? = some (.object action) ∧
      recordOf? (contextOf skillFile skillName shownParameters trackIndex members) actionIndex
        (.object action) = some r := by
  constructor
  · intro h
    unfold trackRecords at h
    split at h
    · cases h
    rename_i members hmembers
    rw [List.getElem?_mapIdx] at h
    obtain ⟨v, hv, hr⟩ := Option.map_eq_some_iff.1 h
    -- only objects among the actions give records
    obtain ⟨action, haction, -⟩ := Option.bind_eq_some_iff.1 hr
    obtain rfl := asObject_eq_some.1 haction
    cases hactions : (members.lookup "actions").bind Value.asArray? with
    | none => simp [hactions] at hv
    | some actions =>
      obtain ⟨w, hw, harray⟩ := Option.bind_eq_some_iff.1 hactions
      rw [asArray_eq_some.1 harray] at hw
      rw [hactions] at hv
      exact ⟨members, actions, action, asObject_eq_some.1 hmembers, hw, hv, hr⟩
  · rintro ⟨members, actions, action, rfl, hactions, haction, hr⟩
    have htrack : trackRecords skillFile skillName shownParameters trackIndex (.object members) =
        actions.mapIdx
          (recordOf? (contextOf skillFile skillName shownParameters trackIndex members)) := by
      simp only [trackRecords, Value.asObject?, hactions, Option.bind_some, Value.asArray?,
        Option.getD_some]
      rfl
    rw [htrack, List.getElem?_mapIdx, haction, Option.map_some, hr]

theorem mem_records : r ∈ ((tracks.mapIdx
      (trackRecords skillFile skillName shownParameters)).flatten).filterMap id ↔
    ∃ t a members action, ActionAt tracks t a members action ∧
      recordOf? (contextOf skillFile skillName shownParameters t members) a (.object action) =
        some r := by
  constructor
  · intro h
    obtain ⟨t, ht, hmem⟩ := exists_track_of_mem h
    obtain ⟨a, ha⟩ := List.mem_iff_getElem?.1 hmem
    obtain ⟨members, actions, action, htrack, hactions, haction, hr⟩ := trackRecords_eq_some.1 ha
    have htrack' : tracks[t]? = some (.object members) := by
      rw [List.getElem?_eq_getElem ht, htrack]
    exact ⟨t, a, members, action, ⟨htrack', actions, hactions, haction⟩, hr⟩
  · rintro ⟨t, a, members, action, ⟨htrack, actions, hactions, haction⟩, hr⟩
    obtain ⟨ht, htrack⟩ := List.getElem?_eq_some_iff.1 htrack
    have hentry := trackRecords_eq_some.2
      ⟨members, actions, action, htrack, hactions, haction, hr⟩
    have hmem := List.mem_flatten.2
      ⟨_, List.mem_mapIdx.2 ⟨t, ht, rfl⟩, List.mem_of_getElem? hentry⟩
    exact List.mem_filterMap.2 ⟨some r, hmem, rfl⟩

theorem length_filterMap_add_countP {α : Type} (entries : List (Option α)) :
    (entries.filterMap id).length + entries.countP Option.isNone = entries.length := by
  rw [List.length_filterMap_eq_countP, List.length_eq_countP_add_countP fun e ↦ (id e).isSome]
  exact congrArg _ (List.countP_congr fun e _ ↦ by cases e <;> simp)

theorem length_entries (tracks : List Value) :
    ((tracks.mapIdx (trackRecords skillFile skillName shownParameters)).flatten).length =
      (tracks.map fun track ↦ (actionsOf track).length).sum := by
  rw [List.length_flatten]
  refine congrArg _ (List.ext_getElem (by simp) fun t ht ht' ↦ ?_)
  simp [length_trackRecords]

theorem follow_of_actionAt (hdocument : HasTracks document tracks)
    (h : ActionAt tracks trackIndex actionIndex members action) :
    Locator.follow (locatorOf trackIndex actionIndex) document = some (.object action) := by
  obtain ⟨root, rfl, htracks⟩ := hdocument
  obtain ⟨htrack, actions, hactions, haction⟩ := h
  simp [Locator.follow_locatorOf, Value.get?, Value.item?, Value.asObject?, Value.asArray?, htracks,
    htrack, hactions, haction]

theorem hasTracks_iff {root : Members} : HasTracks (.object root) tracks ↔
    (root.lookup "tracks").bind Value.asArray? = some tracks := by
  simp [HasTracks, Option.bind_eq_some_iff, asArray_eq_some]

theorem flatten_eq_error :
    (∃ e, flatten skillFile defaultName shownParameters document = .error e) ↔
      ¬∃ tracks, HasTracks document tracks := by
  cases document with
  | object root =>
    simp only [hasTracks_iff, flatten, Value.asObject?]
    cases (root.lookup "tracks").bind Value.asArray? <;> simp
  | _ => simp [flatten, HasTracks, Value.asObject?]

theorem flatten_of_hasTracks (h : HasTracks document tracks) : ∃ skillName,
    flatten skillFile defaultName shownParameters document =
      let entries := (tracks.mapIdx (trackRecords skillFile skillName shownParameters)).flatten
      .ok ⟨entries.filterMap id, entries.countP Option.isNone⟩ := by
  obtain ⟨root, rfl, htracks⟩ := h
  exact ⟨_, by simp only [flatten, Value.asObject?, htracks, Option.bind_some, Value.asArray?]; rfl⟩

theorem indices_of_recordOf {context : TrackContext} {v : Value}
    (h : recordOf? context actionIndex v = some r) :
    r.trackIndex = context.trackIndex ∧ r.actionIndex = actionIndex :=
  ⟨(at_of_recordOf h).trackIndex, (at_of_recordOf h).actionIndex⟩

theorem ActionAt.unique {track track' action' : Members}
    (h : ActionAt tracks trackIndex actionIndex track action)
    (h' : ActionAt tracks trackIndex actionIndex track' action') :
    track = track' ∧ action = action' := by
  obtain ⟨htrack, actions, hactions, haction⟩ := h
  obtain ⟨htrack', actions', hactions', haction'⟩ := h'
  rw [htrack, Option.some.injEq, Value.object.injEq] at htrack'
  subst htrack'
  rw [hactions, Option.some.injEq, Value.array.injEq] at hactions'
  subst hactions'
  rw [haction, Option.some.injEq, Value.object.injEq] at haction'
  exact ⟨rfl, haction'⟩

theorem readFrom_of_flatten {f : Flattened} {track : Members}
    (h : flatten skillFile defaultName shownParameters document = .ok f)
    (htracks : HasTracks document tracks) (hr : r ∈ f.records)
    (hat : ActionAt tracks r.trackIndex r.actionIndex track action) : ReadFrom track action r := by
  obtain ⟨skillName, hflatten⟩ := flatten_of_hasTracks htracks
  rw [hflatten] at h
  cases h
  obtain ⟨t, a, track', action', hat', hrecord⟩ := mem_records.1 hr
  obtain ⟨ht, ha⟩ := indices_of_recordOf hrecord
  rw [ht, ha] at hat
  obtain ⟨rfl, rfl⟩ := hat.unique hat'
  exact readFrom_of_recordOf hrecord

theorem exists_record_of_flatten {f : Flattened} {track : Members} {name : String}
    (h : flatten skillFile defaultName shownParameters document = .ok f)
    (htracks : HasTracks document tracks)
    (hat : ActionAt tracks trackIndex actionIndex track action)
    (hname : actionType? action = some name) :
    ∃ r ∈ f.records, r.trackIndex = trackIndex ∧ r.actionIndex = actionIndex := by
  obtain ⟨skillName, hflatten⟩ := flatten_of_hasTracks htracks
  rw [hflatten] at h
  cases h
  obtain ⟨r, hrecord⟩ := exists_recordOf.2 ⟨name, hname, (trimmed_actionType hname).1⟩
  exact ⟨r, mem_records.2 ⟨_, _, track, action, hat, hrecord⟩, indices_of_recordOf hrecord⟩

/-- Flattening fails on documents without tracks only, and else neither loses nor makes up an
action. -/
theorem flatten_conserves (skillFile defaultName : String) (shownParameters : Nat)
    (document : Value) :
    ((∃ e, flatten skillFile defaultName shownParameters document = .error e) ↔
      ¬∃ tracks, HasTracks document tracks) ∧
    ∀ tracks, HasTracks document tracks → ∃ f,
      flatten skillFile defaultName shownParameters document = .ok f ∧
        Conserves document tracks f := by
  refine ⟨flatten_eq_error, fun tracks htracks ↦ ?_⟩
  obtain ⟨skillName, hflatten⟩ := flatten_of_hasTracks htracks
  refine ⟨_, hflatten, ?_, ?_, ?_, ?_⟩
  · have hfile {r : ActionRecord} (hr : r ∈ _) := skillFile_of_flatten hflatten hr
    refine (pairwise_flatten hflatten).imp_of_mem fun {r s} hr hs hbefore ↦ ?_
    rcases hbefore with hlt | ⟨-, hlt⟩
    · rw [hfile hr, hfile hs] at hlt
      exact absurd hlt (List.lt_irrefl _)
    · exact hlt
  · intro t a
    constructor
    · rintro ⟨r, hr, rfl, rfl⟩
      obtain ⟨t, a, track, action, hat, hrecord⟩ := mem_records.1 hr
      obtain ⟨ht, ha⟩ := indices_of_recordOf hrecord
      obtain ⟨name, hname⟩ := exists_recordOf.1 ⟨r, hrecord⟩
      rw [ht, ha]
      exact ⟨track, action, name, hat, hname⟩
    · rintro ⟨track, action, name, hat, hname⟩
      obtain ⟨r, hrecord⟩ := exists_recordOf.2 ⟨name, hname⟩
      exact ⟨r, mem_records.2 ⟨t, a, track, action, hat, hrecord⟩, indices_of_recordOf hrecord⟩
  · rw [length_filterMap_add_countP, length_entries]
  · intro r hr
    obtain ⟨t, a, track, action, hat, hrecord⟩ := mem_records.1 hr
    obtain ⟨ht, ha⟩ := indices_of_recordOf hrecord
    have hlocator := (at_of_recordOf hrecord).placed.locator
    rw [hlocator, ht, ha]
    exact ⟨track, action, hat, readFrom_of_recordOf hrecord, follow_of_actionAt htracks hat⟩

def malformedTracks : List Value :=
  [.null, .object [("actions", .array [.null, .object [("frame", .null)],
    .object [("$type", .string "3|Game.Skills.DamageAction, Assembly-CSharp")]])]]

theorem flatten_conserves_malformed :
    HasTracks (.object [("tracks", .array malformedTracks)]) malformedTracks ∧
      ∃ f, flatten "a.json" "a" 3 (.object [("tracks", .array malformedTracks)]) = .ok f ∧
        Conserves (.object [("tracks", .array malformedTracks)]) malformedTracks f :=
  have htracks : HasTracks (.object [("tracks", .array malformedTracks)]) malformedTracks :=
    ⟨_, rfl, rfl⟩
  ⟨htracks, (flatten_conserves "a.json" "a" 3 _).2 malformedTracks htracks⟩

end SkillDocument

end ActionCatalog
