import ActionCatalog.ActionRecord.Basic
import ActionCatalog.Proofs.Keyed
import ActionCatalog.Proofs.Text.Pieces
import Mathlib.Logic.ExistsUnique

namespace ActionCatalog

open Json (Value)

namespace Json.Value

def HasMember (v : Value) (name : String) (w : Value) : Prop :=
  ∃ members, v = object members ∧ members.lookup name = some w

/-- Whether members of the given names lead from one value to another one, object by object. -/
inductive Reaches : Value → List String → Value → Prop
  | here (v : Value) : Reaches v [] v
  | member {u v w : Value} {name : String} {names : List String} (h : HasMember u name v)
    (hrest : Reaches v names w) : Reaches u (name :: names) w

/-- Whether the members of the given names do not lead anywhere. -/
inductive BreaksOff : Value → List String → Prop
  | notObject {v : Value} {name : String} {names : List String}
    (h : ∀ members, v ≠ object members) : BreaksOff v (name :: names)
  | missing {members : List (String × Value)} {name : String} {names : List String}
    (h : ∀ m ∈ members, m.1 ≠ name) : BreaksOff (object members) (name :: names)
  | later {u v : Value} {name : String} {names : List String} (h : HasMember u name v)
    (hrest : BreaksOff v names) : BreaksOff u (name :: names)

end Json.Value

structure DottedParts (name : String) (parts : List String) : Prop where
  nonempty : parts ≠ []
  no_dot : ∀ part ∈ parts, '.' ∉ part.toList
  joined : ".".intercalate parts = name

def ActionRecord.attributes (r : ActionRecord) : List (String × FieldValue) := [
  ("skill_file", .text r.skillFile),
  ("skill_name", .text r.skillName),
  ("track_name", .text r.trackName),
  ("track_index", .integer (signedWord r.trackIndex)),
  ("track_enabled", .flag r.trackEnabled),
  ("action_index", .integer (signedWord r.actionIndex)),
  ("frame", .integer r.frame),
  ("duration", .integer r.duration),
  ("enabled", .flag r.enabled),
  ("action_type", .text r.actionType),
  ("json_path", .text r.locator),
  ("summary", .text r.summary)]

variable {r : ActionRecord} {u v w : Value} {name : String} {names parts : List String}

theorem hasMember_iff : v.HasMember name w ↔ v.get? name = some w := by
  cases v <;> simp [Value.HasMember, Value.get?, Value.asObject?]

theorem Json.Value.HasMember.unique (h : u.HasMember name v) (h' : u.HasMember name w) : v = w :=
  Option.some.inj ((hasMember_iff.1 h).symm.trans (hasMember_iff.1 h'))

theorem forall_not_hasMember : (∀ w, ¬v.HasMember name w) ↔ v.get? name = none := by
  simp only [hasMember_iff, Option.eq_none_iff_forall_ne_some, ne_eq]

theorem get_eq_none : v.get? name = none ↔ (∀ members, v ≠ .object members) ∨
    ∃ members, v = .object members ∧ ∀ m ∈ members, m.1 ≠ name := by
  cases v with
  | object members =>
    have hlookup : members.lookup name = none ↔ ∀ m ∈ members, m.1 ≠ name := by
      rw [List.lookup_eq_none_iff]
      exact forall₂_congr fun m _ ↦ bne_iff_ne.trans ne_comm
    simpa [Value.get?, Value.asObject?] using hlookup
  | _ => simp [Value.get?, Value.asObject?]

theorem descend_eq_some : descend names v = some w ↔ v.Reaches names w := by
  induction names generalizing v with
  | nil =>
    constructor
    · rintro ⟨⟩
      exact .here _
    · rintro ⟨⟩
      rfl
  | cons name names ih =>
    rw [descend, Option.bind_eq_some_iff]
    constructor
    · rintro ⟨u, hu, hw⟩
      exact .member (hasMember_iff.2 hu) (ih.1 hw)
    · rintro (_ | ⟨hmember, hrest⟩)
      exact ⟨_, hasMember_iff.1 hmember, ih.2 hrest⟩

theorem descend_eq_none : descend names v = none ↔ v.BreaksOff names := by
  induction names generalizing v with
  | nil =>
    constructor
    · rintro ⟨⟩
    · rintro ⟨⟩
  | cons name names ih =>
    rw [descend, Option.bind_eq_none_iff]
    constructor
    · intro h
      cases hu : v.get? name with
      | none =>
        rcases get_eq_none.1 hu with hobject | ⟨members, rfl, hmembers⟩
        · exact .notObject hobject
        · exact .missing hmembers
      | some u => exact .later (hasMember_iff.2 hu) (ih.1 (h u hu))
    · intro h u hu
      cases h with
      | notObject hobject =>
        rw [get_eq_none.2 (.inl hobject)] at hu
        cases hu
      | missing hmembers =>
        rw [get_eq_none.2 (.inr ⟨_, rfl, hmembers⟩)] at hu
        cases hu
      | later hmember hrest =>
        rw [(hasMember_iff.2 hu).unique hmember]
        exact ih.2 hrest

theorem dottedParts_iff :
    DottedParts name parts ↔ parts = (Text.pieces '.' name.toList).map String.ofList := by
  constructor
  · rintro ⟨hne, hdot, rfl⟩
    have hpieces : Text.pieces '.' (".".intercalate parts).toList = parts.map String.toList := by
      rw [String.toList_intercalate]
      refine Text.pieces_intercalate (fun p hp ↦ ?_) (by simpa using hne)
      obtain ⟨part, hpart, rfl⟩ := List.mem_map.1 hp
      exact hdot part hpart
    rw [hpieces, List.map_map]
    simp
  · rintro rfl
    refine ⟨by simpa using Text.pieces_ne_nil _, fun part hpart ↦ ?_, ?_⟩
    · obtain ⟨p, hp, rfl⟩ := List.mem_map.1 hpart
      rw [String.toList_ofList]
      exact (Text.of_mem_pieces hp).1
    · apply String.toList_inj.1
      have hchars : String.toList ∘ String.ofList = id := funext fun _ ↦ String.toList_ofList
      rw [String.toList_intercalate, List.map_map, hchars, List.map_id]
      exact Text.intercalate_pieces name.toList

namespace ActionRecord

theorem attribute_eq_some {f : FieldValue} :
    r.attribute? name = some f ↔ (name, f) ∈ r.attributes := by
  unfold attribute?
  split <;> simp_all [attributes, eq_comm]

theorem parameter_of_hasMember (h : r.parameters.HasMember name v) :
    r.parameter? name = some v := by
  rw [parameter?, hasMember_iff.1 h]

theorem parameter_of_dotted (h : ∀ v, ¬r.parameters.HasMember name v)
    (hparts : DottedParts name parts) : r.parameter? name = descend parts r.parameters := by
  rw [parameter?, forall_not_hasMember.1 h, dottedParts_iff.1 hparts]

theorem field_of_attribute {f : FieldValue} (h : (name, f) ∈ r.attributes) :
    r.field? name = some f := by
  rw [field?, attribute_eq_some.2 h, Option.some_or]

theorem field_of_notMem (h : name ∉ r.attributes.map Prod.fst) :
    r.field? name = (r.parameter? name).map .parameter := by
  have hnone : r.attribute? name = none := by
    refine Option.eq_none_iff_forall_ne_some.2 fun f hf ↦ h ?_
    exact List.mem_map_of_mem (attribute_eq_some.1 hf)
  rw [field?, hnone, Option.none_or]

theorem parameter_of_not_object (h : ∀ members, r.parameters ≠ .object members) :
    r.parameter? name = none := by
  have hmember : ∀ v, ¬r.parameters.HasMember name v := by
    rintro v ⟨members, hobject, -⟩
    exact h members hobject
  have hparts : DottedParts name _ := dottedParts_iff.2 rfl
  obtain ⟨part, parts, hcons⟩ := List.exists_cons_of_ne_nil hparts.nonempty
  rw [parameter_of_dotted hmember hparts, hcons, descend_eq_none]
  exact .notObject h

theorem mem_attributes_iff {f : FieldValue} :
    (name, f) ∈ r.attributes ↔ ∀ parameters, { r with parameters }.field? name = some f := by
  constructor
  · intro h parameters
    exact field_of_attribute h
  · intro h
    by_cases hname : name ∈ r.attributes.map Prod.fst
    · obtain ⟨⟨_, g⟩, hg, rfl⟩ := List.mem_map.1 hname
      have hfg := (field_of_attribute hg).symm.trans (h r.parameters)
      rw [← Option.some.inj hfg]
      exact hg
    · let bare : ActionRecord := { r with parameters := .null }
      have hbare : bare.field? name = (bare.parameter? name).map .parameter :=
        field_of_notMem hname
      rw [parameter_of_not_object (by simp [bare]), h .null] at hbare
      cases hbare

/-- The attributes are the fields that are the same whatever the parameters are. Any other name is
that of a parameter, or else of what its parts lead to. A value that its parts lead to is found by
it just if no other value is the parameter of this name. -/
theorem field_reaches (r : ActionRecord) (name : String) :
    (∀ f, (name, f) ∈ r.attributes ↔ ∀ parameters, { r with parameters }.field? name = some f) ∧
    (name ∉ r.attributes.map Prod.fst → r.field? name = (r.parameter? name).map .parameter) ∧
    (∀ v, r.parameters.HasMember name v → r.parameter? name = some v) ∧
    (∃! parts, DottedParts name parts) ∧
    ∀ parts, DottedParts name parts →
      ((∀ v, ¬r.parameters.HasMember name v) →
        (∀ v, r.parameter? name = some v ↔ r.parameters.Reaches parts v) ∧
        (r.parameter? name = none ↔ r.parameters.BreaksOff parts)) ∧
      ∀ v, r.parameters.Reaches parts v →
        (r.parameter? name = some v ↔ ∀ w, r.parameters.HasMember name w → w = v) := by
  refine ⟨fun f ↦ mem_attributes_iff, field_of_notMem, fun v ↦ parameter_of_hasMember, ?_, ?_⟩
  · exact ⟨_, dottedParts_iff.2 rfl, fun parts ↦ dottedParts_iff.1⟩
  · intro parts hparts
    constructor
    · intro hnone
      rw [parameter_of_dotted hnone hparts]
      exact ⟨fun v ↦ descend_eq_some, descend_eq_none⟩
    · intro v hv
      by_cases hmember : ∃ w, r.parameters.HasMember name w
      · obtain ⟨w, hw⟩ := hmember
        rw [parameter_of_hasMember hw, Option.some.injEq]
        exact ⟨fun heq w' hw' ↦ (hw'.unique hw).trans heq, fun h ↦ h w hw⟩
      · have hnone := not_exists.1 hmember
        rw [parameter_of_dotted hnone hparts, descend_eq_some]
        exact iff_of_true hv fun w hw ↦ absurd hw (hnone w)

theorem field_reaches_empty_part :
    let r : ActionRecord := { (default : ActionRecord) with parameters := .object [
      ("a", .object [("", .object [("c", .array [.null])]), ("b", .string "inner")]),
      ("a.b", .string "whole"), ("frame", .bool false)] }
    r.parameters.HasMember "a.b" (.string "whole") ∧
      r.parameters.Reaches ["a", "", "c"] (.array [.null]) ∧
      r.parameter? "a.b" = some (.string "whole") ∧
      r.field? "a..c" = some (.parameter (.array [.null])) ∧ r.parameter? "a..c.0" = none ∧
      ∀ parameters, { r with parameters }.field? "frame" = some (.integer 0) := by
  intro r
  have hwhole : r.parameters.HasMember "a.b" (.string "whole") := ⟨_, rfl, rfl⟩
  have hreach : r.parameters.Reaches ["a", "", "c"] (.array [.null]) :=
    .member ⟨_, rfl, rfl⟩ (.member ⟨_, rfl, rfl⟩ (.member ⟨_, rfl, rfl⟩ (.here _)))
  have hbreak : r.parameters.BreaksOff ["a", "", "c", "0"] :=
    .later ⟨_, rfl, rfl⟩ (.later ⟨_, rfl, rfl⟩ (.later ⟨_, rfl, rfl⟩ (.notObject (by simp))))
  obtain ⟨-, -, hexact, -⟩ := field_reaches r "a.b"
  obtain ⟨-, hfield, -, -, hinner⟩ := field_reaches r "a..c"
  obtain ⟨-, -, -, -, hlist⟩ := field_reaches r "a..c.0"
  obtain ⟨hframe, -⟩ := field_reaches r "frame"
  have hfound := (hinner ["a", "", "c"] ⟨by decide, by decide, by decide⟩).2 _ hreach
  have hlost := (hlist ["a", "", "c", "0"] ⟨by decide, by decide, by decide⟩).1
    (forall_not_hasMember.2 rfl)
  refine ⟨hwhole, hreach, hexact _ hwhole, ?_, hlost.2.2 hbreak, (hframe _).1 (by decide)⟩
  rw [hfield (by decide), hfound.2 fun w hw ↦ absurd hw (forall_not_hasMember.2 rfl w)]
  rfl

end ActionRecord

end ActionCatalog
