import ActionCatalog.Proofs.SkillDocument.Conservation
import ActionCatalog.Proofs.SkillDocument.Spelling

namespace ActionCatalog

open Json (Value)
open Text

namespace TypeTag

/-- What a tag is made of. Only the name is always there. -/
structure Parts where
  reference : Option (List Char)
  scope : Option (List Char)
  name : List Char
  assembly : Option (List Char)

namespace Parts

def qualifiedName (p : Parts) : List Char := p.scope.elim [] (· ++ ['.']) ++ p.name

def typeText (p : Parts) : List Char := p.qualifiedName ++ p.assembly.elim [] (',' :: ·)

def spell (p : Parts) : List Char := p.reference.elim [] (· ++ ['|']) ++ p.typeText

/-- Whether the parts can be told from their text: the first bar ends the reference, the first comma
after it the name, and the last dot before that comma the namespace. -/
structure Separated (p : Parts) : Prop where
  reference : ∀ cs ∈ p.reference, '|' ∉ cs
  no_bar : p.reference = none → '|' ∉ p.typeText
  no_comma : ',' ∉ p.qualifiedName
  no_dot : '.' ∉ p.name

end Parts

variable {p : Parts} {cs tag : List Char}

namespace Parts.Separated

theorem afterFirst (h : p.Separated) (htag : Padded p.spell tag) :
    Padded p.typeText (afterFirst '|' tag) := by
  obtain ⟨before, after, hbefore, hafter, rfl⟩ := htag
  have hbar : '|' ∉ before := notMem_of_blank (by decide) hbefore
  have hbar' : '|' ∉ after := notMem_of_blank (by decide) hafter
  cases hreference : p.reference with
  | none =>
    have hspell : p.spell = p.typeText := by simp [spell, hreference]
    rw [hspell, afterFirst_of_notMem (by simp [hbar, hbar', h.no_bar hreference])]
    exact ⟨before, after, hbefore, hafter, rfl⟩
  | some cs =>
    have hspell : before ++ (p.spell ++ after) =
        (before ++ cs) ++ '|' :: (p.typeText ++ after) := by simp [spell, hreference]
    rw [hspell, afterFirst_append (by simp [hbar, h.reference cs hreference])]
    exact ⟨[], after, List.forall_mem_nil _, hafter, rfl⟩

theorem before (h : p.Separated) (htype : Padded p.typeText cs) :
    Padded p.qualifiedName (before ',' cs) := by
  obtain ⟨front, back, hfront, hback, rfl⟩ := htype
  have hcomma : ',' ∉ front := notMem_of_blank (by decide) hfront
  have hcomma' : ',' ∉ back := notMem_of_blank (by decide) hback
  cases hassembly : p.assembly with
  | none =>
    have htext : p.typeText = p.qualifiedName := by simp [typeText, hassembly]
    rw [htext, before_of_notMem (by simp [hcomma, hcomma', h.no_comma])]
    exact ⟨front, back, hfront, hback, rfl⟩
  | some assembly =>
    have htext : front ++ (p.typeText ++ back) =
        (front ++ p.qualifiedName) ++ ',' :: (assembly ++ back) := by simp [typeText, hassembly]
    rw [htext, before_append (by simp [hcomma, h.no_comma])]
    exact ⟨front, [], hfront, List.forall_mem_nil _, by simp⟩

theorem afterLast (h : p.Separated) :
    trimList (afterLast '.' (trimList p.qualifiedName)) = trimList p.name := by
  cases hscope : p.scope with
  | none =>
    have hname : p.qualifiedName = p.name := by simp [qualifiedName, hscope]
    have hdot : '.' ∉ trimList p.name := fun hmem ↦ h.no_dot ((padded_trimList _).subset hmem)
    rw [hname, afterLast_of_notMem hdot, trimList_trimList]
  | some scope =>
    have hname : p.qualifiedName = scope ++ '.' :: p.name := by simp [qualifiedName, hscope]
    have hpadded := padded_rdropWhile p.name
    have hdot : '.' ∉ p.name.rdropWhile isBlank := fun hmem ↦ h.no_dot (hpadded.subset hmem)
    rw [hname, trimList_append_cons (by decide), afterLast_append hdot,
      trimList_of_padded hpadded]

theorem bareNameList (h : p.Separated) (htag : Padded p.spell tag) :
    bareNameList tag = trimList p.name := by
  have hqualified := trimList_of_padded (h.before (h.afterFirst htag))
  rw [TypeTag.bareNameList, hqualified]
  exact h.afterLast

end Parts.Separated

theorem exists_reference (cs : List Char) : ∃ (reference : Option (List Char)) (rest : List Char),
    cs = reference.elim [] (· ++ ['|']) ++ rest ∧ (∀ r ∈ reference, '|' ∉ r) ∧
      (reference = none → '|' ∉ rest) := by
  by_cases hbar : '|' ∈ cs
  · obtain ⟨r, rest, rfl, hr⟩ := List.eq_append_cons_of_mem hbar
    exact ⟨some r, rest, by simp, by simpa using hr, by simp⟩
  · exact ⟨none, cs, rfl, by simp, fun _ ↦ hbar⟩

theorem exists_assembly (cs : List Char) : ∃ (name : List Char) (assembly : Option (List Char)),
    cs = name ++ assembly.elim [] (',' :: ·) ∧ ',' ∉ name := by
  by_cases hcomma : ',' ∈ cs
  · obtain ⟨name, assembly, rfl, hname⟩ := List.eq_append_cons_of_mem hcomma
    exact ⟨name, some assembly, rfl, hname⟩
  · exact ⟨cs, none, by simp, hcomma⟩

theorem exists_scope (cs : List Char) : ∃ (scope : Option (List Char)) (name : List Char),
    cs = scope.elim [] (· ++ ['.']) ++ name ∧ '.' ∉ name := by
  by_cases hdot : '.' ∈ cs
  · -- the last dot is the first one from behind
    obtain ⟨name, scope, hcs, hname⟩ := List.eq_append_cons_of_mem (List.mem_reverse.2 hdot)
    refine ⟨some scope.reverse, name.reverse, ?_, by simpa using hname⟩
    rw [← List.reverse_inj, hcs]
    simp
  · exact ⟨none, cs, rfl, hdot⟩

theorem exists_parts (tag : List Char) : ∃ p : Parts, p.Separated ∧ p.spell = tag := by
  obtain ⟨reference, rest, rfl, hreference, hbar⟩ := exists_reference tag
  obtain ⟨qualified, assembly, rfl, hcomma⟩ := exists_assembly rest
  obtain ⟨scope, name, rfl, hdot⟩ := exists_scope qualified
  exact ⟨⟨reference, scope, name, assembly⟩, ⟨hreference, hbar, hcomma, hdot⟩, rfl⟩

theorem notMem_bareName (tag : String) :
    ',' ∉ (bareName tag).toList ∧ '.' ∉ (bareName tag).toList := by
  obtain ⟨p, hp, htag⟩ := exists_parts tag.toList
  have hpadded : Padded p.spell tag.toList := ⟨[], [], by simp, by simp, by simp [htag]⟩
  have hcomma : ',' ∉ p.name := fun hmem ↦ hp.no_comma (List.mem_append_right _ hmem)
  have hsubset := (padded_trimList p.name).subset
  rw [bareName, String.toList_ofList, hp.bareNameList hpadded]
  exact ⟨fun hmem ↦ hcomma (hsubset hmem), fun hmem ↦ hp.no_dot (hsubset hmem)⟩

end TypeTag

namespace SkillDocument

variable {skillFile skillName defaultName : String} {shownParameters trackIndex actionIndex : Nat}
  {document v : Value} {track action : Members} {tracks : List Value} {names : List String}
  {f : Flattened}

def Unnamed (action : Members) : Prop :=
  ∀ name ∈ typeNames, ∀ s, action.lookup name = some (.string s) → ∀ c ∈ s.toList, isBlank c = true

/-- Whether an element of the actions is passed over, as no object or as one without a type. -/
def isSkipped : Value → Bool
  | .object action => (actionType? action).isNone
  | _ => true

theorem textMember_eq_none : textMember? names action = none ↔ ∀ name ∈ names, ∀ s,
    action.lookup name = some (.string s) → ∀ c ∈ s.toList, isBlank c = true := by
  unfold textMember?
  rw [List.findSome?_eq_none_iff]
  refine forall₂_congr fun name _ ↦ ?_
  cases action.lookup name with
  | none => simp
  | some v =>
    cases v with
    | string s => simpa [Value.asString?] using trim_eq_empty
    | _ => simp [Value.asString?]

theorem isSkipped_tagged {tag : String} (htag : action.lookup "$type" = some (.string tag)) :
    isSkipped (.object action) = true ↔ TypeTag.bareName tag = "" ∧ Unnamed action := by
  have hnamed : textMember? typeNames action = none ↔ Unnamed action := textMember_eq_none
  rw [isSkipped, Option.isNone_iff_eq_none, actionType?, Option.or_eq_none_iff]
  change textMember? typeNames action = none ∧ _ ↔ _
  rw [hnamed, htag]
  simp [Value.asString?, and_comm]

theorem isNone_recordOf {context : TrackContext} :
    (recordOf? context actionIndex v).isNone = isSkipped v := by
  cases v with
  | object action =>
    simp only [recordOf?, isSkipped, Value.asObject?, Option.bind_eq_bind, Option.bind_some]
    cases actionType? action <;> rfl
  | _ => rfl

theorem countP_trackRecords (track : Value) :
    (trackRecords skillFile skillName shownParameters trackIndex track).countP Option.isNone =
      (actionsOf track).countP isSkipped := by
  have hentries : (trackRecords skillFile skillName shownParameters trackIndex track).map
      Option.isNone = (actionsOf track).map isSkipped := by
    cases track with
    | object members =>
      refine List.ext_getElem (by simp [length_trackRecords]) fun i hi hi' ↦ ?_
      simp [trackRecords, Value.asObject?, isNone_recordOf, actionsOf, Value.get?]
    | _ => rfl
  simpa [List.countP_map] using congrArg (List.countP id) hentries

theorem skipped_of_flatten (h : flatten skillFile defaultName shownParameters document = .ok f)
    (htracks : HasTracks document tracks) :
    f.skipped = (tracks.map fun track ↦ (actionsOf track).countP isSkipped).sum := by
  obtain ⟨skillName, hflatten⟩ := flatten_of_hasTracks htracks
  rw [hflatten] at h
  cases h
  rw [List.countP_flatten]
  refine congrArg _ (List.ext_getElem (by simp) fun t ht ht' ↦ ?_)
  simp [countP_trackRecords]

theorem exists_record_iff (h : flatten skillFile defaultName shownParameters document = .ok f)
    (htracks : HasTracks document tracks)
    (hat : ActionAt tracks trackIndex actionIndex track action) :
    (∃ r ∈ f.records, r.trackIndex = trackIndex ∧ r.actionIndex = actionIndex) ↔
      isSkipped (.object action) = false := by
  constructor
  · rintro ⟨r, hr, rfl, rfl⟩
    have hread := readFrom_of_flatten h htracks hr hat
    rw [isSkipped, hread.actionType]
    rfl
  · intro hskipped
    obtain ⟨name, hname⟩ := Option.isSome_iff_exists.1 (Option.isNone_eq_false_iff.1 hskipped)
    exact exists_record_of_flatten h htracks hat hname

/-- A tag gives the name among its parts, and whatever the tag, there are no commas or dots left and
no blanks at the ends. An action that has a tag is passed over, which is counted, just if its tag
gives no name and no other member names its type. -/
theorem tags_normalized :
    (∀ (p : TypeTag.Parts) (name tag : List Char), p.Separated → Padded name p.name →
      Padded p.spell tag → TypeTag.bareName (String.ofList tag) = trim (String.ofList name)) ∧
    (∀ tag, trim (TypeTag.bareName tag) = TypeTag.bareName tag ∧
      ',' ∉ (TypeTag.bareName tag).toList ∧ '.' ∉ (TypeTag.bareName tag).toList) ∧
    ∀ skillFile defaultName shownParameters document tracks, HasTracks document tracks →
      ∃ f, flatten skillFile defaultName shownParameters document = .ok f ∧
        f.skipped = (tracks.map fun track ↦ (actionsOf track).countP isSkipped).sum ∧
        ∀ t a track action tag, ActionAt tracks t a track action →
          action.lookup "$type" = some (.string tag) →
          (isSkipped (.object action) = true ↔ TypeTag.bareName tag = "" ∧ Unnamed action) ∧
          ((¬∃ r ∈ f.records, r.trackIndex = t ∧ r.actionIndex = a) ↔
            TypeTag.bareName tag = "" ∧ Unnamed action) := by
  refine ⟨fun p name tag hp hname htag ↦ ?_, fun tag ↦ ?_, ?_⟩
  · rw [TypeTag.bareName, String.toList_ofList, hp.bareNameList htag, trimList_of_padded hname,
      trim, String.toList_ofList]
  · exact ⟨trim_bareName tag, TypeTag.notMem_bareName tag⟩
  · intro skillFile defaultName shownParameters document tracks htracks
    obtain ⟨skillName, hflatten⟩ := flatten_of_hasTracks htracks
    refine ⟨_, hflatten, skipped_of_flatten hflatten htracks, ?_⟩
    intro t a track action tag hat htag
    have hskipped := isSkipped_tagged htag
    refine ⟨hskipped, ?_⟩
    rw [← hskipped, exists_record_iff hflatten htracks hat, Bool.not_eq_false]

def taggedTracks : List Value :=
  [.object [("actions", .array [
    .object [("$type", .string " Game.Skills. , Core"), ("type", .string " ")],
    .object [("$type", .string " 2|Game. Damage , Core|2.0 ")],
    .object [("$type", .string "."), ("type", .string "Buff")]])]]

theorem tags_normalized_nameless :
    let p : TypeTag.Parts :=
      ⟨some "2".toList, some "Game".toList, " Damage ".toList, some " Core|2.0".toList⟩
    let document : Value := .object [("tracks", .array taggedTracks)]
    p.Separated ∧ TypeTag.bareName " 2|Game. Damage , Core|2.0 " = "Damage" ∧
      HasTracks document taggedTracks ∧ ∃ f, flatten "a.json" "a" 3 document = .ok f ∧
        f.skipped = 1 ∧ (¬∃ r ∈ f.records, r.trackIndex = 0 ∧ r.actionIndex = 0) ∧
        ∃ r ∈ f.records, r.trackIndex = 0 ∧ r.actionIndex = 2 := by
  intro p document
  have hp : p.Separated := ⟨by decide, by decide, by decide, by decide⟩
  have htracks : HasTracks document taggedTracks := ⟨_, rfl, rfl⟩
  obtain ⟨hparts, -, hflatten⟩ := tags_normalized
  have hspace : ∀ c ∈ [' '], isBlank c = true := List.forall_mem_singleton.2 rfl
  have hname : TypeTag.bareName " 2|Game. Damage , Core|2.0 " = trim "Damage" :=
    hparts p "Damage".toList " 2|Game. Damage , Core|2.0 ".toList hp
      ⟨[' '], [' '], hspace, hspace, rfl⟩ ⟨[' '], [' '], hspace, hspace, rfl⟩
  obtain ⟨f, hf, hskipped, hrecords⟩ := hflatten "a.json" "a" 3 document taggedTracks htracks
  obtain ⟨-, hfirst⟩ := hrecords 0 0 _ _ " Game.Skills. , Core" ⟨rfl, _, rfl, rfl⟩ rfl
  obtain ⟨-, hlast⟩ := hrecords 0 2 _ _ "." ⟨rfl, _, rfl, rfl⟩ rfl
  refine ⟨hp, hname.trans (by decide), htracks, f, hf, hskipped.trans (by decide), ?_, ?_⟩
  · exact hfirst.2 ⟨by decide, textMember_eq_none.1 (by decide)⟩
  · by_contra hnone
    have hblank : isBlank 'B' = true :=
      (hlast.1 hnone).2 "type" (by decide) "Buff" rfl 'B' (by decide)
    cases hblank

end SkillDocument

end ActionCatalog
