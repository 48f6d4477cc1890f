import ActionCatalog.Proofs.Catalog.ArtifactRoundTrip
import ActionCatalog.Proofs.Catalog.Build
import ActionCatalog.Proofs.Json.Nesting
import ActionCatalog.Proofs.SkillDocument.Flatten

namespace ActionCatalog

open Json (Value Acceptor Scanner)

namespace SkillDocument

variable {skillFile skillName : String} {shownParameters depth : Nat} {r : ActionRecord}
  {members action : Members} {v document track : Value}

theorem clamp_mem (i : Int) : -2 ^ 63 ≤ clamp i ∧ clamp i < 2 ^ 63 := by
  rw [clamp]
  omega

theorem integerMember_mem (name : String) (members : Members) :
    -2 ^ 63 ≤ integerMember name members ∧ integerMember name members < 2 ^ 63 := by
  unfold integerMember
  split
  · rename_i n hn
    cases n with
    | integer i fits =>
      rw [integerOf]
      split
      · rename_i hlt
        exact ⟨fits.1, hlt⟩
      · exact clamp_mem _
    | double x => exact clamp_mem _
  · decide

theorem nested_parametersOf (h : (Value.object action).Nested (depth + 1)) :
    (parametersOf action).Nested (depth + 1) := by
  obtain ⟨hsorted, hnested⟩ := h.members
  unfold parametersOf
  split
  · rename_i parameters hparameters
    exact (h.lookup hparameters).mono (Nat.le_succ depth)
  · exact .object (hsorted.filter _) fun m hm ↦ hnested m (List.mem_of_mem_filter hm)

theorem wellFormed_of_recordOf {context : TrackContext} {actionIndex : Nat}
    (h : v.Nested 124) (hr : recordOf? context actionIndex v = some r) : r.WellFormed := by
  obtain ⟨members, hmembers, hr⟩ := Option.bind_eq_some_iff.1 hr
  obtain ⟨actionType, -, hr⟩ := Option.bind_eq_some_iff.1 hr
  obtain rfl := Option.some.inj hr
  rw [asObject_eq_some.1 hmembers] at h
  exact ⟨integerMember_mem _ _, integerMember_mem _ _, nested_parametersOf h⟩

theorem nested_items {name : String} {items : List Value} (h : v.Nested (depth + 2))
    (hmembers : v.asObject? = some members)
    (hitems : (members.lookup name).bind Value.asArray? = some items) :
    ∀ item ∈ items, item.Nested depth := by
  obtain ⟨w, hw, hitems⟩ := Option.bind_eq_some_iff.1 hitems
  rw [asObject_eq_some.1 hmembers] at h
  have hnested := h.lookup hw
  rw [asArray_eq_some.1 hitems] at hnested
  exact hnested.items

theorem wellFormed_of_trackRecords {trackIndex : Nat} (h : track.Nested 125)
    (hr : some r ∈ trackRecords skillFile skillName shownParameters trackIndex track) :
    r.WellFormed := by
  obtain ⟨members, actions, action, hmembers, hactions, haction, _, _, hr⟩ :=
    exists_action_of_mem hr
  have haction := nested_items h hmembers hactions _ haction
  exact wellFormed_of_recordOf (haction.mono (Nat.le_succ 123)) hr

theorem wellFormed_of_flatten {defaultName : String} {f : Flattened}
    (h : document.Nested Json.maxDepth)
    (hf : flatten skillFile defaultName shownParameters document = .ok f) :
    ∀ r ∈ f.records, r.WellFormed := by
  obtain ⟨members, tracks, skillName, hmembers, htracks, hrecords⟩ := exists_of_flatten hf
  intro r hr
  rw [hrecords] at hr
  obtain ⟨i, hi, hmem⟩ := exists_track_of_mem hr
  exact wellFormed_of_trackRecords (nested_items h hmembers htracks _ (List.getElem_mem hi)) hmem

end SkillDocument

variable {steps : Nat}

namespace ActionRecord

variable {α : Type} {name : String}

/-- Whether an entry is filled in with nothing that cannot be stored. -/
def Entry.Keeps (e : Entry) : Prop :=
  ∀ v put, v.Nested 124 → e.take v = .ok put → ∀ r : ActionRecord, r.WellFormed → (put r).WellFormed

theorem keeps_accepting {accept : Acceptor α} {put : α → ActionRecord → ActionRecord}
    (h : ∀ found a r, accept found = .ok a → r.WellFormed → (put a r).WellFormed) :
    (Entry.accepting name accept put).Keeps := by
  intro v f hv hf
  obtain ⟨a, ha, rfl⟩ := exists_of_map_ok hf
  exact fun r hr ↦ h _ a r ha hr

theorem keeps_free {accept : Acceptor α} {put : α → ActionRecord → ActionRecord}
    (h : ∀ a r, (put a r).frame = r.frame ∧ (put a r).duration = r.duration ∧
      (put a r).parameters = r.parameters) : (Entry.accepting name accept put).Keeps := by
  refine keeps_accepting fun found a r _ hr ↦ ?_
  obtain ⟨hframe, hduration, hparameters⟩ := h a r
  exact ⟨hframe ▸ hr.frame, hduration ▸ hr.duration, hparameters ▸ hr.parameters⟩

theorem mem_of_integer {expected : String} {least bound i : Int} {found : Json.Found}
    (h : Acceptor.integer expected least bound found = .ok i) : least ≤ i ∧ i < bound := by
  unfold Acceptor.integer at h
  split at h
  · split at h
    · rename_i hmem
      exact Except.ok.inj h ▸ hmem
    · cases h
  · cases h

theorem keeps_entries : ∀ e ∈ entries, e.Keeps := by
  have hframe : (Entry.integer "frame" fun i r ↦ { r with frame := i }).Keeps :=
    keeps_accepting fun _ _ _ hi hr ↦ ⟨mem_of_integer hi, hr.duration, hr.parameters⟩
  have hduration : (Entry.integer "duration" fun i r ↦ { r with duration := i }).Keeps :=
    keeps_accepting fun _ _ _ hi hr ↦ ⟨hr.frame, mem_of_integer hi, hr.parameters⟩
  have hparameters :
      Entry.Keeps ⟨"parameters", fun v ↦ .ok fun r ↦ { r with parameters := v }⟩ := by
    intro v put hv hput r hr
    obtain rfl := Except.ok.inj hput
    exact ⟨hr.frame, hr.duration, hv⟩
  simp only [entries, List.forall_mem_cons]
  refine ⟨?_, ?_, ?_, ?_, ?_, ?_, hframe, hduration, ?_, ?_, ?_, hparameters, ?_,
    List.forall_mem_nil _⟩
  all_goals exact keeps_free fun _ _ ↦ ⟨rfl, rfl, rfl⟩

theorem ensures_reader : Scanner.Ensures (reader steps 125) WellFormed := by
  refine Json.Reader.ensures_structured (List.forall_mem_map.2 fun e he ↦ ?_) ?_
  · exact Json.Reader.ensures_judging fun v put hv hput ↦ keeps_entries e he v put hv hput
  · exact ⟨by decide, by decide, .scalar .null⟩

end ActionRecord

namespace Artifact

/-- All records of an artifact can be stored again. -/
theorem wellFormed_of_decode {content : List UInt8} {a : Artifact} (h : decode? content = some a) :
    ∀ r ∈ a.records, r.WellFormed := by
  have hkeeps : ∀ m ∈ members, m.Keeps (Json.stepsFor content) 126 fun a ↦
      ∀ r ∈ a.records, r.WellFormed := by
    have hfree {α : Type} {name : String} {optional : Bool} {read : Json.Reader α}
        {put : α → Artifact → Artifact} (hput : ∀ x a, (put x a).records = a.records) :
        (Json.Member.ofReader name optional read put).Keeps (Json.stepsFor content) 126 fun a ↦
          ∀ r ∈ a.records, r.WellFormed :=
      Json.Member.ensures_ofReader (P := fun _ ↦ True) (fun _ _ _ _ ↦ trivial) fun x _ a ha r hr ↦
        ha r (hput x a ▸ hr)
    simp only [members, List.forall_mem_cons]
    refine ⟨?_, ?_, ?_, ?_, ?_, ?_, List.forall_mem_nil _⟩
    case refine_6 =>
      exact Json.Member.ensures_ofReader (Json.Reader.ensures_list ActionRecord.ensures_reader)
        fun rs hrs _ _ ↦ hrs
    all_goals exact hfree fun _ _ ↦ rfl
  exact Json.Reader.ensures_readAll (P := fun a : Artifact ↦ ∀ r ∈ a.records, r.WellFormed)
    (Json.Reader.ensures_structured hkeeps (List.forall_mem_nil _)) (toOption_eq_some.1 h)

theorem wellFormed_of_load {t : FileTree} {directory root : String} {b : Baseline}
    (h : load? t directory root = some b) : ∀ r ∈ b.records, r.WellFormed := by
  obtain ⟨content, -, h⟩ := Option.bind_eq_some_iff.1 h
  obtain ⟨a, ha, h⟩ := Option.bind_eq_some_iff.1 h
  split at h
  · obtain rfl := Option.some.inj h
    exact wellFormed_of_decode ha
  · cases h

end Artifact

namespace Catalog

variable {b : Baseline} {shownParameters now : Nat}

theorem wellFormed_of_readDocument {file : CorpusFile} {f : SkillDocument.Flattened}
    (h : readDocument file shownParameters = .ok f) : ∀ r ∈ f.records, r.WellFormed := by
  obtain ⟨content, -, h⟩ := exists_of_bind_ok h
  obtain ⟨document, hdocument, h⟩ := exists_of_bind_ok h
  exact SkillDocument.wellFormed_of_flatten (Json.Value.nested_read (mapError_eq_ok.1 hdocument))
    (mapError_eq_ok.1 h)

theorem wellFormed_of_outcomeOf (hb : ∀ r ∈ b.records, r.WellFormed) (file : CorpusFile) :
    ∀ r ∈ (outcomeOf b shownParameters file).records, r.WellFormed := by
  rcases outcomeOf_cases b shownParameters file with ⟨f, hf, ho⟩ | ⟨f, hf, ho⟩ | ⟨reason, -, ho⟩
  · obtain ⟨m, -, -, -, -, rfl⟩ := Baseline.reusable_eq_some.1 hf
    rw [ho]
    exact fun r hr ↦ hb r (List.mem_of_mem_filter hr)
  · rw [ho]
    exact wellFormed_of_readDocument hf
  · rw [ho]
    exact List.forall_mem_nil _

theorem wellFormed_of_build {t : FileTree} {root : String} {s : Snapshot} {report : BuildReport}
    (hb : ∀ r ∈ b.records, r.WellFormed)
    (h : build t root b shownParameters now = .ok (s, report)) : ∀ r ∈ s.records, r.WellFormed := by
  obtain ⟨files, -, rfl, -⟩ := build_eq_ok.1 h
  intro r hr
  obtain ⟨p, hp, hr⟩ := List.mem_flatMap.1 hr
  obtain ⟨file, -, rfl⟩ := List.mem_map.1 hp
  exact wellFormed_of_outcomeOf hb file r hr

end Catalog

/-- What an earlier build can have known: nothing, what an earlier build gave, or what an artifact
offers, whoever has written it. -/
inductive Baseline.Attainable : Baseline → Prop
  | empty : Attainable .empty
  | ofSnapshot {b : Baseline} {t : FileTree} {root : String} {shownParameters now : Nat}
    {s : Snapshot} {report : BuildReport} (hb : Attainable b)
    (h : Catalog.build t root b shownParameters now = .ok (s, report)) : Attainable (.ofSnapshot s)
  | loaded {b : Baseline} {t : FileTree} {directory root : String}
    (h : Artifact.load? t directory root = some b) : Attainable b

theorem Baseline.Attainable.wellFormed {b : Baseline} (h : b.Attainable) :
    ∀ r ∈ b.records, r.WellFormed := by
  induction h with
  | empty => exact List.forall_mem_nil _
  | ofSnapshot hb h ih => exact Catalog.wellFormed_of_build ih h
  | loaded h => exact Artifact.wellFormed_of_load h

end ActionCatalog
