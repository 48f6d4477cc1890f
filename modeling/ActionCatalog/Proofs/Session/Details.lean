import ActionCatalog.Proofs.ActionDetail.Neighbors
import ActionCatalog.Proofs.Query.CanonicalText
import ActionCatalog.Proofs.Session.Validity
import Mathlib.Data.List.Nodup

namespace ActionCatalog

open ActionDetail (earlier later ofRecord)

def Query.atAddress (file locator : String) : Query :=
  ⟨none, [⟨"skill_file", .equal, .text file⟩, ⟨"json_path", .equal, .text locator⟩]⟩

variable {file locator : String} {r : ActionRecord} {before after : List ActionRecord}

theorem Query.wellFormed_atAddress (file locator : String) :
    (Query.atAddress file locator).WellFormed := by
  have hfile : IsName "skill_file".toList := by decide
  have hlocator : IsName "json_path".toList := by decide
  exact ⟨fun t ht ↦ (Option.not_mem_none t ht).elim,
    List.forall_mem_cons.2 ⟨hfile, List.forall_mem_singleton.2 hlocator⟩⟩

theorem Query.selects_atAddress (file locator : String) (r : ActionRecord) :
    (Query.atAddress file locator).selects r = true ↔ r.address = (file, locator) := by
  simp [Query.atAddress, Query.selects, Predicate.holds, ActionRecord.field?,
    ActionRecord.attribute?, FieldValue.satisfies, FieldValue.equals?, FieldValue.text?,
    ActionRecord.address]

theorem Query.filter_atAddress (h : ((before ++ r :: after).map ActionRecord.address).Nodup)
    (haddress : r.address = (file, locator)) :
    (before ++ r :: after).filter (Query.atAddress file locator).selects = [r] := by
  have hother : ∀ s ∈ before ++ after, ¬(Query.atAddress file locator).selects s = true := by
    intro s hs hselects
    rw [List.map_append, List.map_cons, List.nodup_middle, List.nodup_cons,
      ← List.map_append] at h
    refine h.1 (List.mem_map.2 ⟨s, hs, ?_⟩)
    rw [haddress, (Query.selects_atAddress file locator s).1 hselects]
  have hbefore := fun s hs ↦ hother s (List.mem_append_left after hs)
  have hafter := fun s hs ↦ hother s (List.mem_append_right before hs)
  rw [List.filter_append, List.filter_cons_of_pos ((Query.selects_atAddress file locator r).2
    haddress), List.filter_eq_nil_iff.2 hbefore, List.filter_eq_nil_iff.2 hafter, List.nil_append]

theorem exists_split {records : List ActionRecord} {i : Nat} (h : records[i]? = some r) :
    ∃ before after, records = before ++ r :: after ∧ before.length = i := by
  obtain ⟨hlt, rfl⟩ := List.getElem?_eq_some_iff.1 h
  refine ⟨records.take i, records.drop (i + 1), ?_, List.length_take_of_le hlt.le⟩
  rw [← List.drop_eq_getElem_cons hlt, List.take_append_drop]

/-- Either neither the query nor the detail finds a record, or both find the same one. -/
theorem Snapshot.Valid.detail_cases {s : Snapshot} (h : s.Valid) (file locator : String) :
    (s.records.filter (Query.atAddress file locator).selects = [] ∧
      ActionDetail.find? s.records file locator = none) ∨
    ∃ r, s.records.filter (Query.atAddress file locator).selects = [r] ∧
      ActionDetail.find? s.records file locator = some (ofRecord r
        ((earlier s.records r).rtake 2 ++ (later s.records r).take 2)) ∧
      (earlier s.records r ++ r :: later s.records r).Pairwise (·.actionIndex < ·.actionIndex) := by
  cases hposition : positionOf? s.records file locator with
  | none =>
    refine .inl ⟨List.filter_eq_nil_iff.2 ?_, ActionDetail.find_eq_none hposition⟩
    intro r hr hselects
    obtain ⟨i, hi⟩ := List.mem_iff_getElem?.1 hr
    have hfound : positionOf? s.records file locator = some i := by
      rw [h.found, hi, Option.map_some, (Query.selects_atAddress file locator r).1 hselects]
    rw [hposition] at hfound
    cases hfound
  | some i =>
    obtain ⟨r, hi, haddress⟩ := Option.map_eq_some_iff.1 ((h.found file locator i).1 hposition)
    obtain ⟨before, after, hsplit, rfl⟩ := exists_split hi
    have hordered := h.ordered
    have hdistinct := h.distinct
    rw [hsplit] at hposition hordered hdistinct ⊢
    exact .inr ⟨r, Query.filter_atAddress hdistinct haddress,
      ActionDetail.find_split hordered hposition, ActionDetail.pairwise_track hordered⟩

namespace Session

variable {t : FileTree} {dataHome corpus : String} {settings : Settings}
  {events : List (Nat × Event)}

/-- In every state that a session reaches, the detail of an address is that of the one record which
the query for the address selects, or both find nothing. The neighbors are the last two records
before it on its track and the first two after it. -/
theorem detail_query (h : (start t dataHome corpus settings).KeepsArtifact [] events)
    (file locator : String) (limit : Nat) :
    let s := (start t dataHome corpus settings).run events
    let records := s.active.records
    let q := Query.atAddress file locator
    let selection := q.evaluate records limit
    Query.read q.text = .ok q ∧
      ((s.detail? file locator).isSome ↔ selection.total = 1) ∧
      (s.detail? file locator = none ↔ selection.total = 0) ∧
      ∀ d, s.detail? file locator = some d → ∃ r, selection.shown = [r] ∧
        d = ofRecord r ((earlier records r).rtake 2 ++ (later records r).take 2) ∧
        (earlier records r ++ r :: later records r).Pairwise
          (·.actionIndex < ·.actionIndex) := by
  intro s records q selection
  refine ⟨Query.read_text (Query.wellFormed_atAddress file locator), ?_⟩
  have hvalid : s.active.Valid := (sound_start t dataHome corpus settings).run h
  have htotal : selection.total = (records.filter q.selects).length := rfl
  have hdetail : s.detail? file locator = ActionDetail.find? records file locator := rfl
  rcases hvalid.detail_cases file locator with ⟨hnone, hfind⟩ | ⟨r, hone, hfind, htrack⟩
  · rw [htotal, hdetail, hnone, hfind]
    refine ⟨by simp, by simp, fun d hd ↦ ?_⟩
    cases hd
  · have hshown : selection.shown = [r] := by
      change (Selection.upTo limit (records.filter q.selects)).shown = [r]
      rw [hone]
      cases limit <;> simp [Selection.upTo]
    rw [htotal, hdetail, hone, hfind]
    refine ⟨by simp, by simp, fun d hd ↦ ?_⟩
    exact ⟨r, hshown, (Option.some.inj hd).symm, htrack⟩

theorem detail_query_tracks :
    let t : FileTree := ⟨.directory [("c", .directory [("a.json", .file (Json.Source.ofString
        ("\x7b\"tracks\":[\x7b\"actions\":[\x7b\"type\":\"A\"\x7d,\x7b\"type\":\"B\"\x7d," ++
          "\x7b\x7d,\x7b\"type\":\"C\"\x7d,\x7b\"type\":\"D\"\x7d]\x7d," ++
          "\x7b\"actions\":[\x7b\"type\":\"E\"\x7d]\x7d]\x7d")) 1)])], []⟩
    let settings := { Settings.default with buildDirectory := some "/x" }
    let s := (start t "/d" "/c" settings).run [(0, .build false)]
    ∃ d r, s.detail? "a.json" "tracks[0].actions[3]" = some d ∧ d.actionType = "C" ∧
      d.neighbors.map Neighbor.locator =
        ["tracks[0].actions[0]", "tracks[0].actions[1]", "tracks[0].actions[4]"] ∧
      d = ofRecord r ((earlier s.active.records r).rtake 2 ++
        (later s.active.records r).take 2) := by
  intro t settings s
  let first := start t "/d" "/c" settings
  have hkeeps : first.KeepsArtifact [] [(0, .build false)] :=
    OwnArtifact.keepsArtifact (by decide +kernel) (by decide +kernel)
  have hshown : (s.detail? "a.json" "tracks[0].actions[3]").map (fun d ↦
      (d.actionType, d.neighbors.map Neighbor.locator)) =
        some ("C", ["tracks[0].actions[0]", "tracks[0].actions[1]", "tracks[0].actions[4]"]) := by
    decide +kernel
  obtain ⟨d, hd, hd'⟩ := Option.map_eq_some_iff.1 hshown
  obtain ⟨htype, hneighbors⟩ := Prod.mk.inj hd'
  obtain ⟨-, -, -, hfound⟩ := detail_query hkeeps "a.json" "tracks[0].actions[3]" 0
  obtain ⟨r, -, heq, -⟩ := hfound d hd
  exact ⟨d, r, hd, htype, hneighbors, heq⟩

end Session

end ActionCatalog
