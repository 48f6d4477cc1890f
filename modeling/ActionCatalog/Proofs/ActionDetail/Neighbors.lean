import ActionCatalog.Proofs.ActionRecord.Order
import Mathlib.Data.List.DropRight

namespace ActionCatalog.ActionDetail

open ActionRecord (Before Placed)

section Windows

variable {α : Type} {p : α → Bool}

theorem filter_take {l : List α} (h : l.Pairwise fun a b ↦ p b = true → p a = true) (n : Nat) :
    (l.take n).filter p = (l.filter p).take n := by
  induction l generalizing n with
  | nil => simp
  | cons a l ih =>
    obtain ⟨hfirst, hrest⟩ := List.pairwise_cons.1 h
    cases n with
    | zero => simp
    | succ n =>
      by_cases ha : p a = true
      · simp [ha, ih hrest n]
      · have hnone : ∀ b ∈ a :: l, ¬p b = true := by
          intro b hb
          rcases List.mem_cons.1 hb with rfl | hb
          · exact ha
          · exact fun hp ↦ ha (hfirst b hb hp)
        rw [List.filter_eq_nil_iff.2 hnone, List.take_nil, List.filter_eq_nil_iff]
        intro b hb
        exact hnone b (List.mem_of_mem_take hb)

theorem filter_rtake {l : List α} (h : l.Pairwise fun a b ↦ p a = true → p b = true) (n : Nat) :
    (l.rtake n).filter p = (l.filter p).rtake n := by
  rw [List.rtake_eq_reverse_take_reverse, List.rtake_eq_reverse_take_reverse, List.filter_reverse,
    filter_take (List.pairwise_reverse.2 h), List.filter_reverse]

end Windows

variable {records before after : List ActionRecord} {r s u : ActionRecord}

def earlier (records : List ActionRecord) (r : ActionRecord) : List ActionRecord :=
  records.filter fun s ↦ sameTrack r s && s.actionIndex < r.actionIndex

def later (records : List ActionRecord) (r : ActionRecord) : List ActionRecord :=
  records.filter fun s ↦ sameTrack r s && r.actionIndex < s.actionIndex

theorem sameTrack_iff :
    sameTrack r s = true ↔ s.skillFile = r.skillFile ∧ s.trackIndex = r.trackIndex := by
  simp [sameTrack]

theorem actionIndex_lt (h : r.Before s) (hfile : r.skillFile = s.skillFile)
    (htrack : r.trackIndex = s.trackIndex) : r.actionIndex < s.actionIndex := by
  rcases h with h | ⟨-, h⟩
  · rw [hfile] at h
    exact absurd h (List.lt_irrefl _)
  · omega

/-- What stands between two records of one track is on that track. -/
theorem sameTrack_between (hrs : r.Before s) (hsu : s.Before u) (h : sameTrack u r = true) :
    sameTrack u s = true ∧ sameTrack r s = true := by
  obtain ⟨hfile, htrack⟩ := sameTrack_iff.1 h
  rw [sameTrack_iff, sameTrack_iff]
  -- a later file on either side would not be left again
  rcases hrs with hrs | ⟨hrs, hrs'⟩ <;> rcases hsu with hsu | ⟨hsu, hsu'⟩
  · rw [hfile] at hrs
    exact absurd (List.lt_trans hrs hsu) (List.lt_irrefl _)
  · rw [hfile, hsu] at hrs
    exact absurd hrs (List.lt_irrefl _)
  · rw [← hrs, hfile] at hsu
    exact absurd hsu (List.lt_irrefl _)
  · refine ⟨⟨hsu, ?_⟩, hrs.symm, ?_⟩ <;> omega

theorem sides (h : (before ++ r :: after).Pairwise Before) :
    (∀ s ∈ before, sameTrack r s = true → s.actionIndex < r.actionIndex) ∧
      ∀ s ∈ after, sameTrack r s = true → r.actionIndex < s.actionIndex := by
  obtain ⟨-, hafter, hbefore⟩ := List.pairwise_append.1 h
  constructor
  · intro s hs ht
    obtain ⟨hfile, htrack⟩ := sameTrack_iff.1 ht
    exact actionIndex_lt (hbefore s hs r List.mem_cons_self) hfile htrack
  · intro s hs ht
    obtain ⟨hfile, htrack⟩ := sameTrack_iff.1 ht
    exact actionIndex_lt ((List.pairwise_cons.1 hafter).1 s hs) hfile.symm htrack.symm

theorem earlier_split (h : (before ++ r :: after).Pairwise Before) :
    earlier (before ++ r :: after) r = before.filter (sameTrack r) := by
  obtain ⟨hbefore, hafter⟩ := sides h
  have hrest : ∀ s ∈ r :: after, ¬(sameTrack r s && s.actionIndex < r.actionIndex) = true := by
    intro s hs hkept
    simp only [Bool.and_eq_true, decide_eq_true_eq] at hkept
    rcases List.mem_cons.1 hs with rfl | hs
    · exact Nat.lt_irrefl _ hkept.2
    · exact Nat.lt_asymm hkept.2 (hafter s hs hkept.1)
  rw [earlier, List.filter_append, List.filter_eq_nil_iff.2 hrest, List.append_nil]
  refine List.filter_congr fun s hs ↦ ?_
  simpa using hbefore s hs

theorem later_split (h : (before ++ r :: after).Pairwise Before) :
    later (before ++ r :: after) r = after.filter (sameTrack r) := by
  obtain ⟨hbefore, hafter⟩ := sides h
  have hfirst : ∀ s ∈ before ++ [r], ¬(sameTrack r s && r.actionIndex < s.actionIndex) = true := by
    intro s hs hkept
    simp only [Bool.and_eq_true, decide_eq_true_eq] at hkept
    rcases List.mem_append.1 hs with hs | hs
    · exact Nat.lt_asymm hkept.2 (hbefore s hs hkept.1)
    · rw [List.mem_singleton.1 hs] at hkept
      exact Nat.lt_irrefl _ hkept.2
  rw [later, List.append_cons, List.filter_append, List.filter_eq_nil_iff.2 hfirst, List.nil_append]
  refine List.filter_congr fun s hs ↦ ?_
  simpa using hafter s hs

/-- The neighbors are the nearest records of the track on either side. -/
theorem neighborsOf_split (h : (before ++ r :: after).Pairwise Before) :
    neighborsOf (before ++ r :: after) before.length r =
      (((earlier (before ++ r :: after) r).rtake window) ++
        (later (before ++ r :: after) r).take window).map neighborOf := by
  obtain ⟨hpairs, hafter, hbefore⟩ := List.pairwise_append.1 h
  obtain ⟨hfirst, hrest⟩ := List.pairwise_cons.1 hafter
  -- on either side, what is on the track stands next to the record
  have hend : before.Pairwise fun s u ↦ sameTrack r s = true → sameTrack r u = true := by
    refine hpairs.imp_of_mem fun hs hu hsu ht ↦ ?_
    exact (sameTrack_between hsu (hbefore _ hu r List.mem_cons_self) ht).1
  have hstart : after.Pairwise fun s u ↦ sameTrack r u = true → sameTrack r s = true := by
    refine hrest.imp_of_mem fun hs hu hsu ht ↦ ?_
    have hback : sameTrack _ r = true :=
      sameTrack_iff.2 ((sameTrack_iff.1 ht).imp Eq.symm Eq.symm)
    exact (sameTrack_between (hfirst _ hs) hsu hback).2
  have hwindow : neighborsOf (before ++ r :: after) before.length r =
      ((before.rtake window ++ after.take window).filter (sameTrack r)).map neighborOf := by
    simp [neighborsOf, List.rtake]
  rw [hwindow, earlier_split h, later_split h, List.filter_append, filter_rtake hend,
    filter_take hstart]

theorem pairwise_track (h : (before ++ r :: after).Pairwise Before) :
    (earlier (before ++ r :: after) r ++ r :: later (before ++ r :: after) r).Pairwise
      (·.actionIndex < ·.actionIndex) := by
  have htrack : earlier (before ++ r :: after) r ++ r :: later (before ++ r :: after) r =
      (before ++ r :: after).filter (sameTrack r) := by
    have hself : sameTrack r r = true := sameTrack_iff.2 ⟨rfl, rfl⟩
    rw [earlier_split h, later_split h, List.filter_append, List.filter_cons_of_pos hself]
  rw [htrack]
  refine (h.filter _).imp_of_mem fun hs hu hsu ↦ ?_
  obtain ⟨hsfile, hstrack⟩ := sameTrack_iff.1 (List.mem_filter.1 hs).2
  obtain ⟨hufile, hutrack⟩ := sameTrack_iff.1 (List.mem_filter.1 hu).2
  exact actionIndex_lt hsu (hsfile.trans hufile.symm) (hstrack.trans hutrack.symm)

def ofRecord (r : ActionRecord) (neighbors : List ActionRecord) : ActionDetail where
  skillFile := r.skillFile
  locator := r.locator
  parameters := r.parameters
  size := Text.utf8Size r.parameters.compact
  skillName := r.skillName
  trackName := r.trackName
  trackIndex := r.trackIndex
  actionIndex := r.actionIndex
  actionType := r.actionType
  neighbors := neighbors.map neighborOf

theorem find_eq_none {file locator : String} (h : positionOf? records file locator = none) :
    find? records file locator = none := by
  simp [find?, h]

theorem find_split {file locator : String} (h : (before ++ r :: after).Pairwise Before)
    (hposition : positionOf? (before ++ r :: after) file locator = some before.length) :
    find? (before ++ r :: after) file locator = some (ofRecord r
      ((earlier (before ++ r :: after) r).rtake window ++
        (later (before ++ r :: after) r).take window)) := by
  simp [find?, hposition, neighborsOf_split h, ofRecord]

end ActionCatalog.ActionDetail
