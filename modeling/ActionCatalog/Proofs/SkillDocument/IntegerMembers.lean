import ActionCatalog.Proofs.Binary64.Range
import ActionCatalog.Proofs.Binary64.Truncation
import ActionCatalog.Proofs.SkillDocument.Conservation

namespace ActionCatalog

open Json (Value)

def Json.Number.value : Json.Number → ℚ
  | .integer i _ => i
  | .double x => x.value

/-- A number without its fraction, clamped to the signed words of 64 bits. -/
def wordOf (v : ℚ) : ℤ := max (-2 ^ 63) (min (towardZero v) (2 ^ 63 - 1))

theorem wordOf_mono {v w : ℚ} (h : v ≤ w) : wordOf v ≤ wordOf w := by
  have htowardZero := towardZero_mono h
  unfold wordOf
  omega

namespace SkillDocument

variable {name : String} {trackIndex actionIndex : Nat} {document : Value} {tracks : List Value}
  {track action action' : Members} {r : ActionRecord}

theorem integerOf_eq (n : Json.Number) : integerOf n = wordOf n.value := by
  cases n with
  | double x =>
    rw [integerOf, Json.Number.value, Binary64.truncate_eq]
    rfl
  | integer i fits =>
    have hvalue : wordOf (Json.Number.integer i fits).value =
        max (-2 ^ 63) (min i (2 ^ 63 - 1)) := by
      rw [wordOf, Json.Number.value, towardZero_intCast]
    rw [hvalue]
    simp only [integerOf, clamp]
    split
    · omega
    · rename_i hlarge
      -- the integer does not fit, and neither does the number that it is rounded to
      have hrounded := (Json.Number.integer i fits).toExtended_eq
      have htruncate := Binary64.le_truncate_ofInt ⟨by omega, fits.2⟩ hrounded
      omega

/-- Whether an integer is the time that a member tells, zero if it is no number. -/
structure Tells (name : String) (action : Members) (i : Int) : Prop where
  number : ∀ n, action.lookup name = some (.number n) → i = wordOf n.value
  other : (∀ n, action.lookup name ≠ some (.number n)) → i = 0

theorem tells_integerMember (name : String) (action : Members) :
    Tells name action (integerMember name action) := by
  constructor
  · intro n hn
    rw [integerMember, hn]
    exact integerOf_eq n
  · intro hother
    unfold integerMember
    split
    · rename_i n hn
      exact absurd hn (hother n)
    · rfl

theorem Tells.mono {i j : Int} {n m : Json.Number} (h : Tells name action i)
    (h' : Tells name action' j) (hn : action.lookup name = some (.number n))
    (hm : action'.lookup name = some (.number m)) (hle : n.value ≤ m.value) : i ≤ j := by
  rw [h.number n hn, h'.number m hm]
  exact wordOf_mono hle

def IsRecordOf (action : Members) (r : ActionRecord) : Prop :=
  ∃ skillFile defaultName shownParameters document f tracks track,
    flatten skillFile defaultName shownParameters document = .ok f ∧ r ∈ f.records ∧
      HasTracks document tracks ∧ ActionAt tracks r.trackIndex r.actionIndex track action

theorem exists_isRecordOf (htracks : HasTracks document tracks)
    (hat : ActionAt tracks trackIndex actionIndex track action)
    (hname : actionType? action = some name) : ∃ r, IsRecordOf action r := by
  obtain ⟨skillName, hflatten⟩ : ∃ skillName, flatten "" "" 0 document =
      let entries := (tracks.mapIdx (trackRecords "" skillName 0)).flatten
      .ok ⟨entries.filterMap id, entries.countP Option.isNone⟩ := flatten_of_hasTracks htracks
  obtain ⟨r, hr, rfl, rfl⟩ := exists_record_of_flatten hflatten htracks hat hname
  exact ⟨r, "", "", 0, document, _, tracks, track, hflatten, hr, htracks, hat⟩

theorem IsRecordOf.tells (h : IsRecordOf action r) :
    Tells "frame" action r.frame ∧ Tells "duration" action r.duration := by
  obtain ⟨skillFile, defaultName, shownParameters, document, f, tracks, track, hflatten, hr,
    htracks, hat⟩ := h
  have hread := readFrom_of_flatten hflatten htracks hr hat
  rw [hread.frame, hread.duration]
  exact ⟨tells_integerMember "frame" action, tells_integerMember "duration" action⟩

/-- The times of a record are the exact numbers of its action, truncated and clamped, so greater
numbers never give smaller times, however they are kept. -/
theorem times_truncated (h : IsRecordOf action r) :
    Tells "frame" action r.frame ∧ Tells "duration" action r.duration ∧
      ∀ action' s, IsRecordOf action' s → ∀ n m : Json.Number, n.value ≤ m.value →
        (action.lookup "frame" = some (.number n) → action'.lookup "frame" = some (.number m) →
          r.frame ≤ s.frame) ∧
        (action.lookup "duration" = some (.number n) →
          action'.lookup "duration" = some (.number m) → r.duration ≤ s.duration) := by
  obtain ⟨hframe, hduration⟩ := h.tells
  refine ⟨hframe, hduration, fun action' s h' n m hle ↦ ?_⟩
  obtain ⟨hframe', hduration'⟩ := h'.tells
  exact ⟨fun hn hm ↦ hframe.mono hframe' hn hm hle,
    fun hn hm ↦ hduration.mono hduration' hn hm hle⟩

theorem times_truncated_extreme :
    let small : Json.Number := .double ⟨true, 5 * 2 ^ 50, 1023, by decide⟩
    let large : Json.Number := .integer (2 ^ 64 - 1) (by decide)
    let action (n : Json.Number) : Members := [("type", .string "A"), ("frame", .number n)]
    ∃ r s, IsRecordOf (action small) r ∧ IsRecordOf (action large) s ∧
      r.frame = -2 ∧ s.frame = 2 ^ 63 - 1 ∧ r.duration = 0 ∧ r.frame ≤ s.frame := by
  intro small large action
  have hrecord (n : Json.Number) : ∃ r, IsRecordOf (action n) r := by
    let track : Members := [("actions", .array [.object (action n)])]
    have htracks : HasTracks (.object [("tracks", .array [.object track])]) [.object track] :=
      ⟨_, rfl, rfl⟩
    have hat : ActionAt [.object track] 0 0 track (action n) := ⟨rfl, _, rfl, rfl⟩
    have hname : actionType? (action n) = some "A" := rfl
    exact exists_isRecordOf htracks hat hname
  obtain ⟨r, hr⟩ := hrecord small
  obtain ⟨s, hs⟩ := hrecord large
  obtain ⟨hframe, hduration, hmono⟩ := times_truncated hr
  obtain ⟨hframe', -⟩ := times_truncated hs
  refine ⟨r, s, hr, hs, ?_, ?_, ?_, ?_⟩
  · rw [hframe.number small rfl]
    decide +kernel
  · rw [hframe'.number large rfl]
    decide +kernel
  · exact hduration.other fun n ↦ nofun
  · exact (hmono (action large) s hs small large (by decide +kernel)).1 rfl rfl

end SkillDocument

end ActionCatalog
