import ActionCatalog.Proofs.Json.ByteOrder
import ActionCatalog.Proofs.Keyed
import ActionCatalog.SkillDocument.Flatten

namespace ActionCatalog

open Json (Value)

def Json.Value.isScalar : Value → Bool
  | .string _ | .number _ | .bool _ => true
  | _ => false

namespace Summary

/-- How a text is shown: as it is, or its first 32 characters with an ellipsis after them. -/
inductive ShownAs (full : List Char) : List Char → Prop
  | whole (h : full.length ≤ 32) : ShownAs full full
  | cut {start rest : List Char} (hfull : full = start ++ rest) (hstart : start.length = 32)
    (hrest : rest ≠ []) : ShownAs full (start ++ ['…'])

structure Entry where
  key : String
  text : List Char

def Entry.spell (e : Entry) : List Char := e.key.toList ++ '=' :: e.text

def head (actionType : String) (frame duration : Int) : String :=
  s!"{actionType} @{frame}+{duration}"

def textOf (head : String) (shown : List Entry) : List Char :=
  head.toList ++
    if shown = [] then [] else ':' :: ' ' :: [',', ' '].intercalate (shown.map Entry.spell)

/-- Whether the entries are those of the first `count` scalars among some parameters. -/
structure Shows (members : List (String × Value)) (count : Nat) (shown : List Entry) : Prop where
  length : shown.length = min count (members.countP fun m ↦ m.2.isScalar)
  keys : shown.map Entry.key <+: (members.filter fun m ↦ m.2.isScalar).map Prod.fst
  ordered : shown.Pairwise fun e f ↦ Json.Source.ofString e.key < Json.Source.ofString f.key
  texts : ∀ e ∈ shown, ∃ v full, (e.key, v) ∈ members ∧ v.scalarText? = some full ∧
    ShownAs full.toList e.text

variable {actionType key : String} {frame duration : Int} {count : Nat} {v : Value}
  {members members' : List (String × Value)}

theorem shownAs_shorten (cs : List Char) : ShownAs cs (shorten cs) := by
  unfold shorten maxLength
  split
  · rename_i hshort
    exact .whole hshort
  · rename_i hlong
    refine .cut (List.take_append_drop 32 cs).symm ?_ ?_
    · rw [List.length_take]
      omega
    · rw [Ne, List.drop_eq_nil_iff]
      omega

def entryOf? (m : String × Value) : Option Entry :=
  m.2.scalarText?.map fun text ↦ ⟨m.1, shorten text.toList⟩

theorem isSome_scalarText (v : Value) : v.scalarText?.isSome = v.isScalar := by
  cases v <;> rfl

theorem isSome_entryOf (m : String × Value) : (entryOf? m).isSome = m.2.isScalar := by
  rw [entryOf?, Option.isSome_map, isSome_scalarText]

theorem key_of_entryOf {m : String × Value} {e : Entry} (h : entryOf? m = some e) :
    e.key = m.1 := by
  obtain ⟨text, -, rfl⟩ := Option.map_eq_some_iff.1 h
  rfl

theorem entries_object (members : List (String × Value)) :
    entries (.object members) = (members.filterMap entryOf?).map Entry.spell := by
  rw [List.map_filterMap]
  refine List.filterMap_congr fun m _ ↦ ?_
  rw [entryOf?, Option.map_map]
  rfl

theorem filterMap_entryOf (members : List (String × Value)) :
    members.filterMap entryOf? =
      (members.filter fun m ↦ m.2.isScalar).filterMap entryOf? := by
  rw [List.filterMap_filter]
  refine List.filterMap_congr fun m _ ↦ ?_
  split
  · rfl
  · rename_i hscalar
    rw [← isSome_entryOf, Option.not_isSome_iff_eq_none] at hscalar
    exact hscalar

theorem map_key_entryOf (members : List (String × Value)) :
    (members.filterMap entryOf?).map Entry.key =
      (members.filter fun m ↦ m.2.isScalar).map Prod.fst := by
  induction members with
  | nil => rfl
  | cons m members ih =>
    have hsome := isSome_entryOf m
    cases he : entryOf? m with
    | none =>
      rw [he] at hsome
      rw [List.filterMap_cons_none he, List.filter_cons_of_neg (by simp [← hsome]), ih]
    | some e =>
      rw [he] at hsome
      rw [List.filterMap_cons_some he, List.filter_cons_of_pos (by simp [← hsome]), List.map_cons,
        List.map_cons, ih, key_of_entryOf he]

def shown (members : List (String × Value)) (count : Nat) : List Entry :=
  (members.filterMap entryOf?).take count

theorem toList_write (actionType : String) (frame duration : Int)
    (members : List (String × Value)) (count : Nat) :
    (write actionType frame duration (.object members) count).toList =
      textOf (head actionType frame duration) (shown members count) := by
  have hentries : (entries (.object members)).take count =
      (shown members count).map Entry.spell := by
    rw [entries_object, shown, List.map_take]
  rw [write, hentries, textOf, String.toList_ofList]
  by_cases hnone : shown members count = []
  · simp [hnone, head]
  · simp [hnone, head]

theorem shows_shown (hsorted : Keyed.Sorted members) (count : Nat) :
    Shows members count (shown members count) := by
  have hkeys : (shown members count).map Entry.key <+:
      (members.filter fun m ↦ m.2.isScalar).map Prod.fst := by
    rw [shown, List.map_take, map_key_entryOf]
    exact List.take_prefix _ _
  constructor
  · have hlength := congrArg List.length (map_key_entryOf members)
    rw [List.length_map, List.length_map, ← List.countP_eq_length_filter] at hlength
    rw [shown, List.length_take, hlength]
  · exact hkeys
  · have hfilter : ((members.filter fun m ↦ m.2.isScalar).map Prod.fst).Pairwise (· < ·) :=
      List.pairwise_map.2 (hsorted.filter _)
    have hordered := List.pairwise_map.1 (hfilter.sublist hkeys.sublist)
    exact hordered.imp Json.ofString_lt_iff.2
  · intro e he
    obtain ⟨⟨key, v⟩, hmem, hentry⟩ := List.mem_filterMap.1 (List.mem_of_mem_take he)
    obtain ⟨full, hfull, rfl⟩ := Option.map_eq_some_iff.1 hentry
    exact ⟨v, full, hmem, hfull, shownAs_shorten full.toList⟩

theorem shown_mono (members : List (String × Value)) {k k' : Nat} (h : k ≤ k') :
    shown members k <+: shown members k' := List.take_prefix_take_left h

theorem intercalate_mono {separator : List Char} {ps qs : List (List Char)} (h : ps <+: qs)
    (hne : ps ≠ []) : separator.intercalate ps <+: separator.intercalate qs := by
  obtain ⟨rest, rfl⟩ := h
  induction ps with
  | nil => exact absurd rfl hne
  | cons p ps ih =>
    by_cases hps : ps = []
    · subst hps
      by_cases hrest : rest = []
      · simp [hrest]
      · rw [List.singleton_append, List.intercalate_cons_of_ne_nil hrest,
          List.intercalate_singleton, List.append_assoc]
        exact List.prefix_append _ _
    · rw [List.cons_append, List.intercalate_cons_of_ne_nil hps,
        List.intercalate_cons_of_ne_nil (by simp [hps]), List.prefix_append_right_inj]
      exact ih hps

/-- The colon comes with the first entry, so the text with none goes on to any other. -/
theorem textOf_mono {head : String} {shown shown' : List Entry} (h : shown <+: shown') :
    textOf head shown <+: textOf head shown' := by
  unfold textOf
  rw [List.prefix_append_right_inj]
  by_cases hnone : shown = []
  · rw [if_pos hnone]
    exact List.nil_prefix
  · have hnone' : shown' ≠ [] := by
      rintro rfl
      exact hnone (List.prefix_nil.1 h)
    rw [if_neg hnone, if_neg hnone', List.prefix_cons_inj, List.prefix_cons_inj]
    exact intercalate_mono (h.map Entry.spell) (by simpa using hnone)

theorem shown_congr (h : Keyed.Sorted members) (h' : Keyed.Sorted members')
    (hsame : ∀ key v, v.isScalar = true → ((key, v) ∈ members ↔ (key, v) ∈ members'))
    (count : Nat) : shown members count = shown members' count := by
  have hfilter : (members.filter fun m ↦ m.2.isScalar) = members'.filter fun m ↦ m.2.isScalar := by
    refine Keyed.eq_of_mem_iff (h.filter _) (h'.filter _) fun m ↦ ?_
    rw [List.mem_filter, List.mem_filter]
    constructor
    · rintro ⟨hmem, hscalar⟩
      exact ⟨(hsame m.1 m.2 hscalar).1 hmem, hscalar⟩
    · rintro ⟨hmem, hscalar⟩
      exact ⟨(hsame m.1 m.2 hscalar).2 hmem, hscalar⟩
  rw [shown, shown, filterMap_entryOf, hfilter, ← filterMap_entryOf]

/-- A summary of an object of parameters goes on to every one that shows more of them. It shows as
many of the strings, numbers and truth values as it may, and nothing else matters to it. -/
theorem write_grows (actionType : String) (frame duration : Int)
    (members : List (String × Value)) (hsorted : Keyed.Sorted members) :
    (∀ k k', k ≤ k' →
      (write actionType frame duration (.object members) k).toList <+:
        (write actionType frame duration (.object members) k').toList) ∧
    (∀ k, ∃ shown, Shows members k shown ∧
      (write actionType frame duration (.object members) k).toList =
        textOf (head actionType frame duration) shown) ∧
    ∀ members', Keyed.Sorted members' →
      (∀ key v, v.isScalar = true → ((key, v) ∈ members ↔ (key, v) ∈ members')) → ∀ k,
        write actionType frame duration (.object members') k =
          write actionType frame duration (.object members) k := by
  refine ⟨fun k k' h ↦ ?_, fun k ↦ ?_, fun members' hsorted' hsame k ↦ ?_⟩
  · rw [toList_write, toList_write]
    exact textOf_mono (shown_mono members h)
  · exact ⟨shown members k, shows_shown hsorted k, toList_write _ _ _ _ _⟩
  · rw [← String.toList_inj, toList_write, toList_write, shown_congr hsorted hsorted' hsame]

theorem write_grows_accents :
    let long : Value := .string (String.ofList (List.replicate 33 'é'))
    let members := [("name", long), ("steps", .array []), ("strong", .bool true)]
    Keyed.Sorted members ∧
      (write "Spawn" 5 (-1) (.object members) 1).toList <+:
        (write "Spawn" 5 (-1) (.object members) 2).toList ∧
      (∃ shown, Shows members 2 shown ∧ (write "Spawn" 5 (-1) (.object members) 2).toList =
        textOf (head "Spawn" 5 (-1)) shown) ∧
      write "Spawn" 5 (-1) (.object [("name", long), ("strong", .bool true)]) 2 =
        write "Spawn" 5 (-1) (.object members) 2 := by
  intro long members
  have hsorted : Keyed.Sorted members := by
    simp only [Keyed.Sorted, members, List.pairwise_cons]
    decide +kernel
  have hsorted' : Keyed.Sorted [("name", long), ("strong", .bool true)] := by
    simp only [Keyed.Sorted, List.pairwise_cons]
    decide +kernel
  obtain ⟨hgrows, hshows, hscalars⟩ := write_grows "Spawn" 5 (-1) members hsorted
  refine ⟨hsorted, hgrows 1 2 (by decide), hshows 2, hscalars _ hsorted' ?_ 2⟩
  intro key v hv
  have hlist : v ≠ .array [] := by
    rintro rfl
    cases hv
  simp [members, hlist]

end Summary

end ActionCatalog
