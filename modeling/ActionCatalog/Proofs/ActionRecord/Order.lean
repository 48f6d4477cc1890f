import ActionCatalog.ActionDetail
import ActionCatalog.Proofs.Decimal.Positional
import ActionCatalog.Proofs.Json.ByteOrder
import ActionCatalog.Proofs.Text.Spans

namespace ActionCatalog

open Json (Source)
open Text (takeWhile_span dropWhile_span stops_cons)

theorem toList_locatorOf (trackIndex actionIndex : Nat) :
    (locatorOf trackIndex actionIndex).toList = ['t', 'r', 'a', 'c', 'k', 's', '['] ++
      (Nat.toDigits 10 trackIndex ++ ']' :: (['.', 'a', 'c', 't', 'i', 'o', 'n', 's', '['] ++
        (Nat.toDigits 10 actionIndex ++ [']']))) := by
  simp [locatorOf]
  rfl

theorem toDigits_injective {m n : Nat} (h : Nat.toDigits 10 m = Nat.toDigits 10 n) : m = n := by
  rw [← Decimal.ofDigits_toDigits m, h, Decimal.ofDigits_toDigits]

theorem digits_append_inj {m n : Nat} {cs ds : List Char}
    (h : Nat.toDigits 10 m ++ ']' :: cs = Nat.toDigits 10 n ++ ']' :: ds) : m = n ∧ cs = ds := by
  have hstops (rest : List Char) : Text.Stops Char.isDigit (']' :: rest) := stops_cons.2 rfl
  have hdigits (k : Nat) : ∀ c ∈ Nat.toDigits 10 k, c.isDigit = true :=
    fun c hc ↦ Decimal.isDigit_toDigits hc
  have htake := congrArg (List.takeWhile Char.isDigit) h
  have hdrop := congrArg (List.dropWhile Char.isDigit) h
  rw [takeWhile_span (hdigits m) (hstops _), takeWhile_span (hdigits n) (hstops _)] at htake
  rw [dropWhile_span (hdigits m) (hstops _), dropWhile_span (hdigits n) (hstops _)] at hdrop
  exact ⟨toDigits_injective htake, (List.cons.inj hdrop).2⟩

theorem locatorOf_inj {t a t' a' : Nat} : locatorOf t a = locatorOf t' a' ↔ t = t' ∧ a = a' := by
  constructor
  · intro h
    rw [← String.toList_inj, toList_locatorOf, toList_locatorOf] at h
    obtain ⟨ht, hrest⟩ := digits_append_inj (List.append_cancel_left h)
    exact ⟨ht, (digits_append_inj (List.append_cancel_left hrest)).1⟩
  · rintro ⟨rfl, rfl⟩
    rfl

namespace ActionRecord

/-- Whether a record comes before another one: by the bytes of their files, then by their places in
the file. -/
def Before (r s : ActionRecord) : Prop :=
  Source.ofString r.skillFile < Source.ofString s.skillFile ∨
    r.skillFile = s.skillFile ∧
      (r.trackIndex < s.trackIndex ∨ r.trackIndex = s.trackIndex ∧ r.actionIndex < s.actionIndex)

/-- Whether a record has the locator of its place, and a type without blanks around it. -/
structure Placed (r : ActionRecord) : Prop where
  locator : r.locator = locatorOf r.trackIndex r.actionIndex
  typed : r.actionType ≠ ""
  trimmed : Text.trim r.actionType = r.actionType

def address (r : ActionRecord) : String × String := (r.skillFile, r.locator)

variable {r s : ActionRecord} {records : List ActionRecord}

theorem Before.address_ne (h : r.Before s) (hr : r.Placed) (hs : s.Placed) :
    r.address ≠ s.address := by
  intro heq
  obtain ⟨hfile, hlocator⟩ := Prod.mk.inj heq
  rw [hr.locator, hs.locator, locatorOf_inj] at hlocator
  rcases h with h | ⟨-, h⟩
  · rw [hfile] at h
    exact List.lt_irrefl _ h
  · omega

theorem nodup_address (hordered : records.Pairwise Before) (hplaced : ∀ r ∈ records, r.Placed) :
    (records.map address).Nodup := by
  refine List.pairwise_map.2 (hordered.imp_of_mem fun hr hs h ↦ ?_)
  exact h.address_ne (hplaced _ hr) (hplaced _ hs)

end ActionRecord

theorem positionOf_eq_some {records : List ActionRecord} {file locator : String} {i : Nat}
    (h : (records.map ActionRecord.address).Nodup) :
    positionOf? records file locator = some i ↔
      (records[i]?).map ActionRecord.address = some (file, locator) := by
  have hmem (r : ActionRecord) (k : Nat) :
      (r, k) ∈ (records.zipIdx.filter fun p ↦ p.1.skillFile = file ∧ p.1.locator = locator) ↔
        records[k]? = some r ∧ r.address = (file, locator) := by
    rw [List.mem_filter, List.mem_zipIdx_iff_getElem?, ActionRecord.address, Prod.mk.injEq]
    simp only [decide_eq_true_eq]
  unfold positionOf?
  constructor
  · intro hi
    obtain ⟨⟨r, k⟩, hlast, rfl⟩ := Option.map_eq_some_iff.1 hi
    obtain ⟨hget, haddress⟩ := (hmem r k).1 (List.mem_of_getLast? hlast)
    rw [hget, Option.map_some, haddress]
  · intro hi
    obtain ⟨r, hget, haddress⟩ := Option.map_eq_some_iff.1 hi
    have hne := List.ne_nil_of_mem ((hmem r i).2 ⟨hget, haddress⟩)
    obtain ⟨⟨r', k⟩, hlast⟩ := Option.isSome_iff_exists.1 (List.getLast?_isSome.2 hne)
    obtain ⟨hget', haddress'⟩ := (hmem r' k).1 (List.mem_of_getLast? hlast)
    have hk : (records.map ActionRecord.address)[k]? = some (file, locator) := by
      rw [List.getElem?_map, hget', Option.map_some, haddress']
    have hsame : k = i := by
      refine (List.getElem?_inj (List.getElem?_eq_some_iff.1 hk).1 h).1 ?_
      rw [hk, List.getElem?_map, hi]
    rw [hlast, Option.map_some, hsame]

end ActionCatalog
