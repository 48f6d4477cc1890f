import ActionCatalog.Proofs.Json.Strings
import Mathlib.Data.List.Lex
import Mathlib.Data.String.Basic

namespace ActionCatalog.Json

/-- Of two characters the smaller one has the smaller bytes, whatever follows them. -/
theorem encode_append_lt {c d : Char} (h : c < d) (rest rest' : Source) :
    String.utf8EncodeChar c ++ rest < String.utf8EncodeChar d ++ rest' := by
  have hlt : c.val.toNat < d.val.toNat := h
  have hvalid : d.val.toNat < 0x110000 := by
    rcases d.valid with hd | hd
    · exact hd.trans (by decide)
    · exact hd.2
  unfold String.utf8EncodeChar
  dsimp only
  generalize c.val.toNat = v at hlt
  generalize d.val.toNat = w at hlt hvalid
  -- the digits of a code point to base 64, of which each byte holds one
  have hdigits (n : Nat) (hn : n < 0x110000) :
      n / 64 / 64 = n / 4096 ∧ n / 4096 / 64 = n / 262144 ∧ n / 262144 / 8 = 0 := by
    rw [Nat.div_div_eq_div_mul, Nat.div_div_eq_div_mul]
    exact ⟨rfl, rfl, by omega⟩
  have hv := hdigits v (hlt.trans hvalid)
  have hw := hdigits w hvalid
  split_ifs <;>
    simp (disch := omega) only [List.cons_append, List.nil_append, List.cons_lt_cons_iff,
      UInt8.lt_iff_toNat_lt, ← UInt8.toNat_inj, UInt8.toNat_ofNat',
      Nat.mod_eq_of_lt (b := 2 ^ 8)] <;>
    omega

theorem bytesOf_lt {cs ds : List Char} (h : cs < ds) : bytesOf cs < bytesOf ds := by
  induction cs generalizing ds with
  | nil =>
    cases ds with
    | nil => exact absurd h (lt_irrefl _)
    | cons d ds =>
      obtain ⟨b, bs, hb⟩ := List.exists_cons_of_ne_nil (String.utf8EncodeChar_ne_nil (c := d))
      rw [bytesOf_cons, hb]
      exact List.nil_lt_cons b _
  | cons c cs ih =>
    cases ds with
    | nil => cases h
    | cons d ds =>
      rw [bytesOf_cons, bytesOf_cons]
      rcases List.cons_lt_cons_iff.1 h with hlt | ⟨rfl, hrest⟩
      · exact encode_append_lt hlt _ _
      · exact List.Lex.append_left _ (ih hrest) _

theorem ofString_lt_iff {s t : String} : Source.ofString s < Source.ofString t ↔ s < t := by
  have hmono {s t : String} (h : s < t) : Source.ofString s < Source.ofString t := by
    have hb := bytesOf_lt h
    rwa [← ofString_ofList, ← ofString_ofList, String.ofList_toList, String.ofList_toList] at hb
  constructor
  · intro h
    rcases lt_trichotomy s t with hlt | rfl | hgt
    · exact hlt
    · exact absurd h (List.lt_irrefl _)
    · exact absurd h (List.lt_asymm (hmono hgt))
  · exact hmono

end ActionCatalog.Json
