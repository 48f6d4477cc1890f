import ActionCatalog.Json.StringScanner
import ActionCatalog.Json.Writer
import Mathlib.Data.List.Basic

namespace ActionCatalog.Json

def bytesOf (cs : List Char) : Source := cs.flatMap String.utf8EncodeChar

variable {cs ds : List Char} {c : Char} {rest : Source}

theorem bytesOf_cons (c : Char) (cs : List Char) :
    bytesOf (c :: cs) = String.utf8EncodeChar c ++ bytesOf cs := rfl

theorem bytesOf_append (cs ds : List Char) : bytesOf (cs ++ ds) = bytesOf cs ++ bytesOf ds :=
  List.flatMap_append

theorem ofString_ofList (cs : List Char) : Source.ofString (String.ofList cs) = bytesOf cs := by
  change (String.ofList cs).toByteArray.data.toList = _
  rw [String.toByteArray_ofList, List.utf8Encode, List.toList_data_toByteArray]
  rfl

theorem fromUTF8_bytesOf (cs : List Char) :
    String.fromUTF8? ⟨(bytesOf cs).toArray⟩ = some (String.ofList cs) := by
  have hbytes : (⟨(bytesOf cs).toArray⟩ : ByteArray) = (String.ofList cs).toByteArray := by
    refine ByteArray.ext (Array.toList_inj.1 ?_)
    exact (ofString_ofList cs).symm
  rw [hbytes]
  exact dif_pos (String.ofList cs).isValidUTF8

theorem toNat_byte (h : c.toNat < 0x100) : (byte c).toNat = c.toNat := by
  rw [byte, Nat.toUInt8, UInt8.toNat_ofNat', Nat.mod_eq_of_lt h]

theorem byte_injective {d : Char} (hc : c.toNat < 0x100) (hd : d.toNat < 0x100)
    (h : byte c = byte d) : c = d :=
  Char.toNat_inj.1 (by rw [← toNat_byte hc, h, toNat_byte hd])

theorem encode_ascii (h : c.toNat < 0x80) : String.utf8EncodeChar c = [byte c] := by
  have hle : c.val.toNat ≤ 0x7f := Nat.le_of_lt_succ h
  rw [String.utf8EncodeChar]
  exact if_pos hle

theorem bytesOf_ascii (h : c.toNat < 0x80) : bytesOf (c :: cs) = byte c :: bytesOf cs := by
  rw [bytesOf_cons, encode_ascii h]
  rfl

/-- All bytes of other characters lie above those of ASCII. -/
theorem le_of_mem_encode (h : 0x80 ≤ c.toNat) {b : UInt8} (hb : b ∈ String.utf8EncodeChar c) :
    0x80 ≤ b := by
  have hnot : ¬c.val.toNat ≤ 0x7f := Nat.not_le_of_lt h
  unfold String.utf8EncodeChar at hb
  dsimp only at hb
  rw [if_neg hnot] at hb
  refine UInt8.le_iff_toNat_le.2 (?_ : 0x80 ≤ b.toNat)
  split at hb
  · simp only [List.mem_cons, List.not_mem_nil, or_false] at hb
    rcases hb with rfl | rfl <;> rw [UInt8.toNat_ofNat'] <;> omega
  split at hb
  · simp only [List.mem_cons, List.not_mem_nil, or_false] at hb
    rcases hb with rfl | rfl | rfl <;> rw [UInt8.toNat_ofNat'] <;> omega
  · simp only [List.mem_cons, List.not_mem_nil, or_false] at hb
    rcases hb with rfl | rfl | rfl | rfl <;> rw [UInt8.toNat_ofNat'] <;> omega

def needsEscape (c : Char) : Bool := c == '"' || c == '\\' || c.toNat < 0x20

theorem needsEscape_eq_false :
    needsEscape c = false ↔ (c ≠ '"' ∧ c ≠ '\\') ∧ ¬c.toNat < 0x20 := by
  simp [needsEscape]

theorem escapeChar_plain (h : needsEscape c = false) : escapeChar c = [c] := by
  obtain ⟨⟨hquote, hback⟩, hcontrol⟩ := needsEscape_eq_false.1 h
  unfold escapeChar
  split
  · exact absurd rfl hquote
  · exact absurd rfl hback
  · exact absurd (by decide) hcontrol
  · exact absurd (by decide) hcontrol
  · exact absurd (by decide) hcontrol
  · exact absurd (by decide) hcontrol
  · exact absurd (by decide) hcontrol
  · exact if_neg hcontrol

theorem scanHex_controlDigits : ∀ n < 0x20, hexNumber? (byte '0' :: byte '0' ::
    [byte (Nat.digitChar (n / 16)), byte (Nat.digitChar (n % 16))]) = some n := by
  decide

theorem bytesOf_controlDigits : ∀ n < 0x20,
    bytesOf ('0' :: '0' :: [Nat.digitChar (n / 16), Nat.digitChar (n % 16)]) =
      byte '0' :: byte '0' :: [byte (Nat.digitChar (n / 16)), byte (Nat.digitChar (n % 16))] := by
  decide

theorem scanEscape_control (h : c.toNat < 0x20) (rest : Source) :
    scanEscape (byte 'u' :: (bytesOf ('0' :: '0' :: controlDigits c) ++ rest)) = .ok (c, rest) := by
  have hhex : scanHex (bytesOf ('0' :: '0' :: controlDigits c) ++ rest) = .ok (c.toNat, rest) := by
    rw [controlDigits, bytesOf_controlDigits _ h]
    simp only [List.cons_append, List.nil_append, scanHex, scanHex_controlDigits _ h]
  have hlow : isLowSurrogate c.toNat = false := by
    simp only [isLowSurrogate, Bool.and_eq_false_imp, decide_eq_true_eq]
    omega
  have hhigh : isHighSurrogate c.toNat = false := by
    simp only [isHighSurrogate, Bool.and_eq_false_imp, decide_eq_true_eq]
    omega
  rw [scanEscape, if_pos rfl, scanCodePoint, hhex]
  simp only [bind, Except.bind, hlow, hhigh, Bool.false_eq_true, if_false, Char.ofNat_toNat]

theorem scanEscape_written (h : needsEscape c = true) (rest : Source) :
    ∃ bs, bytesOf (escapeChar c) = byte '\\' :: bs ∧ scanEscape (bs ++ rest) = .ok (c, rest) := by
  unfold escapeChar
  split
  · exact ⟨[byte '"'], by decide, rfl⟩
  · exact ⟨[byte '\\'], by decide, rfl⟩
  · exact ⟨[byte 'b'], by decide, rfl⟩
  · exact ⟨[byte 'f'], by decide, rfl⟩
  · exact ⟨[byte 'n'], by decide, rfl⟩
  · exact ⟨[byte 'r'], by decide, rfl⟩
  · exact ⟨[byte 't'], by decide, rfl⟩
  · rename_i hquote hback _ _ _ _ _
    have hcontrol : c.toNat < 0x20 := by
      simpa [needsEscape, show c ≠ '"' from hquote, show c ≠ '\\' from hback] using h
    rw [if_pos hcontrol]
    refine ⟨byte 'u' :: bytesOf ('0' :: '0' :: controlDigits c), ?_,
      scanEscape_control hcontrol rest⟩
    rw [bytesOf_ascii (by decide), bytesOf_ascii (by decide)]

theorem plain_of_mem_encode (h : needsEscape c = false) {b : UInt8}
    (hb : b ∈ String.utf8EncodeChar c) : b ≠ byte '"' ∧ b ≠ byte '\\' ∧ ¬b < 0x20 := by
  obtain ⟨⟨hquote, hback⟩, hcontrol⟩ := needsEscape_eq_false.1 h
  by_cases hascii : c.toNat < 0x80
  · obtain rfl := List.mem_singleton.1 (encode_ascii hascii ▸ hb)
    have hsize : c.toNat < 0x100 := by omega
    refine ⟨fun he ↦ hquote (byte_injective hsize (by decide) he),
      fun he ↦ hback (byte_injective hsize (by decide) he), fun hlt ↦ hcontrol ?_⟩
    rw [← toNat_byte hsize]
    exact UInt8.lt_iff_toNat_lt.1 hlt
  · have hge : 0x80 ≤ b.toNat := UInt8.le_iff_toNat_le.1 (le_of_mem_encode (Nat.not_lt.1 hascii) hb)
    refine ⟨?_, ?_, fun hlt ↦ ?_⟩
    · rintro rfl
      exact absurd hge (by decide)
    · rintro rfl
      exact absurd hge (by decide)
    · have hless : b.toNat < 0x20 := UInt8.lt_iff_toNat_lt.1 hlt
      omega

theorem scanStringBytes_plain {bs : List UInt8} (h : ∀ b ∈ bs,
    b ≠ byte '"' ∧ b ≠ byte '\\' ∧ ¬b < 0x20) (steps : Nat) (done : List UInt8) (rest : Source) :
    scanStringBytes (bs.length + steps) done (bs ++ rest) =
      scanStringBytes steps (bs.reverse ++ done) rest := by
  induction bs generalizing done with
  | nil => rw [List.length_nil, Nat.zero_add]; rfl
  | cons b bs ih =>
    obtain ⟨⟨hquote, hback, hcontrol⟩, hbs⟩ := List.forall_mem_cons.1 h
    rw [List.length_cons, Nat.add_right_comm, List.cons_append, scanStringBytes, if_neg hquote,
      if_neg hback, if_neg hcontrol, ih hbs, List.reverse_cons, List.append_assoc]
    rfl

/-- A written character takes no more steps than it has bytes. -/
theorem scanStringBytes_char {steps : Nat} (h : (bytesOf (escapeChar c)).length < steps)
    (done : List UInt8) (rest : Source) :
    ∃ steps', steps ≤ steps' + (bytesOf (escapeChar c)).length ∧
      scanStringBytes steps done (bytesOf (escapeChar c) ++ rest) =
        scanStringBytes steps' ((String.utf8EncodeChar c).reverse ++ done) rest := by
  cases hescape : needsEscape c with
  | true =>
    obtain ⟨bs, hbs, hscan⟩ := scanEscape_written hescape rest
    obtain ⟨steps, rfl⟩ : ∃ k, steps = k + 1 := ⟨steps - 1, by omega⟩
    refine ⟨steps, by rw [hbs, List.length_cons]; omega, ?_⟩
    rw [hbs, List.cons_append, scanStringBytes, if_neg (by decide), if_pos rfl, hscan]
    rfl
  | false =>
    rw [escapeChar_plain hescape] at h ⊢
    have hbytes : bytesOf [c] = String.utf8EncodeChar c := List.append_nil _
    rw [hbytes] at h ⊢
    refine ⟨steps - (String.utf8EncodeChar c).length, by omega, ?_⟩
    rw [← scanStringBytes_plain fun b ↦ plain_of_mem_encode hescape,
      Nat.add_sub_cancel' (Nat.le_of_lt h)]

theorem scanStringBytes_written {steps : Nat}
    (h : (bytesOf (cs.flatMap escapeChar)).length < steps) (done : List UInt8) (rest : Source) :
    scanStringBytes steps done (bytesOf (cs.flatMap escapeChar) ++ byte '"' :: rest) =
      .ok (done.reverse ++ bytesOf cs, rest) := by
  induction cs generalizing steps done with
  | nil =>
    obtain ⟨steps, rfl⟩ : ∃ k, steps = k + 1 := ⟨steps - 1, by omega⟩
    exact congrArg (fun bs ↦ Except.ok (bs, rest)) (List.append_nil _).symm
  | cons c cs ih =>
    rw [List.flatMap_cons, bytesOf_append, List.length_append] at h
    have hfirst : (bytesOf (escapeChar c)).length < steps := by omega
    obtain ⟨steps', hsteps, hscan⟩ := scanStringBytes_char hfirst done
      (bytesOf (cs.flatMap escapeChar) ++ byte '"' :: rest)
    rw [List.flatMap_cons, bytesOf_append, List.append_assoc, hscan, ih (by omega), bytesOf_cons,
      List.reverse_append, List.reverse_reverse, List.append_assoc]

theorem bytesOf_writeString (s : String) : bytesOf (writeString s) =
    byte '"' :: (bytesOf (s.toList.flatMap escapeChar) ++ [byte '"']) := by
  rw [writeString, List.cons_append, bytesOf_ascii (by decide), bytesOf_append]
  rfl

theorem scanString_written {steps : Nat} (s : String)
    (h : (bytesOf (s.toList.flatMap escapeChar)).length < steps) (rest : Source) :
    scanString steps (bytesOf (s.toList.flatMap escapeChar) ++ byte '"' :: rest) =
      .ok (s, rest) := by
  rw [scanString, scanStringBytes_written h]
  simp only [bind, Except.bind, List.reverse_nil, List.nil_append, fromUTF8_bytesOf,
    String.ofList_toList]

end ActionCatalog.Json
