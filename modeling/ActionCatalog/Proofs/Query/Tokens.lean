import ActionCatalog.Proofs.Query.Grammar

namespace ActionCatalog.Query

open Text

variable {word cs rest : List Char} {c : Char}

theorem takeQuoted_eq_some {quote : Char} {s : List Char} (hquote : quote ≠ '\\') :
    takeQuoted? quote cs = some (s, rest) ↔ ∃ inner, Quoted quote s inner ∧
      cs = inner ++ quote :: rest := by
  constructor
  · intro h
    fun_induction takeQuoted? quote cs generalizing s with
    | case1 => cases h
    | case2 c cs ih =>
      obtain ⟨⟨s', rest'⟩, hs, heq⟩ := Option.map_eq_some_iff.1 h
      cases heq
      obtain ⟨inner, hinner, rfl⟩ := ih hs
      exact ⟨_, .escaped c hinner, rfl⟩
    | case3 cs =>
      cases h
      exact ⟨[], .nil, rfl⟩
    | case4 => cases h
    | case5 c cs hne hb hbackslash ih =>
      obtain ⟨⟨s', rest'⟩, hs, heq⟩ := Option.map_eq_some_iff.1 h
      cases heq
      obtain ⟨inner, hinner, rfl⟩ := ih hs
      exact ⟨_, .plain (by assumption) (by assumption) hinner, rfl⟩
  · rintro ⟨inner, hinner, rfl⟩
    induction hinner with
    | nil =>
      rw [List.nil_append, takeQuoted?.eq_3, if_pos rfl]
      exact fun _ _ h ↦ absurd h hquote
    | plain hne hb h ih =>
      rw [List.cons_append, takeQuoted?.eq_3, if_neg hne, if_neg hb, ih]
      · rfl
      · exact fun _ _ h ↦ absurd h hb
    | escaped c h ih =>
      rw [List.cons_append, List.cons_append, takeQuoted?, ih]
      rfl

/-- No operator but `contains` begins with a character of names. -/
theorem takeOperator_name {name : List Char} (hn : name ≠ [])
    (hc : ∀ c ∈ name, isNameChar c = true) (hr : Stops isNameChar rest) :
    takeOperator? (name ++ rest) =
      if isWord "contains" name then some (.contains, rest) else none := by
  obtain ⟨c, cs, rfl⟩ := List.exists_cons_of_ne_nil hn
  have hstart : isNameChar c = true := hc c List.mem_cons_self
  have hne (d : Char) (hd : d ∈ ['>', '<', '=', '!']) (ds : List Char)
      (h : c :: cs ++ rest = d :: ds) : False := by
    have hsymbol : ['>', '<', '=', '!'].all (fun d ↦ !isNameChar d) = true := by decide
    rw [← (List.cons.inj h).1] at hd
    exact absurd hstart (by simpa using List.all_eq_true.1 hsymbol c hd)
  rw [takeOperator?.eq_8, takeName_append hc hr]
  · exact fun ds h ↦ hne '>' (by simp) _ h
  · exact fun ds h ↦ hne '<' (by simp) _ h
  · exact fun ds h ↦ hne '=' (by simp) _ h
  · exact fun ds h ↦ hne '!' (by simp) _ h
  · exact fun ds h ↦ hne '>' (by simp) ds h
  · exact fun ds h ↦ hne '<' (by simp) ds h
  · exact fun ds h ↦ hne '=' (by simp) ds h

theorem exists_operatorText {o : Operator} (h : takeOperator? cs = some (o, rest)) :
    ∃ symbol, OperatorText o symbol ∧ cs = symbol ++ rest ∧
      (o = .contains → Stops isNameChar rest) := by
  unfold takeOperator? at h
  split at h
  · cases h
    exact ⟨_, .symbol (by decide), rfl, nofun⟩
  · cases h
    exact ⟨_, .symbol (by decide), rfl, nofun⟩
  · cases h
    exact ⟨_, .symbol (by decide), rfl, nofun⟩
  · cases h
    exact ⟨_, .symbol (by decide), rfl, nofun⟩
  · cases h
    exact ⟨_, .symbol (by decide), rfl, nofun⟩
  · cases h
    exact ⟨_, .symbol (by decide), rfl, nofun⟩
  · cases h
    exact ⟨_, .single, rfl, nofun⟩
  · dsimp only at h
    split at h
    · rename_i hword
      cases h
      obtain ⟨hcs, -, hstops⟩ := takeName_eq (rfl : takeName cs = _)
      exact ⟨_, .word hword, hcs, fun _ ↦ hstops⟩
    · cases h

theorem isAlpha_flag {b : Bool} (h : isWord (toString b) word = true) :
    ∀ c ∈ word, c.isAlpha = true := by
  cases b with
  | true => exact isAlpha_of_isWord (by decide) h
  | false => exact isAlpha_of_isWord (by decide) h

theorem LiteralText.head {l : Literal} (h : LiteralText l cs) :
    ∃ c cs', cs = c :: cs' ∧ isBlank c = false ∧ c ≠ '=' := by
  cases h with
  | @flag b _ h =>
    cases cs with
    | nil => cases b <;> cases h
    | cons c cs' =>
      have hc := isNameChar_alpha (isAlpha_flag h c List.mem_cons_self)
      refine ⟨c, cs', rfl, not_isBlank hc, ?_⟩
      rintro rfl
      exact absurd hc (by decide)
  | text hquote h =>
    rcases hquote with rfl | rfl
    · exact ⟨_, _, rfl, by decide, by decide⟩
    · exact ⟨_, _, rfl, by decide, by decide⟩
  | number h =>
    obtain ⟨c, cs', rfl, hc⟩ := h.head
    refine ⟨c, cs', rfl, ?_, ?_⟩
    · rcases hc with hc | rfl | rfl | rfl
      · exact not_isBlank (isNameChar_digit hc)
      all_goals decide
    · rintro rfl
      simp at hc

theorem takeOperator_append {o : Operator} {symbol : List Char} (h : OperatorText o symbol)
    (hword : o = .contains → Stops isNameChar rest) (hr : ∀ cs, rest ≠ '=' :: cs) :
    takeOperator? (symbol ++ rest) = some (o, rest) := by
  cases h with
  | symbol ho =>
    cases o with
    | greater => exact takeOperator?.eq_5 rest hr
    | less => exact takeOperator?.eq_6 rest hr
    | greaterEqual => exact takeOperator?.eq_1 rest
    | lessEqual => exact takeOperator?.eq_2 rest
    | equal => exact takeOperator?.eq_3 rest
    | notEqual => exact takeOperator?.eq_4 rest
    | contains => exact absurd rfl ho
  | single => exact takeOperator?.eq_7 rest hr
  | word h =>
    obtain ⟨hne, hchars⟩ := name_of_isWord (by decide) h
    rw [takeOperator_name hne hchars (hword rfl), if_pos h]

theorem numberLength_point (signFits : Bool) (h : c.isDigit = true ∨ c = '.') (cs : List Char) :
    numberLength signFits (c :: cs) = numberLength false cs + 1 := by
  have hletter : ¬(c = 'e' ∨ c = 'E') := by
    rintro (rfl | rfl) <;> simp at h
  rw [numberLength, if_pos, decide_eq_false hletter]
  rcases h with h | h
  · exact .inl h
  · exact .inr (.inl h)

theorem numberLength_points (signFits : Bool) (hne : cs ≠ [])
    (h : ∀ c ∈ cs, c.isDigit = true ∨ c = '.') :
    numberLength signFits (cs ++ rest) = cs.length + numberLength false rest := by
  induction cs generalizing signFits with
  | nil => exact absurd rfl hne
  | cons c cs ih =>
    obtain ⟨hc, hcs⟩ := List.forall_mem_cons.1 h
    rw [List.cons_append, numberLength_point signFits hc, List.length_cons]
    cases cs with
    | nil => exact Nat.add_comm _ _
    | cons d ds =>
      rw [ih false (List.cons_ne_nil d ds) hcs]
      omega

theorem numberLength_ends (signFits : Bool) (h : Ends rest) : numberLength signFits rest = 0 := by
  cases rest with
  | nil => rfl
  | cons c cs =>
    have hblank : isBlank c = true := by simpa using stops_cons.1 h
    refine if_neg ?_
    rintro (hc | rfl | rfl | rfl | ⟨-, rfl | rfl⟩)
    · rw [not_isBlank (isNameChar_digit hc)] at hblank
      cases hblank
    all_goals revert hblank; decide

theorem numberLength_sign {negative : Bool} {sign : List Char} (h : Decimal.Sign negative sign)
    (hne : cs ≠ []) (hcs : ∀ c ∈ cs, c.isDigit = true ∨ c = '.') :
    numberLength true (sign ++ cs ++ rest) = (sign ++ cs).length + numberLength false rest := by
  cases h with
  | none => exact numberLength_points true hne hcs
  | plus =>
    change numberLength false (cs ++ rest) + 1 = cs.length + 1 + _
    rw [numberLength_points false hne hcs]
    omega
  | minus =>
    change numberLength false (cs ++ rest) + 1 = cs.length + 1 + _
    rw [numberLength_points false hne hcs]
    omega

theorem numberLength_exponent {p : Int} (h : Decimal.Exponent p cs) (hr : Ends rest) :
    numberLength false (cs ++ rest) = cs.length := by
  cases h with
  | none => exact numberLength_ends false hr
  | @power letter negative sign ds hletter hsign hne hd =>
    have hdigits : numberLength true (sign ++ ds ++ rest) = (sign ++ ds).length + _ :=
      numberLength_sign hsign hne fun c hc ↦ .inl (hd c hc)
    rw [numberLength_ends false hr] at hdigits
    rw [List.cons_append, numberLength, if_pos (.inr (.inr (hletter.imp_right .inl))),
      decide_eq_true hletter, hdigits]
    rfl

theorem numberLength_written {x : Binary64} (h : Decimal.Written x cs) (hr : Ends rest) :
    numberLength true (cs ++ rest) = cs.length := by
  obtain ⟨hsign, ⟨hm, he⟩, -⟩ := h
  obtain ⟨hne, hpoints⟩ := hm.points
  rw [← List.append_assoc, List.append_assoc _ _ rest, numberLength_sign hsign hne hpoints,
    numberLength_exponent he hr]
  exact List.length_append.symm

theorem readLiteral_append {l : Literal} (h : LiteralText l cs) (hr : Ends rest) :
    readLiteral (cs ++ rest) = .ok (l, rest) := by
  cases h with
  | @flag b _ h =>
    have hname : takeName (cs ++ rest) = (cs, rest) :=
      takeName_append (fun c hc ↦ isNameChar_alpha (isAlpha_flag h c hc)) hr.stops_name
    cases cs with
    | nil => cases b <;> cases h
    | cons c cs =>
      have halpha := isAlpha_flag h c List.mem_cons_self
      have hquote : ¬(c = '\'' ∨ c = '"') := by
        rintro (rfl | rfl) <;> simp at halpha
      have hstart : ¬(c.isDigit = true ∨ c = '-' ∨ c = '+' ∨ c = '.') := by
        rw [isDigit_of_isAlpha halpha]
        rintro (hc | rfl | rfl | rfl)
        · cases hc
        all_goals simp at halpha
      rw [List.cons_append] at hname ⊢
      rw [readLiteral, if_neg hquote, if_neg hstart, hname]
      cases b with
      | true => exact if_pos h
      | false =>
        have htrue : isWord "true" (c :: cs) = false := isWord_eq h "true"
        dsimp only
        rw [htrue, if_neg Bool.false_ne_true]
        exact if_pos h
  | @text quote s cs hquote h =>
    have hbackslash : quote ≠ '\\' := by
      rintro rfl
      simp at hquote
    have htake : takeQuoted? quote (cs ++ quote :: rest) = some (s, rest) :=
      (takeQuoted_eq_some hbackslash).2 ⟨cs, h, rfl⟩
    rw [List.cons_append, List.append_assoc, readLiteral, if_pos hquote]
    dsimp only [List.singleton_append]
    rw [htake]
  | number h =>
    have hread := Decimal.readFinite_eq_some.2 h
    have hlength := numberLength_written h hr
    obtain ⟨c, cs', rfl, hc⟩ := h.head
    have hquote : ¬(c = '\'' ∨ c = '"') := by
      rintro (rfl | rfl) <;> simp at hc
    rw [List.cons_append] at hlength ⊢
    rw [readLiteral, if_neg hquote, if_pos hc, hlength]
    dsimp only
    rw [← List.cons_append, List.take_left, hread, List.drop_left]

theorem checkLiteralEnd_eq_ok {start : List Char} {l : Literal} :
    checkLiteralEnd start l rest = .ok () ↔ Ends rest := by
  cases rest with
  | nil => exact iff_of_true rfl stops_nil
  | cons c cs =>
    by_cases hblank : isBlank c = true
    · exact iff_of_true (if_pos hblank) (stops_cons.2 (by rw [hblank]; rfl))
    · refine iff_of_false (fun h ↦ ?_) fun h ↦ hblank (by simpa using stops_cons.1 h)
      cases l with
      | number x =>
        rw [checkLiteralEnd, if_neg hblank] at h
        split at h <;> cases h
      | text s => simp [checkLiteralEnd, hblank, unexpected] at h
      | flag b => simp [checkLiteralEnd, hblank, unexpected] at h

end ActionCatalog.Query
