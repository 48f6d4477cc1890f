import ActionCatalog.Proofs.Query.Progress

namespace ActionCatalog.Query

open Text

variable {cs rest text : List Char} {p : Predicate} {ps : List Predicate} {q : Query}

theorem OperatorText.head {o : Operator} (h : OperatorText o cs) :
    ∃ c cs', cs = c :: cs' ∧ isBlank c = false := by
  cases h with
  | @symbol o ho => cases o <;> exact ⟨_, _, rfl, by decide⟩
  | single => exact ⟨_, _, rfl, by decide⟩
  | word h =>
    obtain ⟨hne, hchars⟩ := name_of_isWord (by decide) h
    obtain ⟨c, cs, rfl⟩ := List.exists_cons_of_ne_nil hne
    exact ⟨c, cs, rfl, not_isBlank (hchars c List.mem_cons_self)⟩

theorem LiteralText.ne_equals {l : Literal} {blanks : List Char} (h : LiteralText l text)
    (hblanks : Blanks blanks) : blanks ++ (text ++ rest) ≠ '=' :: cs := by
  obtain ⟨c, cs', rfl, -, hc⟩ := h.head
  cases blanks with
  | nil =>
    rintro ⟨⟩
    exact hc rfl
  | cons b blanks =>
    rintro ⟨⟩
    exact absurd (hblanks '=' List.mem_cons_self) (by decide)

/-- A predicate as it is taken apart: the field is cut off, and then the operator, whatever follows
the literal. -/
theorem PredicateText.parts (h : PredicateText p text) : ∃ spaced gap literal, spaced ≠ [] ∧
    text = p.field.toList ++ spaced ∧ IsName p.field.toList ∧ Stops isNameChar spaced ∧
    Blanks gap ∧ LiteralText p.literal literal ∧ ∀ rest,
      takeOperator? (skipBlanks (spaced ++ rest)) =
        some (p.operator, gap ++ (literal ++ rest)) := by
  cases h with
  | @intro field before symbol after literal o l hfield hbefore ho hafter hl hcut hword =>
    obtain ⟨c, cs, hsymbol, hc⟩ := ho.head
    obtain ⟨d, ds, hliteral, -⟩ := hl.head
    rw [String.toList_ofList]
    refine ⟨before ++ (symbol ++ (after ++ literal)), after, literal, by simp [hsymbol], rfl,
      hfield, ?_, hafter, hl, fun rest ↦ ?_⟩
    · rw [← List.append_assoc]
      exact hcut.append (by simp [hsymbol]) _
    · have hskip : skipBlanks (symbol ++ (after ++ (literal ++ rest))) =
          symbol ++ (after ++ (literal ++ rest)) :=
        skipBlanks_of_stops (by rw [hsymbol]; exact stops_cons.2 hc)
      simp only [List.append_assoc]
      rw [skipBlanks_append hbefore, hskip]
      refine takeOperator_append ho (fun hcontains ↦ ?_) fun _ ↦ hl.ne_equals hafter
      rw [← List.append_assoc]
      exact (hword hcontains).append (by simp [hliteral]) rest

theorem readPredicate_append {blanks : List Char} (hblanks : Blanks blanks)
    (h : PredicateText p text) (hr : Ends rest) :
    readPredicate (blanks ++ (text ++ rest)) = .ok (p, rest) := by
  obtain ⟨spaced, gap, literal, hne, rfl, hfield, hcut, hgap, hl, hop⟩ := h.parts
  obtain ⟨c, cs, hliteral, hc, -⟩ := hl.head
  have hskip : skipBlanks (literal ++ rest) = literal ++ rest :=
    skipBlanks_of_stops (by rw [hliteral]; exact stops_cons.2 hc)
  have hend : checkLiteralEnd (literal ++ rest) p.literal rest = .ok () :=
    checkLiteralEnd_eq_ok.2 hr
  rw [List.append_assoc, readPredicate, skipBlanks_append hblanks,
    skipBlanks_name hfield.nonempty hfield.chars,
    takeName_append hfield.chars (hcut.append hne rest)]
  simp only [hfield.not_or, hfield.not_and, hfield.not_where, hfield.nonempty, hop,
    skipBlanks_append hgap, hskip, readLiteral_append hl hr, String.ofList_toList,
    Bool.false_eq_true, or_self, ↓reduceIte]
  exact congrArg (· >>= fun _ ↦ Except.ok (p, rest)) hend

theorem PredicateText.head (h : PredicateText p text) :
    ∃ c cs, text = c :: cs ∧ isNameChar c = true := by
  obtain ⟨spaced, -, -, -, rfl, hfield, -⟩ := h.parts
  obtain ⟨c, cs, hc⟩ := List.exists_cons_of_ne_nil hfield.nonempty
  exact ⟨c, cs ++ spaced, by rw [hc, List.cons_append], hfield.chars c (hc ▸ List.mem_cons_self)⟩

theorem PredicatesText.exists_first (h : PredicatesText ps text) : ∃ p first more,
    ps.head? = some p ∧ PredicateText p first ∧ text = first ++ more := by
  cases h with
  | single h => exact ⟨_, _, [], rfl, h, (List.append_nil _).symm⟩
  | and h hbefore hword hafter hs => exact ⟨_, _, _, rfl, h, rfl⟩

theorem PredicatesText.head (h : PredicatesText ps text) :
    ∃ c cs, text = c :: cs ∧ isNameChar c = true := by
  obtain ⟨p, first, more, -, hp, rfl⟩ := h.exists_first
  obtain ⟨c, cs, rfl, hc⟩ := hp.head
  exact ⟨c, cs ++ more, rfl, hc⟩

theorem PredicatesText.length_le (h : PredicatesText ps text) : ps.length ≤ text.length := by
  induction h with
  | single h =>
    obtain ⟨c, cs, rfl, -⟩ := h.head
    simp
  | and h hbefore hword hafter hs ih =>
    obtain ⟨c, cs, rfl, -⟩ := h.head
    simp only [List.length_cons, List.length_append]
    omega

theorem readPredicates_append {steps : Nat} {before after : List Char} (hbefore : Blanks before)
    (hafter : Blanks after) (h : PredicatesText ps text) (hs : ps.length ≤ steps) :
    readPredicates steps (before ++ (text ++ after)) = .ok ps := by
  induction h generalizing before steps with
  | single h =>
    obtain _ | steps := steps
    · cases hs
    rw [readPredicates, readPredicate_append hbefore h hafter.ends]
    change (if skipBlanks after = [] then _ else _) = _
    rw [if_pos (skipBlanks_blanks hafter)]
  | @and p ps cs gap word gap' ds h hgap hword hgap' hrest ih =>
    obtain _ | steps := steps
    · cases hs
    have hread := ih hgap'.blanks (Nat.le_of_succ_le_succ hs)
    obtain ⟨hne, hchars⟩ := name_of_isWord (by decide) hword
    have hname : takeName (word ++ (gap' ++ (ds ++ after))) = (word, gap' ++ (ds ++ after)) :=
      takeName_append hchars hgap'.ends.stops_name
    simp only [List.append_assoc]
    rw [readPredicates, readPredicate_append hbefore h hgap.ends]
    change (if skipBlanks (gap ++ (word ++ (gap' ++ (ds ++ after)))) = [] then _ else
      if isWord "and" (takeName (skipBlanks (gap ++ (word ++ (gap' ++ (ds ++ after)))))).1 then
        (readPredicates steps
          (takeName (skipBlanks (gap ++ (word ++ (gap' ++ (ds ++ after)))))).2).map (p :: ·)
      else _) = _
    rw [skipBlanks_append hgap.blanks, skipBlanks_name hne hchars, if_neg (by simp [hne]), hname,
      if_pos hword, hread]
    rfl

theorem exists_predicatesText {steps : Nat} (h : readPredicates steps cs = .ok ps) :
    ∃ before text after, Blanks before ∧ Blanks after ∧ PredicatesText ps text ∧
      cs = before ++ (text ++ after) := by
  induction steps generalizing cs ps with
  | zero => cases h
  | succ steps ih =>
    have hprogress := predicatesProgress steps cs
    generalize readPredicates (steps + 1) cs = result at h hprogress
    cases hprogress with
    | faulty => cases h
    | @last before text gap p hbefore hp hgap =>
      cases h
      exact ⟨before, text, gap, hbefore, hgap, .single hp, rfl⟩
    | noAnd => cases h
    | @and before text gap word rest p hbefore hp hgap hword hcut =>
      obtain ⟨ps, hread, rfl⟩ := exists_of_map_ok h
      obtain ⟨gap', text', after, hgap', hafter, hps, rfl⟩ := ih hread
      refine ⟨before, _, after, hbefore, hafter,
        .and hp hgap hword (gap_of_stops hgap' hps.head hcut) hps, ?_⟩
      simp only [List.append_assoc]

theorem PredicatesText.skipBlanks {before : List Char} (h : PredicatesText ps text)
    (hbefore : Blanks before) (rest : List Char) :
    Text.skipBlanks (before ++ (text ++ rest)) = text ++ rest := by
  obtain ⟨c, cs, rfl, hc⟩ := h.head
  rw [skipBlanks_append hbefore]
  exact skipBlanks_of_stops (stops_cons.2 (not_isBlank hc))

theorem readConditions_append {actionType : Option String} {before after : List Char}
    (hbefore : Blanks before) (hafter : Blanks after) (h : PredicatesText ps text) :
    readConditions actionType (before ++ (text ++ after)) = .ok ⟨actionType, ps⟩ := by
  obtain ⟨c, cs, htext, -⟩ := h.head
  have hsteps : ps.length ≤ (text ++ after).length + 1 := by
    have := h.length_le
    rw [List.length_append]
    omega
  have hread := readPredicates_append (List.forall_mem_nil _) hafter h hsteps
  rw [List.nil_append] at hread
  rw [readConditions, h.skipBlanks hbefore, if_neg (by simp [htext]), hread]
  rfl

theorem exists_of_readConditions {actionType : Option String}
    (h : readConditions actionType cs = .ok q) : ∃ before text after ps, Blanks before ∧
      Blanks after ∧ PredicatesText ps text ∧ cs = before ++ (text ++ after) ∧
      q = ⟨actionType, ps⟩ := by
  obtain ⟨blanks, hblanks, hcs, -⟩ := exists_blanks cs
  rw [readConditions] at h
  split at h
  · cases h
  obtain ⟨ps, hread, rfl⟩ := exists_of_map_ok h
  obtain ⟨before, text, after, hbefore, hafter, hps, hrest⟩ := exists_predicatesText hread
  refine ⟨blanks ++ before, text, after, ps, ?_, hafter, hps, ?_, rfl⟩
  · exact List.forall_mem_append.2 ⟨hblanks, hbefore⟩
  · rw [hcs, hrest, List.append_assoc]

theorem PredicatesText.exists_name (h : PredicatesText ps text) (rest : List Char) :
    ∃ p, ps.head? = some p ∧ IsName p.field.toList ∧
      (takeName (text ++ rest)).1 = p.field.toList ∧
      (takeOperator? (text ++ rest)).isSome = isWord "contains" p.field.toList := by
  obtain ⟨p, first, more, hp, hfirst, rfl⟩ := h.exists_first
  obtain ⟨spaced, -, -, hne, rfl, hfield, hcut, -⟩ := hfirst.parts
  have hcut := hcut.append hne (more ++ rest)
  simp only [List.append_assoc]
  refine ⟨p, hp, hfield, ?_, ?_⟩
  · rw [takeName_append hfield.chars hcut]
  · rw [takeOperator_name hfield.nonempty hfield.chars hcut]
    cases isWord "contains" p.field.toList <;> rfl

theorem spelled_of_readList (h : readList cs = .ok q) : Spelled q cs := by
  have hprogress := queryProgress cs
  generalize readList cs = result at h hprogress
  cases hprogress with
  | empty hblanks =>
    cases h
    have hspelled := Spelled.intro hblanks (List.forall_mem_nil _) .empty
    rwa [List.append_nil, List.append_nil] at hspelled
  | noQuery => cases h
  | predicates hblanks =>
    obtain ⟨before, text, after, ps, hbefore, hafter, hps, rfl, rfl⟩ := exists_of_readConditions h
    have hspelled := Spelled.intro (List.forall_mem_append.2 ⟨hblanks, hbefore⟩) hafter
      (.predicates hps)
    simpa only [List.append_assoc] using hspelled
  | wherePredicates hblanks hword hcut =>
    obtain ⟨gap, text, after, ps, hgap, hafter, hps, rfl, rfl⟩ := exists_of_readConditions h
    have hspelled := Spelled.intro hblanks hafter
      (.wherePredicates hword (gap_of_stops hgap hps.head hcut) hps)
    simpa only [List.append_assoc] using hspelled
  | type hblanks ht hgap =>
    cases h
    exact .intro hblanks hgap (.type ht)
  | typed hblanks ht hgap hcut hstops hfirst =>
    obtain ⟨none, text, after, ps, hnone, hafter, hps, rfl, rfl⟩ := exists_of_readConditions h
    obtain rfl := hnone.eq_nil hstops
    rw [List.nil_append] at hcut hfirst ⊢
    -- the first field is the word after the type, and that is not `contains`
    obtain ⟨p, hp, -, hname, -⟩ := hps.exists_name after
    have hfield : ∀ p ∈ ps.head?, isWord "contains" p.field.toList = false := by
      rintro p' hp'
      obtain rfl := Option.some.inj (hp.symm.trans hp')
      rwa [← hname]
    have hspelled := Spelled.intro hblanks hafter
      (.typed ht (gap_of_stops hgap hps.head hcut) hps hfield)
    simpa only [List.append_assoc] using hspelled
  | typedWhere hblanks ht hgap hword hcut =>
    obtain ⟨gap', text, after, ps, hgap', hafter, hps, rfl, rfl⟩ := exists_of_readConditions h
    have hspelled := Spelled.intro hblanks hafter
      (.typedWhere ht hgap hword (gap_of_stops hgap' hps.head hcut) hps)
    simpa only [List.append_assoc] using hspelled

theorem readList_where {before word : List Char} (hbefore : Blanks before)
    (hword : isWord "where" word = true) (hcut : Stops isNameChar rest) :
    readList (before ++ (word ++ rest)) = readConditions none rest := by
  obtain ⟨hne, hchars⟩ := name_of_isWord (by decide) hword
  rw [readList, skipBlanks_append hbefore, skipBlanks_name hne hchars, takeName_append hchars hcut]
  dsimp only
  rw [if_neg (by simp [hne]), if_pos hword]

/-- What becomes of a query that begins with a name. -/
theorem readList_name {before name : List Char} (hbefore : Blanks before) (hname : IsName name)
    (hcut : Stops isNameChar rest) : readList (before ++ (name ++ rest)) =
      if (takeOperator? (skipBlanks rest)).isSome then readConditions none (name ++ rest)
      else if skipBlanks rest = [] then .ok ⟨some (String.ofList name), []⟩
      else readConditions (some (String.ofList name))
        (if isWord "where" (takeName (skipBlanks rest)).1 then (takeName (skipBlanks rest)).2
        else skipBlanks rest) := by
  rw [readList, skipBlanks_append hbefore, skipBlanks_name hname.nonempty hname.chars,
    takeName_append hname.chars hcut]
  dsimp only
  rw [if_neg (by simp [hname.nonempty]), hname.not_where, hname.not_or, hname.not_and]
  simp only [hname.nonempty, Bool.false_eq_true, or_self, ↓reduceIte]

theorem readList_of_spelled (h : Spelled q cs) : readList cs = .ok q := by
  obtain ⟨hbefore, hafter, hbody⟩ := h
  cases hbody with
  | empty =>
    rw [List.nil_append, readList, skipBlanks_append hbefore, skipBlanks_blanks hafter]
    rfl
  | type ht =>
    rw [readList_name hbefore ht hafter.ends.stops_name, skipBlanks_blanks hafter]
    rfl
  | predicates h =>
    obtain ⟨p, first, more, -, hp, rfl⟩ := h.exists_first
    obtain ⟨spaced, gap, literal, hne, rfl, hfield, hcut, -, -, hop⟩ := hp.parts
    have hread : readConditions none _ = _ := readConditions_append (List.forall_mem_nil _) hafter h
    simp only [List.append_assoc, List.nil_append] at hread ⊢
    rw [readList_name hbefore hfield (hcut.append hne _), hop, hread]
    rfl
  | wherePredicates hword hgap h =>
    rw [List.append_assoc, List.append_assoc,
      readList_where hbefore hword hgap.ends.stops_name, readConditions_append hgap.blanks hafter h]
  | @typed t gap cs ps ht hgap h hfirst =>
    obtain ⟨p, hp, hfield, hname, hcontains⟩ := h.exists_name _
    obtain ⟨c, ds, htext, -⟩ := h.head
    rw [hfirst p hp] at hcontains
    rw [List.append_assoc, List.append_assoc, readList_name hbefore ht hgap.ends.stops_name,
      h.skipBlanks hgap.blanks, hcontains, hname, hfield.not_where, if_neg Bool.false_ne_true,
      if_neg (by simp [htext]), if_neg Bool.false_ne_true]
    exact readConditions_append (List.forall_mem_nil _) hafter h
  | @typedWhere t gap word gap' cs ps ht hgap hword hgap' h =>
    obtain ⟨hne, hchars⟩ := name_of_isWord (by decide) hword
    have hcut (rest : List Char) : Stops isNameChar (gap' ++ rest) := hgap'.ends.stops_name
    have hcontains : isWord "contains" word = false := isWord_eq hword "contains"
    simp only [List.append_assoc]
    rw [readList_name hbefore ht hgap.ends.stops_name, skipBlanks_append hgap.blanks,
      skipBlanks_name hne hchars, takeOperator_name hne hchars (hcut _), hcontains,
      takeName_append hchars (hcut _)]
    simp only [hword, hne, ↓reduceIte, Bool.false_eq_true, Option.isSome_none,
      List.append_eq_nil_iff, false_and, readConditions_append hgap'.blanks hafter h]

/-- A text is read as a query exactly if it spells that query, and is read at all exactly if it
spells some query. -/
theorem read_eq_ok (text : String) : (∀ q, read text = .ok q ↔ Spelled q text.toList) ∧
    ((read text).toOption.isSome ↔ ∃ q, Spelled q text.toList) := by
  have hread (q : Query) : read text = .ok q ↔ Spelled q text.toList := by
    rw [read, mapError_eq_ok]
    exact ⟨spelled_of_readList, readList_of_spelled⟩
  refine ⟨hread, ?_⟩
  rw [Option.isSome_iff_exists]
  exact exists_congr fun q ↦ toOption_eq_some.trans (hread q)

end ActionCatalog.Query
