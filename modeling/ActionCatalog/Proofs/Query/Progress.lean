import ActionCatalog.Proofs.Query.Tokens

namespace ActionCatalog.Query

open Text

variable {cs rest : List Char} {f : Failure}

/-- Whether a fault blames a token that a text begins with, or its end. -/
structure Failure.Blames (f : Failure) (rest : List Char) : Prop where
  rest_eq : f.rest = rest
  token : rest ≠ [] → 0 < f.tokenLength

theorem blames_token (cause : Cause) (rest : List Char) :
    Failure.Blames ⟨cause, rest, tokenLength rest⟩ rest := ⟨rfl, fun _ ↦ Nat.le_max_left ..⟩

inductive LiteralProgress (cs : List Char) : Except Failure (Literal × List Char) → Prop
  | noLiteral {f : Failure} (hf : f.Blames cs) : LiteralProgress cs (.error f)
  | complete {l : Literal} {literal rest : List Char} (h : LiteralText l literal)
    (hcs : cs = literal ++ rest) : LiteralProgress cs (.ok (l, rest))

theorem literalProgress (cs : List Char) : LiteralProgress cs (readLiteral cs) := by
  cases cs with
  | nil => exact .noLiteral (blames_token ..)
  | cons c cs =>
    rw [readLiteral]
    split
    · rename_i hquote
      have hbackslash : c ≠ '\\' := by
        rintro rfl
        simp at hquote
      split
      · rename_i s after htake
        obtain ⟨inner, hinner, rfl⟩ := (takeQuoted_eq_some hbackslash).1 htake
        exact .complete (.text hquote hinner) (by simp)
      · exact .noLiteral ⟨rfl, fun _ ↦ Nat.succ_pos _⟩
    split
    · rename_i hnumber
      dsimp only
      split
      · rename_i x hread
        exact .complete (.number (Decimal.readFinite_eq_some.1 hread))
          (List.take_append_drop _ _).symm
      · refine .noLiteral ⟨rfl, fun _ ↦ ?_⟩
        rw [numberLength, if_pos]
        · exact Nat.succ_pos _
        · rcases hnumber with hc | hc | hc | hc <;> simp [hc]
    have hname := (takeName_eq (rfl : takeName (c :: cs) = _)).1
    dsimp only
    split
    · rename_i htrue
      exact .complete (.flag htrue) hname
    split
    · rename_i hfalse
      exact .complete (.flag hfalse) hname
    · exact .noLiteral (blames_token ..)

theorem blames_checkLiteralEnd {l : Literal} {literal : List Char} (hl : LiteralText l literal)
    (h : checkLiteralEnd (literal ++ rest) l rest = .error f) :
    f.Blames (literal ++ rest) ∨ f.Blames rest := by
  obtain ⟨d, ds, rfl, hd, -⟩ := hl.head
  cases rest with
  | nil => cases h
  | cons c cs =>
    by_cases hc : isBlank c = true
    · simp [checkLiteralEnd, hc] at h
    cases l with
    | number x =>
      rw [checkLiteralEnd, if_neg hc] at h
      split at h
      · cases h
        exact .inl ⟨rfl, fun _ ↦ by simp [hd]⟩
      · cases h
        exact .inr (blames_token ..)
    | text s =>
      rw [checkLiteralEnd, if_neg hc] at h
      · cases h
        exact .inr (blames_token ..)
      · intro x hx
        cases hx
    | flag b =>
      rw [checkLiteralEnd, if_neg hc] at h
      · cases h
        exact .inr (blames_token ..)
      · intro x hx
        cases hx

/-- How far a predicate is read: `rest` is what is left of the text after it, or where a fault is
found. -/
inductive PredicateProgress : List Char → Except Failure (Predicate × List Char) → Prop
  | noField {blanks rest : List Char} {f : Failure} (hblanks : Blanks blanks) (hf : f.Blames rest) :
    PredicateProgress (blanks ++ rest) (.error f)
  | noOperator {blanks field gap rest : List Char} {f : Failure} (hblanks : Blanks blanks)
    (hfield : IsName field) (hgap : Blanks gap) (hcut : Stops isNameChar (gap ++ rest))
    (hf : f.Blames rest) :
    PredicateProgress (blanks ++ (field ++ (gap ++ rest))) (.error f)
  | noLiteral {blanks field gap symbol after rest : List Char} {o : Operator} {f : Failure}
    (hblanks : Blanks blanks) (hfield : IsName field) (hgap : Blanks gap)
    (hcut : Stops isNameChar (gap ++ symbol)) (ho : OperatorText o symbol) (hafter : Blanks after)
    (hf : f.Blames rest) :
    PredicateProgress (blanks ++ (field ++ (gap ++ (symbol ++ (after ++ rest))))) (.error f)
  | runsOn {blanks text rest : List Char} {p : Predicate} {f : Failure} (hblanks : Blanks blanks)
    (h : PredicateText p text) (hf : f.Blames rest) :
    PredicateProgress (blanks ++ (text ++ rest)) (.error f)
  | complete {blanks text rest : List Char} {p : Predicate} (hblanks : Blanks blanks)
    (h : PredicateText p text) (hends : Ends rest) :
    PredicateProgress (blanks ++ (text ++ rest)) (.ok (p, rest))

theorem predicateProgress (cs : List Char) : PredicateProgress cs (readPredicate cs) := by
  obtain ⟨blanks, hblanks, hcs, -⟩ := exists_blanks cs
  rw [readPredicate]
  generalize skipBlanks cs = named at hcs
  subst hcs
  rcases hname : takeName named with ⟨field, spaced⟩
  obtain ⟨rfl, hchars, hcut⟩ := takeName_eq hname
  dsimp only
  split
  · exact .noField hblanks (blames_token ..)
  rename_i hor
  split
  · exact .noField hblanks (blames_token ..)
  rename_i hnot
  obtain ⟨hne, hwhere, hand⟩ : _ ∧ _ ∧ _ := by simpa only [not_or] using hnot
  have hfield : IsName field :=
    ⟨hne, hchars, by simpa using hwhere, by simpa using hand, by simpa using hor⟩
  obtain ⟨gap, hgap, hspaced, -⟩ := exists_blanks spaced
  generalize skipBlanks spaced = signed at hspaced
  subst hspaced
  split
  · exact .noOperator hblanks hfield hgap hcut (blames_token ..)
  rename_i o valued ho
  obtain ⟨symbol, hsymbol, rfl, hword⟩ := exists_operatorText ho
  rw [← List.append_assoc] at hcut
  obtain ⟨after, hafter, hvalued, -⟩ := exists_blanks valued
  generalize skipBlanks valued = start at hvalued
  subst hvalued
  -- from here on a fault in the literal comes after a field and an operator that are read
  have hstart {f : Failure} (hf : f.Blames start) :=
    PredicateProgress.noLiteral hblanks hfield hgap hcut.of_append hsymbol hafter hf
  have hprogress := literalProgress start
  generalize readLiteral start = result at hprogress
  cases hprogress with
  | noLiteral hf => exact hstart hf
  | @complete l literal rest hliteral hcs =>
    subst hcs
    have htext : PredicateText ⟨String.ofList field, o, l⟩ _ :=
      .intro hfield hgap hsymbol hafter hliteral hcut.of_append fun hcontains ↦ by
        have hword := hword hcontains
        rw [← List.append_assoc] at hword
        exact hword.of_append
    -- the literal is read, and what follows may still run into it
    change PredicateProgress _ (checkLiteralEnd (literal ++ rest) l rest >>= fun _ ↦
      .ok (⟨String.ofList field, o, l⟩, rest))
    cases hend : checkLiteralEnd (literal ++ rest) l rest with
    | error f =>
      rcases blames_checkLiteralEnd hliteral hend with hf | hf
      · exact hstart hf
      · have hprogress := PredicateProgress.runsOn hblanks htext hf
        simp only [List.append_assoc] at hprogress
        exact hprogress
    | ok _ =>
      have hprogress := PredicateProgress.complete hblanks htext (checkLiteralEnd_eq_ok.1 hend)
      simp only [List.append_assoc] at hprogress
      exact hprogress

inductive PredicatesProgress (steps : Nat) : List Char → Except Failure (List Predicate) → Prop
  | faulty {cs : List Char} {f : Failure} (h : readPredicate cs = .error f) :
    PredicatesProgress steps cs (.error f)
  | last {blanks text gap : List Char} {p : Predicate} (hblanks : Blanks blanks)
    (h : PredicateText p text) (hgap : Blanks gap) :
    PredicatesProgress steps (blanks ++ (text ++ gap)) (.ok [p])
  | noAnd {blanks text gap rest : List Char} {p : Predicate} {f : Failure}
    (hblanks : Blanks blanks) (h : PredicateText p text) (hgap : Blanks gap) (hf : f.Blames rest) :
    PredicatesProgress steps (blanks ++ (text ++ (gap ++ rest))) (.error f)
  | and {blanks text gap word rest : List Char} {p : Predicate} (hblanks : Blanks blanks)
    (h : PredicateText p text) (hgap : Gap gap) (hword : isWord "and" word = true)
    (hcut : Stops isNameChar rest) :
    PredicatesProgress steps (blanks ++ (text ++ (gap ++ (word ++ rest))))
      ((readPredicates steps rest).map (p :: ·))

theorem predicatesProgress (steps : Nat) (cs : List Char) :
    PredicatesProgress steps cs (readPredicates (steps + 1) cs) := by
  have hprogress := predicateProgress cs
  rw [readPredicates]
  cases hread : readPredicate cs with
  | error f => exact .faulty hread
  | ok read =>
    rw [hread] at hprogress
    cases hprogress with
    | @complete blanks text spaced p hblanks h hends =>
      obtain ⟨gap, hgap, hspaced, hstops⟩ := exists_blanks spaced
      dsimp only [bind, Except.bind]
      generalize skipBlanks spaced = next at hspaced hstops
      subst hspaced
      split
      · rename_i hnil
        subst hnil
        rw [List.append_nil]
        exact .last hblanks h hgap
      rename_i hcons
      rcases hname : takeName next with ⟨word, rest⟩
      obtain ⟨rfl, -, hcut⟩ := takeName_eq hname
      dsimp only
      split
      · rename_i hword
        exact .and hblanks h (gap_of_ends hgap hcons hstops hends) hword hcut
      · split
        · exact .noAnd hblanks h hgap (blames_token ..)
        · exact .noAnd hblanks h hgap (blames_token ..)

inductive QueryProgress : List Char → Except Failure Query → Prop
  | empty {blanks : List Char} (hblanks : Blanks blanks) : QueryProgress blanks (.ok ⟨none, []⟩)
  | noQuery {blanks rest : List Char} {f : Failure} (hblanks : Blanks blanks) (hf : f.Blames rest) :
    QueryProgress (blanks ++ rest) (.error f)
  | predicates {blanks rest : List Char} (hblanks : Blanks blanks) :
    QueryProgress (blanks ++ rest) (readConditions none rest)
  | wherePredicates {blanks word rest : List Char} (hblanks : Blanks blanks)
    (hword : isWord "where" word = true) (hcut : Stops isNameChar rest) :
    QueryProgress (blanks ++ (word ++ rest)) (readConditions none rest)
  | type {blanks t gap : List Char} (hblanks : Blanks blanks) (ht : IsName t) (hgap : Blanks gap) :
    QueryProgress (blanks ++ (t ++ gap)) (.ok ⟨some (String.ofList t), []⟩)
  | typed {blanks t gap rest : List Char} (hblanks : Blanks blanks) (ht : IsName t)
    (hgap : Blanks gap) (hcut : Stops isNameChar (gap ++ rest)) (hstops : Stops isBlank rest)
    (hfirst : isWord "contains" (takeName rest).1 = false) :
    QueryProgress (blanks ++ (t ++ (gap ++ rest))) (readConditions (some (String.ofList t)) rest)
  | typedWhere {blanks t gap word rest : List Char} (hblanks : Blanks blanks) (ht : IsName t)
    (hgap : Gap gap) (hword : isWord "where" word = true) (hcut : Stops isNameChar rest) :
    QueryProgress (blanks ++ (t ++ (gap ++ (word ++ rest))))
      (readConditions (some (String.ofList t)) rest)

theorem not_contains_of_no_operator (h : ¬(takeOperator? cs).isSome = true) :
    isWord "contains" (takeName cs).1 = false := by
  refine Bool.eq_false_iff.2 fun hcontains ↦ h ?_
  unfold takeOperator?
  split
  all_goals first | rfl | simp [hcontains]

theorem queryProgress (cs : List Char) : QueryProgress cs (readList cs) := by
  obtain ⟨blanks, hblanks, hcs, -⟩ := exists_blanks cs
  rw [readList]
  generalize skipBlanks cs = body at hcs
  subst hcs
  rcases hname : takeName body with ⟨name, spaced⟩
  obtain ⟨rfl, hchars, hcut⟩ := takeName_eq hname
  dsimp only
  split
  · rename_i hempty
    rw [hempty, List.append_nil]
    exact .empty hblanks
  split
  · rename_i hwhere
    exact .wherePredicates hblanks hwhere hcut
  rename_i hwhere
  split
  · exact .noQuery hblanks (blames_token ..)
  rename_i hor
  split
  · exact .noQuery hblanks (blames_token ..)
  rename_i hnot
  obtain ⟨hne, hand⟩ : _ ∧ _ := by simpa only [not_or] using hnot
  have ht : IsName name :=
    ⟨hne, hchars, by simpa using hwhere, by simpa using hand, by simpa using hor⟩
  split
  · exact .predicates hblanks
  rename_i hop
  -- the name is an action type, after which predicates may come with `where` or without it
  obtain ⟨gap, hgap, hspaced, hstops⟩ := exists_blanks spaced
  generalize skipBlanks spaced = next at hop hspaced hstops
  subst hspaced
  split
  · rename_i hnil
    rw [hnil, List.append_nil]
    exact .type hblanks ht hgap
  rcases hword : takeName next with ⟨word, rest⟩
  obtain ⟨hnext, hchars, hcut'⟩ := takeName_eq hword
  dsimp only
  split
  · rename_i hwhere
    subst hnext
    obtain ⟨hne, -⟩ := name_of_isWord (by decide) hwhere
    obtain ⟨c, cs, rfl⟩ := List.exists_cons_of_ne_nil hne
    have hgap := gap_of_stops hgap ⟨c, cs, rfl, hchars c List.mem_cons_self⟩ hcut
    exact .typedWhere hblanks ht hgap hwhere hcut'
  · exact .typed hblanks ht hgap hcut hstops (not_contains_of_no_operator hop)

end ActionCatalog.Query
