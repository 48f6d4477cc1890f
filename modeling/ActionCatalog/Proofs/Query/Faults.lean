import ActionCatalog.Proofs.Query.Acceptance
import ActionCatalog.Report.Results

namespace ActionCatalog.Query

open Text

variable {cs rest : List Char} {f : Failure}

/-- A fault that leaves off where some whole text could have gone on, and blames a token there. What
goes on does not prolong a name. -/
structure Failure.Interrupts (f : Failure) (Whole : List Char → Prop) (cs : List Char) : Prop where
  token : f.rest ≠ [] → 0 < f.tokenLength
  completed : ∃ before more, cs = before ++ f.rest ∧ Stops isNameChar more ∧ Whole (before ++ more)

theorem Failure.Interrupts.imp {Whole Whole' : List Char → Prop} (h : f.Interrupts Whole cs)
    (hwhole : ∀ t, Whole t → Whole' t) : f.Interrupts Whole' cs := by
  obtain ⟨htoken, before, more, hcs, hmore, ht⟩ := h
  exact ⟨htoken, before, more, hcs, hmore, hwhole _ ht⟩

theorem Failure.Interrupts.append {Whole Whole' : List Char → Prop} {before : List Char}
    (h : f.Interrupts Whole cs)
    (hwhole : ∀ t, (Stops isNameChar cs → Stops isNameChar t) → Whole t → Whole' (before ++ t)) :
    f.Interrupts Whole' (before ++ cs) := by
  obtain ⟨htoken, begun, more, rfl, hmore, ht⟩ := h
  refine ⟨htoken, before ++ begun, more, (List.append_assoc ..).symm, hmore, ?_⟩
  rw [List.append_assoc]
  refine hwhole _ (fun hstops ↦ ?_) ht
  cases begun with
  | nil => exact hmore
  | cons c begun => exact stops_cons.2 (stops_cons.1 hstops)

/-- A fault interrupts a text if what comes before the blamed token can go on. -/
theorem Failure.Blames.interrupts {Whole : List Char → Prop} {before more : List Char}
    (h : f.Blames rest) (hwhole : Whole (before ++ more)) (hmore : Stops isNameChar more)
    (hcs : cs = before ++ rest) : f.Interrupts Whole cs := by
  obtain ⟨rfl, htoken⟩ := h
  exact ⟨htoken, before, more, hcs, hmore, hwhole⟩

theorem literalText_true : LiteralText (.flag true) "true".toList := .flag rfl

theorem predicateText_true {field gap : List Char} (hfield : IsName field) (hgap : Blanks gap) :
    PredicateText ⟨String.ofList field, .equal, .flag true⟩
      (field ++ (gap ++ (['='] ++ ([' '] ++ "true".toList)))) := by
  refine .intro hfield hgap .single gap_space.blanks literalText_true ?_ ?_
  · cases gap with
    | nil => exact stops_cons.2 (by decide)
    | cons c gap => exact stops_cons.2 (not_isNameChar (hgap c List.mem_cons_self))
  · intro h
    cases h

/-- Whether a predicate has a field by the name of an operator only if a text begins with it. -/
def FirstIn (cs : List Char) (p : Predicate) : Prop :=
  isWord "contains" p.field.toList = true → isWord "contains" (takeName (skipBlanks cs)).1 = true

theorem firstIn_of_name {p : Predicate} {blanks field spaced : List Char} (hblanks : Blanks blanks)
    (hfield : IsName field) (hcut : Stops isNameChar spaced) (hp : p.field.toList = field) :
    FirstIn (blanks ++ (field ++ spaced)) p := by
  intro hcontains
  rwa [skipBlanks_append hblanks, skipBlanks_name hfield.nonempty hfield.chars,
    takeName_append hfield.chars hcut, ← hp]

theorem PredicateText.firstIn {p : Predicate} {blanks text : List Char} (h : PredicateText p text)
    (hblanks : Blanks blanks) (rest : List Char) : FirstIn (blanks ++ (text ++ rest)) p := by
  obtain ⟨spaced, -, -, hne, rfl, hfield, hcut, -⟩ := h.parts
  rw [List.append_assoc]
  exact firstIn_of_name hblanks hfield (hcut.append hne rest) rfl

/-- The texts of a predicate that may begin a text, with white space before it. -/
def PredicateIn (cs t : List Char) : Prop :=
  ∃ blanks text p, Blanks blanks ∧ PredicateText p text ∧ FirstIn cs p ∧ t = blanks ++ text

def PredicatesIn (cs t : List Char) : Prop :=
  ∃ before text after ps, Blanks before ∧ Blanks after ∧ PredicatesText ps text ∧
    (∀ p ∈ ps.head?, FirstIn cs p) ∧ t = before ++ (text ++ after)

theorem predicateIn_missing {blanks : List Char} (hblanks : Blanks blanks) (cs : List Char) :
    PredicateIn cs (blanks ++ " a= true".toList) := by
  have hname : IsName ['a'] := by decide
  refine ⟨blanks ++ [' '], _, _, List.forall_mem_append.2 ⟨hblanks, gap_space.blanks⟩,
    predicateText_true hname (List.forall_mem_nil _), ?_, ?_⟩
  · intro h
    exact absurd h (by decide)
  · simp

section Begun

variable {blanks field gap symbol after text : List Char} {o : Operator} {p : Predicate}
  (hblanks : Blanks blanks)

include hblanks

theorem predicateIn_field (hfield : IsName field) (hgap : Blanks gap)
    (hcut : Stops isNameChar (gap ++ rest)) :
    PredicateIn (blanks ++ (field ++ (gap ++ rest)))
      ((blanks ++ (field ++ gap)) ++ "= true".toList) := by
  refine ⟨blanks, _, _, hblanks, predicateText_true hfield hgap,
    firstIn_of_name hblanks hfield hcut String.toList_ofList, ?_⟩
  simp

theorem predicateIn_symbol (hfield : IsName field) (hgap : Blanks gap)
    (hcut : Stops isNameChar (gap ++ symbol)) (ho : OperatorText o symbol)
    (hafter : Blanks after) :
    PredicateIn (blanks ++ (field ++ (gap ++ (symbol ++ (after ++ rest)))))
      ((blanks ++ (field ++ (gap ++ (symbol ++ after)))) ++ " true".toList) := by
  have hgap' : Gap (after ++ [' ']) :=
    ⟨by simp, List.forall_mem_append.2 ⟨hafter, gap_space.blanks⟩⟩
  have htext := PredicateText.intro hfield hgap ho hgap'.blanks literalText_true hcut
    fun _ ↦ hgap'.ends.stops_name
  obtain ⟨c, cs, rfl, -⟩ := ho.head
  have hcut := hcut.append (by simp) (after ++ rest)
  rw [List.append_assoc] at hcut
  refine ⟨blanks, _, _, hblanks, htext,
    firstIn_of_name hblanks hfield hcut String.toList_ofList, ?_⟩
  simp

theorem predicateIn_text (h : PredicateText p text) :
    PredicateIn (blanks ++ (text ++ rest)) ((blanks ++ text) ++ []) :=
  ⟨blanks, text, p, hblanks, h, h.firstIn hblanks rest, List.append_nil _⟩

end Begun

theorem interrupts_readPredicate (h : readPredicate cs = .error f) :
    f.Interrupts (PredicateIn cs) cs := by
  have hprogress := predicateProgress cs
  rw [h] at hprogress
  cases hprogress with
  | noField hblanks hf =>
    exact hf.interrupts (predicateIn_missing hblanks _) (stops_cons.2 (by decide)) rfl
  | noOperator hblanks hfield hgap hcut hf =>
    exact hf.interrupts (predicateIn_field hblanks hfield hgap hcut) (stops_cons.2 (by decide))
      (by simp)
  | noLiteral hblanks hfield hgap hcut ho hafter hf =>
    exact hf.interrupts (predicateIn_symbol hblanks hfield hgap hcut ho hafter)
      (stops_cons.2 (by decide)) (by simp)
  | runsOn hblanks hp hf =>
    exact hf.interrupts (predicateIn_text hblanks hp) stops_nil (by simp)

theorem PredicateIn.predicatesIn {t : List Char} (h : PredicateIn cs t) : PredicatesIn cs t := by
  obtain ⟨blanks, text, p, hblanks, hp, hfirst, rfl⟩ := h
  refine ⟨blanks, text, [], [p], hblanks, List.forall_mem_nil _, .single hp, ?_, by simp⟩
  rintro p' ⟨⟩
  exact hfirst

theorem predicatesIn_single {blanks text gap : List Char} {p : Predicate} (hblanks : Blanks blanks)
    (h : PredicateText p text) (hgap : Blanks gap) :
    PredicatesIn (blanks ++ (text ++ (gap ++ rest))) ((blanks ++ (text ++ gap)) ++ []) := by
  refine ⟨blanks, text, gap, [p], hblanks, hgap, .single h, ?_, List.append_nil _⟩
  rintro p' ⟨⟩
  exact h.firstIn hblanks _

theorem interrupts_readPredicates {steps : Nat} (h : readPredicates steps cs = .error f) :
    f.Interrupts (PredicatesIn cs) cs := by
  -- a round is at fault in its predicate, after the next `and`, or at a word that is no `and`
  induction steps generalizing cs with
  | zero =>
    cases h
    have hwhole := predicateIn_missing (List.forall_mem_nil _) cs
    exact (blames_token ..).interrupts hwhole.predicatesIn (stops_cons.2 (by decide)) rfl
  | succ steps ih =>
    have hprogress := predicatesProgress steps cs
    generalize readPredicates (steps + 1) cs = result at h hprogress
    cases hprogress with
    | faulty hread =>
      cases h
      exact (interrupts_readPredicate hread).imp fun _ ↦ PredicateIn.predicatesIn
    | last => cases h
    | noAnd hblanks hp hgap hf =>
      cases h
      exact hf.interrupts (predicatesIn_single hblanks hp hgap) stops_nil (by simp)
    | @and blanks text gap word rest p hblanks hp hgap hword hcut =>
      have hwhole : ∀ t, (Stops isNameChar rest → Stops isNameChar t) → PredicatesIn rest t →
          PredicatesIn (blanks ++ (text ++ (gap ++ (word ++ rest))))
            ((blanks ++ (text ++ (gap ++ word))) ++ t) := by
        rintro t hcut' ⟨before, text', after, ps, hbefore, hafter, hps, -, rfl⟩
        have hgap' := gap_of_stops hbefore hps.head (hcut' hcut)
        refine ⟨blanks, _, after, _, hblanks, hafter, .and hp hgap hword hgap' hps, ?_, ?_⟩
        · rintro p' ⟨⟩
          exact hp.firstIn hblanks _
        · simp
      have hfault := (ih (of_map_error h)).append hwhole
      simpa only [List.append_assoc] using hfault

theorem interrupts_readConditions {actionType : Option String}
    (h : readConditions actionType cs = .error f) : f.Interrupts (PredicatesIn cs) cs := by
  obtain ⟨blanks, hblanks, hcs, hstops⟩ := exists_blanks cs
  rw [readConditions] at h
  split at h
  · rename_i hnil
    cases h
    rw [hnil] at hcs
    exact (blames_token ..).interrupts (predicateIn_missing hblanks cs).predicatesIn
      (stops_cons.2 (by decide)) hcs
  · have hfault := interrupts_readPredicates (of_map_error h)
    have hskip : skipBlanks (skipBlanks cs) = skipBlanks cs := skipBlanks_of_stops hstops
    have hwhole : ∀ t, (Stops isNameChar (skipBlanks cs) → Stops isNameChar t) →
        PredicatesIn (skipBlanks cs) t → PredicatesIn cs (blanks ++ t) := by
      rintro t - ⟨before, text, after, ps, hbefore, hafter, hps, hfirst, rfl⟩
      refine ⟨blanks ++ before, text, after, ps, List.forall_mem_append.2 ⟨hblanks, hbefore⟩,
        hafter, hps, fun p hp hcontains ↦ ?_, (List.append_assoc ..).symm⟩
      rw [← hskip]
      exact hfirst p hp hcontains
    have hfault := hfault.append hwhole
    rwa [← hcs] at hfault

def SpellsQuery (t : List Char) : Prop := ∃ q, Spelled q t

section Completions

variable {blanks name gap word t : List Char} (hblanks : Blanks blanks)

include hblanks

theorem spellsQuery_predicates (h : PredicatesIn cs t) : SpellsQuery (blanks ++ t) := by
  obtain ⟨before, text, after, ps, hbefore, hafter, hps, -, rfl⟩ := h
  have hspelled := Spelled.intro (List.forall_mem_append.2 ⟨hblanks, hbefore⟩) hafter
    (.predicates hps)
  exact ⟨_, by simpa only [List.append_assoc] using hspelled⟩

theorem spellsQuery_where (hwhere : isWord "where" name = true) (ht : Stops isNameChar t)
    (h : PredicatesIn cs t) : SpellsQuery ((blanks ++ name) ++ t) := by
  obtain ⟨before, text, after, ps, hbefore, hafter, hps, -, rfl⟩ := h
  have hgap := gap_of_stops hbefore hps.head ht
  have hspelled := Spelled.intro hblanks hafter (.wherePredicates hwhere hgap hps)
  exact ⟨_, by simpa only [List.append_assoc] using hspelled⟩

theorem spellsQuery_typedWhere (hname : IsName name) (hgap : Gap gap)
    (hwhere : isWord "where" word = true) (ht : Stops isNameChar t) (h : PredicatesIn cs t) :
    SpellsQuery ((blanks ++ (name ++ (gap ++ word))) ++ t) := by
  obtain ⟨before, text, after, ps, hbefore, hafter, hps, -, rfl⟩ := h
  have hgap' := gap_of_stops hbefore hps.head ht
  have hspelled := Spelled.intro hblanks hafter (.typedWhere hname hgap hwhere hgap' hps)
  exact ⟨_, by simpa only [List.append_assoc] using hspelled⟩

theorem spellsQuery_typed (hname : IsName name) (hgap : Blanks gap)
    (ht : Stops isNameChar (gap ++ t))
    (hop : isWord "contains" (takeName (skipBlanks cs)).1 = false) (h : PredicatesIn cs t) :
    SpellsQuery ((blanks ++ (name ++ gap)) ++ t) := by
  obtain ⟨before, text, after, ps, hbefore, hafter, hps, hfirst, rfl⟩ := h
  rw [← List.append_assoc] at ht
  have hgap' := gap_of_stops (List.forall_mem_append.2 ⟨hgap, hbefore⟩) hps.head ht
  have hfield : ∀ p ∈ ps.head?, isWord "contains" p.field.toList = false := by
    intro p hp
    refine Bool.eq_false_iff.2 fun hcontains ↦ ?_
    rw [hfirst p hp hcontains] at hop
    cases hop
  have hspelled := Spelled.intro hblanks hafter (.typed hname hgap' hps hfield)
  exact ⟨_, by simpa only [List.append_assoc] using hspelled⟩

end Completions

theorem interrupts_readList (h : readList cs = .error f) : f.Interrupts SpellsQuery cs := by
  have hprogress := queryProgress cs
  generalize readList cs = result at h hprogress
  cases hprogress with
  | empty => cases h
  | noQuery hblanks hf =>
    cases h
    exact hf.interrupts ⟨_, .intro hblanks (List.forall_mem_nil _) .empty⟩ stops_nil rfl
  | predicates hblanks =>
    exact (interrupts_readConditions h).append fun t _ ↦ spellsQuery_predicates hblanks
  | wherePredicates hblanks hword hcut =>
    have hfault := (interrupts_readConditions h).append
      fun t ht ↦ spellsQuery_where hblanks hword (ht hcut)
    simpa only [List.append_assoc] using hfault
  | type => cases h
  | @typed blanks t gap rest hblanks ht hgap hcut hstops hfirst =>
    rw [← skipBlanks_of_stops hstops] at hfirst
    have hcut' : ∀ t, (Stops isNameChar rest → Stops isNameChar t) →
        Stops isNameChar (gap ++ t) := by
      intro t hnext
      cases gap with
      | nil => exact hnext hcut
      | cons c gap => exact stops_cons.2 (stops_cons.1 hcut)
    have hfault := (interrupts_readConditions h).append
      fun t hnext ↦ spellsQuery_typed hblanks ht hgap (hcut' t hnext) hfirst
    simpa only [List.append_assoc] using hfault
  | typedWhere hblanks ht hgap hword hcut =>
    have hfault := (interrupts_readConditions h).append
      fun t hlater ↦ spellsQuery_typedWhere hblanks ht hgap hword (hlater hcut)
    simpa only [List.append_assoc] using hfault

theorem utf8Size_append (cs ds : List Char) : utf8Size (cs ++ ds) = utf8Size cs + utf8Size ds := by
  simp [utf8Size]

theorem charactersBefore_append (before rest : List Char) :
    Report.charactersBefore? (utf8Size before) (before ++ rest) = some before.length := by
  induction before with
  | nil => exact Report.charactersBefore?.eq_1 rest
  | cons c before ih =>
    have hpos := c.utf8Size_pos
    have hsize : utf8Size (c :: before) = c.utf8Size + utf8Size before := utf8Size_append [c] before
    rw [List.cons_append, Report.charactersBefore?, hsize, if_neg (by omega),
      Nat.add_sub_cancel_left, ih]
    · rfl
    · intro hzero
      omega

theorem locate_append (before : List Char) (f : Failure) :
    (f.locate (before ++ f.rest)).position = utf8Size before := by
  rw [Failure.locate, utf8Size_append, Nat.add_sub_cancel]

theorem token_locate (htoken : f.rest ≠ [] → 0 < f.tokenLength) (cs : List Char) :
    f.rest = [] ∧ (f.locate cs).token = endOfQuery ∨
      (f.locate cs).token ≠ "" ∧ (f.locate cs).token.toList <+: f.rest := by
  by_cases hrest : f.rest = []
  · exact .inl ⟨hrest, if_pos hrest⟩
  · have heq : (f.locate cs).token = String.ofList (f.rest.take f.tokenLength) := if_neg hrest
    have hne : f.rest.take f.tokenLength ≠ [] := by
      intro hnil
      rcases List.take_eq_nil_iff.1 hnil with hzero | hnil
      · exact absurd (htoken hrest) (by omega)
      · exact hrest hnil
    rw [heq, String.toList_ofList]
    refine .inr ⟨fun hempty ↦ hne ?_, List.take_prefix ..⟩
    rw [← String.toList_ofList (l := f.rest.take f.tokenLength), hempty]
    rfl

/-- The place of a fault is a boundary between characters, where the blamed token stands; what comes
before it begins some query that can be read, and the caret is put under the token. -/
theorem read_error {text : String} {e : SyntaxError} (h : read text = .error e) :
    ∃ before rest, text.toList = before ++ rest ∧ e.position = utf8Size before ∧
      e.position ≤ utf8Size text.toList ∧
      (rest = [] ∧ e.position = utf8Size text.toList ∧ e.token = endOfQuery ∨
        e.token ≠ "" ∧ e.token.toList <+: rest) ∧
      (∃ more q, read (String.ofList (before ++ more)) = .ok q) ∧
      Report.charactersBefore? e.position text.toList = some before.length ∧
      Report.ofSyntaxError text e = [Report.styled .error "error",
        Report.plain s!": {e.message}\n", Report.plain s!"  {text}\n",
        Report.styled .caret
          ("  " ++ String.ofList (List.replicate before.length ' ') ++ "^\n")] := by
  obtain ⟨f, hf, rfl⟩ := exists_of_mapError h
  obtain ⟨htoken, before, more, hcs, -, q, hq⟩ := interrupts_readList hf
  have hposition := locate_append before f
  have hcharacters := charactersBefore_append before f.rest
  rw [← hcs] at hposition hcharacters
  rw [← hposition] at hcharacters
  have hsize := congrArg utf8Size hcs
  rw [utf8Size_append, ← hposition] at hsize
  refine ⟨before, f.rest, hcs, hposition, by omega, ?_, ⟨more, q, ?_⟩, hcharacters, ?_⟩
  · refine (token_locate htoken text.toList).imp_left fun hend ↦ ⟨hend.1, ?_, hend.2⟩
    rw [hsize, hend.1]
    rfl
  · exact ((read_eq_ok _).1 q).2 (by rwa [String.toList_ofList])
  · have hindent : Report.padLeft before.length "" =
        String.ofList (List.replicate before.length ' ') := by simp [Report.padLeft]
    rw [Report.ofSyntaxError, Report.ofQueryFault, hcharacters, Option.getD_some, hindent]
    rfl

theorem read_error_multibyte : ∃ e before rest,
    read "Öl where größe > 12cm" = .error e ∧ e.token = "12cm" ∧ e.position = 20 ∧
      "Öl where größe > 12cm".toList = before ++ rest ∧ e.token.toList <+: rest ∧
      ∃ more q, read (String.ofList (before ++ more)) = .ok q := by
  have h : read "Öl where größe > 12cm" = .error ⟨"12cm", 20, .invalidNumber⟩ := by
    decide +kernel
  obtain ⟨before, rest, htext, -, -, htoken | htoken, hmore, -⟩ := read_error h
  · exact absurd htoken.2.2 (by decide)
  · exact ⟨_, before, rest, h, rfl, rfl, htext, htoken.2, hmore⟩

end ActionCatalog.Query
