import ActionCatalog.Proofs.Binary64.PlainText
import ActionCatalog.Proofs.Query.Acceptance

namespace ActionCatalog.Query

open Text

/-- Every name is one that can stand at its place in a text. -/
structure WellFormed (q : Query) : Prop where
  actionType : ∀ t ∈ q.actionType, IsName t.toList
  fields : ∀ p ∈ q.predicates, IsName p.field.toList

variable {cs : List Char} {p : Predicate} {ps : List Predicate} {q : Query}

theorem PredicateText.isName (h : PredicateText p cs) : IsName p.field.toList := by
  obtain ⟨-, -, -, -, -, hfield, -⟩ := h.parts
  exact hfield

theorem PredicatesText.isName (h : PredicatesText ps cs) : ∀ p ∈ ps, IsName p.field.toList := by
  induction h with
  | single h => exact List.forall_mem_singleton.2 h.isName
  | and h hbefore hword hafter hs ih => exact List.forall_mem_cons.2 ⟨h.isName, ih⟩

theorem BodyText.wellFormed (h : BodyText q cs) : q.WellFormed := by
  have htype {t : List Char} (ht : IsName t) : ∀ t' ∈ some (String.ofList t), IsName t'.toList := by
    rintro t' ⟨⟩
    rwa [String.toList_ofList]
  have hnone : ∀ t ∈ (none : Option String), IsName t.toList := by simp
  cases h with
  | empty => exact ⟨hnone, List.forall_mem_nil _⟩
  | type ht => exact ⟨htype ht, List.forall_mem_nil _⟩
  | predicates h => exact ⟨hnone, h.isName⟩
  | wherePredicates hword hgap h => exact ⟨hnone, h.isName⟩
  | typed ht hgap h hfirst => exact ⟨htype ht, h.isName⟩
  | typedWhere ht hbefore hword hafter h => exact ⟨htype ht, h.isName⟩

theorem quoted_escape (s : List Char) : Quoted '\'' s (s.flatMap escapeQuoted) := by
  induction s with
  | nil => exact .nil
  | cons c cs ih =>
    rw [List.flatMap_cons]
    by_cases h : c = '\'' ∨ c = '\\'
    · rw [escapeQuoted, if_pos h]
      exact .escaped c ih
    · obtain ⟨hquote, hbackslash⟩ := not_or.1 h
      rw [escapeQuoted, if_neg h]
      exact .plain hquote hbackslash ih

theorem literalText_spell (l : Literal) : LiteralText l l.spell := by
  cases l with
  | number x => exact .number (Decimal.readFinite_eq_some.1 x.readFinite_spell_plain)
  | text s =>
    have htext := LiteralText.text (.inl rfl) (quoted_escape s.toList)
    rwa [String.ofList_toList] at htext
  | flag b => exact .flag (by cases b <;> decide)

theorem operatorText_symbol (o : Operator) : OperatorText o o.symbol := by
  by_cases h : o = .contains
  · subst h
    exact .word rfl
  · exact .symbol h

theorem predicateText_spell (hp : IsName p.field.toList) : PredicateText p p.spell := by
  have htext := PredicateText.intro hp gap_space.blanks (operatorText_symbol p.operator)
    gap_space.blanks (literalText_spell p.literal) gap_space.ends.stops_name
    fun _ ↦ gap_space.ends.stops_name
  simpa [Predicate.spell] using htext

def spellFurther (ps : List Predicate) : List Char := ps.flatMap fun p ↦ " and ".toList ++ p.spell

theorem spellFurther_cons (p : Predicate) (ps : List Predicate) :
    spellFurther (p :: ps) =
      [' '] ++ ("and".toList ++ ([' '] ++ (p.spell ++ spellFurther ps))) := by
  simp [spellFurther]

theorem spellPredicates_cons (p : Predicate) (ps : List Predicate) :
    spellPredicates (p :: ps) = "where".toList ++ ([' '] ++ (p.spell ++ spellFurther ps)) := by
  change ("where".toList ++ [' ']) ++ p.spell ++ spellFurther ps = _
  simp only [List.append_assoc]

theorem predicatesText_spell (hps : ∀ p' ∈ p :: ps, IsName p'.field.toList) :
    PredicatesText (p :: ps) (p.spell ++ spellFurther ps) := by
  induction ps generalizing p with
  | nil =>
    have htext := PredicatesText.single (predicateText_spell (hps p List.mem_cons_self))
    simpa [spellFurther] using htext
  | cons p' ps ih =>
    obtain ⟨hp, hps⟩ := List.forall_mem_cons.1 hps
    rw [spellFurther_cons]
    exact .and (predicateText_spell hp) gap_space (by decide) gap_space (ih hps)

theorem bodyText_spell (h : q.WellFormed) : BodyText q q.spell := by
  obtain ⟨actionType, ps⟩ := q
  cases actionType with
  | none =>
    cases ps with
    | nil => exact .empty
    | cons p ps =>
      change BodyText _ (spellPredicates (p :: ps))
      rw [spellPredicates_cons]
      exact .wherePredicates (by decide) gap_space (predicatesText_spell h.fields)
  | some t =>
    have ht := h.actionType t rfl
    cases ps with
    | nil =>
      have htext := BodyText.type ht
      rwa [String.ofList_toList] at htext
    | cons p ps =>
      change BodyText _ (t.toList ++ ([' '] ++ spellPredicates (p :: ps)))
      have htext := BodyText.typedWhere ht gap_space (by decide : isWord "where" "where".toList)
        gap_space (predicatesText_spell h.fields)
      rwa [String.ofList_toList, ← spellPredicates_cons] at htext

theorem read_text (h : q.WellFormed) : read q.text = .ok q := by
  have hspelled := Spelled.intro (List.forall_mem_nil _) (List.forall_mem_nil _) (bodyText_spell h)
  rw [List.nil_append, List.append_nil] at hspelled
  rw [read, mapError_eq_ok, text, String.toList_ofList]
  exact readList_of_spelled hspelled

theorem Spelled.wellFormed (h : Spelled q cs) : q.WellFormed := by
  obtain ⟨-, -, hbody⟩ := h
  exact hbody.wellFormed

theorem wellFormed_of_read {text : String} (h : read text = .ok q) : q.WellFormed :=
  (spelled_of_readList (mapError_eq_ok.1 h)).wellFormed

theorem text_injective {q q' : Query} (h : q.WellFormed) (h' : q'.WellFormed)
    (ht : q.text = q'.text) : q = q' :=
  Except.ok.inj ((read_text h).symm.trans (ht ▸ read_text h'))

/-- What is read is well-formed, a well-formed query is read back from its canonical text, and
texts have the same canonical text exactly if they are read as the same query. -/
theorem canonical_text :
    (∀ text q, read text = .ok q → q.WellFormed) ∧
      (∀ q : Query, q.WellFormed → read q.text = .ok q) ∧
      ∀ t t' q q', read t = .ok q → read t' = .ok q' → (q.text = q'.text ↔ q = q') :=
  ⟨fun _ _ ↦ wellFormed_of_read, fun _ ↦ read_text, fun _ _ _ _ h h' ↦
    ⟨text_injective (wellFormed_of_read h) (wellFormed_of_read h'), congrArg text⟩⟩

/-- Two spellings of one query, with blanks, quotes and a number written differently. -/
theorem canonical_text_quoted : ∃ q q',
    read "Click where $.wait >= 2.5 and title == 'it\\'s'" = .ok q ∧
      read "Click $.wait>=0.25e1 AND title=\"it's\"" = .ok q' ∧
      q.WellFormed ∧ read q.text = .ok q ∧ q.text = q'.text := by
  let q : Query := ⟨some "Click", [⟨"$.wait", .greaterEqual, .number ⟨false, 5 * 2 ^ 50, 1023, by
    decide⟩⟩, ⟨"title", .equal, .text "it's"⟩]⟩
  have h : read "Click where $.wait >= 2.5 and title == 'it\\'s'" = .ok q :=
    toOption_eq_some.1 (by decide +kernel)
  have h' : read "Click $.wait>=0.25e1 AND title=\"it's\"" = .ok q :=
    toOption_eq_some.1 (by decide +kernel)
  have hq : q.WellFormed := canonical_text.1 _ q h
  exact ⟨q, q, h, h', hq, canonical_text.2.1 q hq, (canonical_text.2.2 _ _ q q h h').2 rfl⟩

end ActionCatalog.Query
