import ActionCatalog.Proofs.Decimal.Grammar
import ActionCatalog.Proofs.Outcomes
import ActionCatalog.Proofs.Query.Names

namespace ActionCatalog.Query

open Text

def Blanks (cs : List Char) : Prop := ∀ c ∈ cs, isBlank c = true

/-- White space that has to be there. -/
structure Gap (cs : List Char) : Prop where
  nonempty : cs ≠ []
  blanks : Blanks cs

/-- Between quotes a backslash makes the next character stand for itself. -/
inductive Quoted (quote : Char) : List Char → List Char → Prop
  | nil : Quoted quote [] []
  | plain {c : Char} {s cs : List Char} (hquote : c ≠ quote) (hbackslash : c ≠ '\\')
    (h : Quoted quote s cs) : Quoted quote (c :: s) (c :: cs)
  | escaped (c : Char) {s cs : List Char} (h : Quoted quote s cs) :
    Quoted quote (c :: s) ('\\' :: c :: cs)

inductive LiteralText : Literal → List Char → Prop
  | flag {b : Bool} {word : List Char} (h : isWord (toString b) word = true) :
    LiteralText (.flag b) word
  | text {quote : Char} {s cs : List Char} (hquote : quote = '\'' ∨ quote = '"')
    (h : Quoted quote s cs) : LiteralText (.text (String.ofList s)) (quote :: (cs ++ [quote]))
  | number {x : Binary64} {cs : List Char} (h : Decimal.Written x cs) : LiteralText (.number x) cs

inductive OperatorText : Operator → List Char → Prop
  | symbol {o : Operator} (ho : o ≠ .contains) : OperatorText o o.symbol
  | single : OperatorText .equal ['=']
  | word {word : List Char} (h : isWord "contains" word = true) : OperatorText .contains word

/-- A field, an operator and a literal, with white space between them where it is needed. -/
inductive PredicateText : Predicate → List Char → Prop
  | intro {field before symbol after literal : List Char} {o : Operator} {l : Literal}
    (hfield : IsName field) (hbefore : Blanks before) (ho : OperatorText o symbol)
    (hafter : Blanks after) (hl : LiteralText l literal)
    (hcut : Stops isNameChar (before ++ symbol))
    (hword : o = .contains → Stops isNameChar (after ++ literal)) :
    PredicateText ⟨String.ofList field, o, l⟩ (field ++ (before ++ (symbol ++ (after ++ literal))))

inductive PredicatesText : List Predicate → List Char → Prop
  | single {p : Predicate} {cs : List Char} (h : PredicateText p cs) : PredicatesText [p] cs
  | and {p : Predicate} {ps : List Predicate} {cs before word after ds : List Char}
    (h : PredicateText p cs) (hbefore : Gap before) (hword : isWord "and" word = true)
    (hafter : Gap after) (hs : PredicatesText ps ds) :
    PredicatesText (p :: ps) (cs ++ (before ++ (word ++ (after ++ ds))))

/-- A query without white space around it. After an action type and no `where`, the first field is
not `contains`. -/
inductive BodyText : Query → List Char → Prop
  | empty : BodyText ⟨none, []⟩ []
  | type {t : List Char} (ht : IsName t) : BodyText ⟨some (String.ofList t), []⟩ t
  | predicates {ps : List Predicate} {cs : List Char} (h : PredicatesText ps cs) :
    BodyText ⟨none, ps⟩ cs
  | wherePredicates {ps : List Predicate} {word gap cs : List Char}
    (hword : isWord "where" word = true) (hgap : Gap gap) (h : PredicatesText ps cs) :
    BodyText ⟨none, ps⟩ (word ++ (gap ++ cs))
  | typed {t gap cs : List Char} {ps : List Predicate} (ht : IsName t) (hgap : Gap gap)
    (h : PredicatesText ps cs)
    (hfirst : ∀ p ∈ ps.head?, isWord "contains" p.field.toList = false) :
    BodyText ⟨some (String.ofList t), ps⟩ (t ++ (gap ++ cs))
  | typedWhere {t before word after cs : List Char} {ps : List Predicate} (ht : IsName t)
    (hbefore : Gap before) (hword : isWord "where" word = true) (hafter : Gap after)
    (h : PredicatesText ps cs) :
    BodyText ⟨some (String.ofList t), ps⟩ (t ++ (before ++ (word ++ (after ++ cs))))

/-- The texts of a query, with any white space around. -/
inductive Spelled (q : Query) : List Char → Prop
  | intro {before cs after : List Char} (hbefore : Blanks before) (hafter : Blanks after)
    (h : BodyText q cs) : Spelled q (before ++ (cs ++ after))

variable {name word cs rest : List Char} {c : Char}

def Ends (rest : List Char) : Prop := Stops (fun c ↦ !isBlank c) rest

theorem Ends.stops {p : Char → Bool} (h : Ends rest) (hp : ∀ c, isBlank c = true → p c = false) :
    Stops p rest := fun c hc ↦ hp c (by simpa using h c hc)

theorem not_isNameChar (h : isBlank c = true) : isNameChar c = false := by
  by_contra hname
  rw [not_isBlank (by simpa using hname)] at h
  cases h

theorem Ends.stops_name (h : Ends rest) : Stops isNameChar rest := h.stops fun _ ↦ not_isNameChar

theorem Blanks.ends (h : Blanks cs) : Ends cs :=
  fun c hc ↦ by simpa using h c (List.mem_of_mem_head? hc)

theorem Gap.ends (h : Gap cs) : Ends (cs ++ rest) := by
  obtain ⟨c, cs, rfl⟩ := List.exists_cons_of_ne_nil h.nonempty
  exact stops_cons.2 (by rw [h.blanks c List.mem_cons_self]; rfl)

theorem gap_space : Gap [' '] := ⟨by simp, List.forall_mem_singleton.2 (by decide)⟩

theorem Blanks.eq_nil (h : Blanks cs) (hstops : Stops isBlank (cs ++ rest)) : cs = [] := by
  cases cs with
  | nil => rfl
  | cons c cs =>
    have hblank := h c List.mem_cons_self
    rw [stops_cons.1 hstops] at hblank
    cases hblank

theorem gap_of_stops {blanks : List Char} (hblanks : Blanks blanks)
    (hhead : ∃ c ds, cs = c :: ds ∧ isNameChar c = true)
    (hstops : Stops isNameChar (blanks ++ (cs ++ rest))) : Gap blanks := by
  refine ⟨?_, hblanks⟩
  rintro rfl
  obtain ⟨c, ds, rfl, hc⟩ := hhead
  rw [stops_cons.1 hstops] at hc
  cases hc

theorem gap_of_ends {blanks : List Char} (hblanks : Blanks blanks) (hne : rest ≠ [])
    (hstops : Stops isBlank rest) (hends : Ends (blanks ++ rest)) : Gap blanks := by
  refine ⟨?_, hblanks⟩
  rintro rfl
  obtain ⟨c, cs, rfl⟩ := List.exists_cons_of_ne_nil hne
  have hblank : isBlank c = true := by simpa using stops_cons.1 hends
  rw [stops_cons.1 hstops] at hblank
  cases hblank

theorem skipBlanks_append (h : Blanks cs) : skipBlanks (cs ++ rest) = skipBlanks rest :=
  List.dropWhile_append_of_pos h

theorem skipBlanks_blanks (h : Blanks cs) : skipBlanks cs = [] := by
  rw [← List.append_nil cs, skipBlanks_append h]
  rfl

theorem exists_blanks (cs : List Char) :
    ∃ b, Blanks b ∧ cs = b ++ skipBlanks cs ∧ Stops isBlank (skipBlanks cs) :=
  ⟨_, forall_mem_takeWhile _ cs, List.takeWhile_append_dropWhile.symm, stops_dropWhile _ cs⟩

theorem takeName_eq (h : takeName cs = (name, rest)) :
    cs = name ++ rest ∧ (∀ c ∈ name, isNameChar c = true) ∧ Stops isNameChar rest := by
  obtain ⟨rfl, rfl⟩ := Prod.mk.inj h
  exact ⟨List.takeWhile_append_dropWhile.symm, forall_mem_takeWhile _ cs, stops_dropWhile _ cs⟩

theorem isAlpha_of_toLower (h : c.toLower.isAlpha = true) : c.isAlpha = true := by
  unfold Char.toLower at h
  split at h
  · rename_i hupper
    exact Bool.or_eq_true_iff.2 (.inl (decide_eq_true hupper))
  · exact h

theorem map_toLower_of_isWord {w : String} (h : isWord w word = true) :
    word.map Char.toLower = w.toList.map Char.toLower := by
  simpa [isWord, sameWord] using h

theorem isWord_eq {w : String} (h : isWord w word = true) (w' : String) :
    isWord w' word = sameWord w.toList w'.toList := by
  rw [isWord, sameWord, map_toLower_of_isWord h]
  rfl

theorem isAlpha_of_isWord {w : String} (hw : (w.toList.map Char.toLower).all Char.isAlpha = true)
    (h : isWord w word = true) : ∀ c ∈ word, c.isAlpha = true := by
  intro c hc
  have hlower : c.toLower ∈ w.toList.map Char.toLower :=
    map_toLower_of_isWord h ▸ List.mem_map_of_mem hc
  exact isAlpha_of_toLower (List.all_eq_true.1 hw _ hlower)

theorem isNameChar_alpha (h : c.isAlpha = true) : isNameChar c = true := by
  simp [isNameChar, isAlphanumeric, Char.isAlphanum, h]

theorem isNameChar_digit (h : c.isDigit = true) : isNameChar c = true := by
  simp [isNameChar, isAlphanumeric, Char.isAlphanum, h]

theorem name_of_isWord {w : String}
    (hw : w.toList ≠ [] ∧ (w.toList.map Char.toLower).all Char.isAlpha = true)
    (h : isWord w word = true) : word ≠ [] ∧ ∀ c ∈ word, isNameChar c = true := by
  refine ⟨?_, fun c hc ↦ isNameChar_alpha (isAlpha_of_isWord hw.2 h c hc)⟩
  rintro rfl
  exact hw.1 (List.map_eq_nil_iff.1 (map_toLower_of_isWord h).symm)

theorem isDigit_of_isAlpha (h : c.isAlpha = true) : c.isDigit = false := by
  have h : (decide (c.val ≥ 'A'.val ∧ c.val ≤ 'Z'.val) ||
      (decide (c.val ≥ 'a'.val) && decide (c.val ≤ 'z'.val))) = true := h
  simp only [Bool.or_eq_true, Bool.and_eq_true, decide_eq_true_eq, ge_iff_le,
    UInt32.le_iff_toNat_le] at h
  simp only [Char.isDigit, Bool.and_eq_false_iff, decide_eq_false_iff_not, ge_iff_le,
    UInt32.le_iff_toNat_le]
  grind

end ActionCatalog.Query
