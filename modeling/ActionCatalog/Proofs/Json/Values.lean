import ActionCatalog.Proofs.Json.Numbers
import ActionCatalog.Proofs.Keyed

namespace ActionCatalog.Json

namespace Value

mutual

/-- What reading the text of a value gives. -/
def reread? : Value → Option Value
  | number n => n.reread?.map number
  | array items => (rereadItems? items).map array
  | object members => (rereadMembers? members).map object
  | v => some v

def rereadItems? : List Value → Option (List Value)
  | [] => some []
  | v :: vs => do return (← v.reread?) :: (← rereadItems? vs)

def rereadMembers? : List (String × Value) → Option (List (String × Value))
  | [] => some []
  | (k, v) :: rest => do return (k, ← v.reread?) :: (← rereadMembers? rest)

end

/-- Arrays and objects nested at most so deep, all objects in the order of their names. -/
inductive Nested : Nat → Value → Prop
  | scalar {depth : Nat} (s : Scalar) : Nested depth s.toValue
  | array {depth : Nat} {items : List Value} (h : ∀ v ∈ items, Nested depth v) :
    Nested (depth + 1) (.array items)
  | object {depth : Nat} {members : List (String × Value)} (hs : Keyed.Sorted members)
    (h : ∀ m ∈ members, Nested depth m.2) : Nested (depth + 1) (.object members)

theorem Nested.mono {depth depth' : Nat} {v : Value} (h : Nested depth v) (hle : depth ≤ depth') :
    Nested depth' v := by
  induction h generalizing depth' with
  | scalar s => exact .scalar s
  | array h ih =>
    obtain ⟨outer, rfl⟩ := Nat.exists_eq_add_of_le' hle
    exact .array fun v hv ↦ ih v hv (Nat.le_add_left _ _)
  | object hs h ih =>
    obtain ⟨outer, rfl⟩ := Nat.exists_eq_add_of_le' hle
    exact .object hs fun m hm ↦ ih m hm (Nat.le_add_left _ _)

theorem rereadItems_eq (vs : List Value) : rereadItems? vs = vs.mapM reread? := by
  induction vs with
  | nil => rfl
  | cons v vs ih => rw [rereadItems?, List.mapM_cons, ih]

theorem names_rereadMembers {members ms : List (String × Value)}
    (h : rereadMembers? members = some ms) : ms.map Prod.fst = members.map Prod.fst := by
  induction members generalizing ms with
  | nil =>
    obtain rfl := Option.some.inj h
    rfl
  | cons m members ih =>
    obtain ⟨v, -, h⟩ := Option.bind_eq_some_iff.1 h
    obtain ⟨rest, hrest, h⟩ := Option.bind_eq_some_iff.1 h
    obtain rfl := Option.some.inj h
    rw [List.map_cons, List.map_cons, ih hrest]

theorem sorted_rereadMembers {members ms : List (String × Value)}
    (h : rereadMembers? members = some ms) (hs : Keyed.Sorted members) : Keyed.Sorted ms := by
  have hnames := List.pairwise_map.2 hs
  rw [← names_rereadMembers h] at hnames
  exact List.pairwise_map.1 hnames

mutual

/-- The binary64 numbers of a value from left to right. -/
def doubles : Value → List Binary64
  | number (.double x) => [x]
  | array items => doublesItems items
  | object members => doublesMembers members
  | _ => []

def doublesItems : List Value → List Binary64
  | [] => []
  | v :: vs => v.doubles ++ doublesItems vs

def doublesMembers : List (String × Value) → List Binary64
  | [] => []
  | (_, v) :: rest => v.doubles ++ doublesMembers rest

end

mutual

/-- The text of a value reads back to it if that of each of its binary64 numbers does. -/
theorem reread_eq_self : (v : Value) →
    (v.reread? = some v ↔ ∀ x ∈ v.doubles, x.reread? = some x)
  | null | bool _ | string _ | number (.integer _ _) => ⟨fun _ ↦ nofun, fun _ ↦ rfl⟩
  | number (.double x) => by
    rw [reread?, Number.reread?, doubles, List.forall_mem_singleton]
    cases x.reread? <;> simp
  | array items => by
    rw [reread?, doubles, ← rereadItems_eq_self items]
    cases rereadItems? items <;> simp
  | object members => by
    rw [reread?, doubles, ← rereadMembers_eq_self members]
    cases rereadMembers? members <;> simp

theorem rereadItems_eq_self : (vs : List Value) →
    (rereadItems? vs = some vs ↔ ∀ x ∈ doublesItems vs, x.reread? = some x)
  | [] => ⟨fun _ ↦ nofun, fun _ ↦ rfl⟩
  | v :: vs => by
    rw [rereadItems?, doublesItems, List.forall_mem_append, ← reread_eq_self v,
      ← rereadItems_eq_self vs]
    cases v.reread? <;> cases rereadItems? vs <;> simp

theorem rereadMembers_eq_self : (members : List (String × Value)) →
    (rereadMembers? members = some members ↔ ∀ x ∈ doublesMembers members, x.reread? = some x)
  | [] => ⟨fun _ ↦ nofun, fun _ ↦ rfl⟩
  | (k, v) :: rest => by
    rw [rereadMembers?, doublesMembers, List.forall_mem_append, ← reread_eq_self v,
      ← rereadMembers_eq_self rest]
    cases v.reread? <;> cases rereadMembers? rest <;> simp

end

end Value

variable {α β : Type} {v : Value} {vs : List Value} {rest : Source} {steps depth : Nat}

/-- The first byte of a value: no blank, nothing that ends one, and a bracket or a brace only for
an array or an object. -/
def Starts (src : Source) : Prop :=
  ∃ b rest, src = b :: rest ∧ isSpace b = false ∧ b ≠ byte ']' ∧ b ≠ byte '\x7d'

theorem skipSpace_of_not {b : UInt8} (h : isSpace b = false) (rest : Source) :
    skipSpace (b :: rest) = b :: rest :=
  List.dropWhile_cons_of_neg (Bool.eq_false_iff.1 h)

def joined (first : Bool) (text : β → Source) : List β → Source
  | [] => []
  | b :: bs => (if first then text b else byte ',' :: text b) ++ joined false text bs

def memberBytes (m : String × Value) : Source :=
  bytesOf (writeString m.1) ++ byte ':' :: bytesOf m.2.compact

def nameBytes (name : String) : Source := bytesOf (name.toList.flatMap escapeChar)

theorem memberBytes_append (m : String × Value) (rest : Source) : memberBytes m ++ rest =
    byte '"' :: (nameBytes m.1 ++ byte '"' :: byte ':' :: (bytesOf m.2.compact ++ rest)) := by
  simp only [memberBytes, nameBytes, bytesOf_writeString, List.append_assoc, List.cons_append,
    List.nil_append]

theorem joined_first (text : β → Source) (b : β) (bs : List β) :
    joined true text (b :: bs) = text b ++ joined false text bs := rfl

theorem joined_further (text : β → Source) (b : β) (bs : List β) :
    joined false text (b :: bs) = byte ',' :: (text b ++ joined false text bs) := rfl

theorem bytesOf_compactItems (vs : List Value) :
    bytesOf (Value.compactItems vs) = joined true (fun v ↦ bytesOf v.compact) vs := by
  cases vs with
  | nil => rfl
  | cons v vs =>
    induction vs generalizing v with
    | nil => exact (List.append_nil _).symm
    | cons w vs ih =>
      rw [Value.compactItems, bytesOf_append, bytesOf_ascii (by decide), ih]
      · rfl
      · exact List.cons_ne_nil w vs

theorem bytesOf_compactMembers (members : List (String × Value)) :
    bytesOf (Value.compactMembers members) = joined true memberBytes members := by
  cases members with
  | nil => rfl
  | cons m members =>
    induction members generalizing m with
    | nil =>
      rw [Value.compactMembers, bytesOf_append, bytesOf_ascii (by decide)]
      exact (List.append_nil _).symm
    | cons m' members ih =>
      rw [Value.compactMembers, bytesOf_append, bytesOf_append, bytesOf_ascii (by decide),
        bytesOf_ascii (by decide), ih, joined_first, joined_first, joined_further]
      · simp only [memberBytes, List.append_assoc, List.cons_append]
      · exact List.cons_ne_nil m' members

theorem ends_cons {b : UInt8} (h : b = byte ',' ∨ b = byte ']' ∨ b = byte '\x7d') :
    Ends (b :: rest) := by
  intro c hc
  obtain rfl := Option.some.inj hc
  exact h

theorem ends_joined (text : β → Source) (bs : List β) (h : Ends rest) :
    Ends (joined false text bs ++ rest) := by
  cases bs with
  | nil => exact h
  | cons b bs => exact ends_cons (.inl rfl)

section Items

variable {item : Scanner α} {text : β → Source} {reread? : β → Option α} {bs : List β}

theorem nextItem_joined (text : β → Source) {b : β} (h : Starts (text b)) (first : Bool) :
    nextItem first (joined first text (b :: bs) ++ rest) =
      .ok (true, text b ++ (joined false text bs ++ rest)) := by
  obtain ⟨c, src, htext, hspace, hbracket, -⟩ := h
  cases first with
  | true =>
    rw [joined_first, List.append_assoc, htext, List.cons_append, nextItem,
      skipSpace_of_not hspace]
    dsimp only
    rw [if_neg hbracket, if_pos rfl]
  | false =>
    rw [joined_further, List.cons_append, List.append_assoc, htext, List.cons_append, nextItem,
      skipSpace_of_not rfl]
    dsimp only
    rw [if_neg (by decide), if_neg Bool.false_ne_true, if_pos rfl, skipSpace_of_not hspace]
    dsimp only
    rw [if_neg hbracket]

/-- Items that are each read back are read back as a list. -/
theorem scanItems_written
    (hitem : ∀ b ∈ bs, ∀ rest, Ends rest →
      (item (text b ++ rest)).toOption = (reread? b).map fun a ↦ (a, rest))
    (hstart : ∀ b ∈ bs, Starts (text b)) (hsteps : bs.length < steps) (done : List α)
    (rest : Source) :
    (scanItems item steps done (joined done.isEmpty text bs ++ byte ']' :: rest)).toOption =
      (bs.mapM reread?).map fun as ↦ (done.reverse ++ as, rest) := by
  induction bs generalizing steps done with
  | nil =>
    obtain ⟨steps, rfl⟩ := Nat.exists_eq_add_of_lt hsteps
    rw [List.mapM_nil, Option.pure_def, Option.map_some, List.append_nil]
    rfl
  | cons b bs ih =>
    obtain ⟨steps, rfl⟩ := Nat.exists_eq_add_of_lt hsteps
    obtain ⟨hb, hbs⟩ := List.forall_mem_cons.1 hitem
    obtain ⟨hstartb, hstartbs⟩ := List.forall_mem_cons.1 hstart
    rw [scanItems, nextItem_joined text hstartb]
    change (item _ >>= fun p ↦
      scanItems item (bs.length + 1 + steps) (p.1 :: done) p.2).toOption = _
    rw [toOption_bind, hb _ (ends_joined text bs (ends_cons (.inr (.inl rfl)))), List.mapM_cons]
    cases reread? b with
    | none => rfl
    | some a =>
      refine (ih hbs hstartbs (by omega) (a :: done)).trans ?_
      cases bs.mapM reread? with
      | none => rfl
      | some as => simp

end Items

section Members

variable {item : Scanner Value} {members : List (String × Value)} {m : String × Value}

theorem nextMember_joined (first : Bool) :
    nextMember first (joined first memberBytes (m :: members) ++ rest) =
      .ok (true, nameBytes m.1 ++ byte '"' :: byte ':' ::
        (bytesOf m.2.compact ++ (joined false memberBytes members ++ rest))) := by
  cases first with
  | true =>
    rw [joined_first, List.append_assoc, memberBytes_append]
    rfl
  | false =>
    rw [joined_further, List.cons_append, List.append_assoc, memberBytes_append]
    rfl

theorem nextMember_end (first : Bool) (rest : Source) :
    nextMember first (byte '\x7d' :: rest) = .ok (false, byte '\x7d' :: rest) := rfl

theorem scanMember_written {γ : Type}
    (hitem : (item (bytesOf m.2.compact ++ rest)).toOption = m.2.reread?.map fun v ↦ (v, rest))
    (hname : (nameBytes m.1).length < steps) (next : String × Value → Source → Except Fault γ) :
    (scanString steps
        (nameBytes m.1 ++ byte '"' :: byte ':' :: (bytesOf m.2.compact ++ rest)) >>= fun p ↦
      scanColon p.2 >>= fun q ↦ item q.2 >>= fun r ↦ next (p.1, r.1) r.2).toOption =
        m.2.reread?.bind fun v ↦ (next (m.1, v) rest).toOption := by
  rw [nameBytes, scanString_written m.1 hname]
  change (item _ >>= fun r ↦ next (m.1, r.1) r.2).toOption = _
  rw [toOption_bind, hitem]
  cases m.2.reread? <;> rfl

theorem scanMembers_written {fuel : Nat}
    (hitem : ∀ m ∈ members, ∀ rest, Ends rest →
      (item (bytesOf m.2.compact ++ rest)).toOption = m.2.reread?.map fun v ↦ (v, rest))
    (hname : ∀ m ∈ members, (nameBytes m.1).length < steps) (hfuel : members.length < fuel)
    (done : List (String × Value)) (rest : Source) :
    (scanMembers (scanString steps) item fuel done
      (joined done.isEmpty memberBytes members ++ byte '\x7d' :: rest)).toOption =
        (Value.rereadMembers? members).map fun ms ↦ (done.reverse ++ ms, rest) := by
  induction members generalizing fuel done with
  | nil =>
    obtain ⟨fuel, rfl⟩ := Nat.exists_eq_add_of_lt hfuel
    rw [Value.rereadMembers?, Option.map_some, List.append_nil]
    rfl
  | cons m members ih =>
    obtain ⟨fuel, rfl⟩ := Nat.exists_eq_add_of_lt hfuel
    obtain ⟨hm, hms⟩ := List.forall_mem_cons.1 hitem
    obtain ⟨hnamem, hnames⟩ := List.forall_mem_cons.1 hname
    have hends : Ends (joined false memberBytes members ++ byte '\x7d' :: rest) :=
      ends_joined _ members (ends_cons (.inr (.inr rfl)))
    rw [scanMembers, nextMember_joined]
    refine (scanMember_written (hm _ hends) hnamem fun p src ↦
      scanMembers (scanString steps) item (members.length + 1 + fuel) (p :: done) src).trans ?_
    rw [Value.rereadMembers?]
    cases m.2.reread? with
    | none => rfl
    | some v =>
      refine (ih hms hnames (by omega) ((m.1, v) :: done)).trans ?_
      cases Value.rereadMembers? members with
      | none => rfl
      | some ms => simp

end Members

section Lengths

variable {text : β → Source} {bs : List β} {b : β}

theorem length_le_joined (h : ∀ b ∈ bs, text b ≠ []) (first : Bool) :
    bs.length ≤ (joined first text bs).length := by
  induction bs generalizing first with
  | nil => exact Nat.zero_le _
  | cons b bs ih =>
    obtain ⟨hb, hbs⟩ := List.forall_mem_cons.1 h
    have hfirst := List.length_pos_iff.2 hb
    have hrest := ih hbs false
    rw [joined, List.length_append, List.length_cons]
    split
    · omega
    · rw [List.length_cons]
      omega

theorem length_text_le (text : β → Source) (h : b ∈ bs) (first : Bool) :
    (text b).length ≤ (joined first text bs).length := by
  induction bs generalizing first with
  | nil => cases h
  | cons c bs ih =>
    rw [joined, List.length_append]
    rcases List.mem_cons.1 h with rfl | h
    · split
      · exact Nat.le_add_right _ _
      · rw [List.length_cons]
        omega
    · exact (ih h false).trans (Nat.le_add_left _ _)

end Lengths

theorem length_le_memberBytes (m : String × Value) :
    (nameBytes m.1).length + (bytesOf m.2.compact).length < (memberBytes m).length := by
  simp only [memberBytes, nameBytes, bytesOf_writeString, List.length_append, List.length_cons,
    List.length_nil]
  omega

theorem memberBytes_ne_nil (m : String × Value) : memberBytes m ≠ [] :=
  List.ne_nil_of_length_pos (Nat.zero_lt_of_lt (length_le_memberBytes m))

theorem starts_number (n : Number) : ∃ b src, bytesOf n.spell = b :: src ∧
    (b = byte '-' ∨ isDigit b = true) := by
  have hsigned {text : List Char} (negative : Bool) (h : text.head?.any Char.isDigit = true) :
      ∃ b src, bytesOf (signed negative text) = b :: src ∧ (b = byte '-' ∨ isDigit b = true) := by
    cases negative with
    | true => exact ⟨byte '-', bytesOf text, bytesOf_ascii (by decide), .inl rfl⟩
    | false =>
      cases text with
      | nil => cases h
      | cons c cs =>
        have hbounds := digit_bounds h
        exact ⟨byte c, bytesOf cs, bytesOf_ascii (by omega), .inr (isDigit_byte h)⟩
  cases n with
  | integer i fits => exact hsigned _ (Decimal.head_toDigits_isDigit _)
  | double x => exact hsigned _ (head_dataText x)

theorem starts_scalar (s : Scalar) : ∃ b src, bytesOf s.toValue.compact = b :: src ∧
    isSpace b = false ∧ (b ≠ byte '[' ∧ b ≠ byte '\x7b') ∧ b ≠ byte ']' ∧ b ≠ byte '\x7d' := by
  cases s with
  | null => exact ⟨byte 'n', _, rfl, by decide⟩
  | bool b =>
    cases b
    · exact ⟨byte 'f', _, rfl, by decide⟩
    · exact ⟨byte 't', _, rfl, by decide⟩
  | number n =>
    obtain ⟨b, src, hsrc, hb⟩ := starts_number n
    refine ⟨b, src, hsrc, ?_⟩
    rcases hb with rfl | hb
    · decide
    · have hne {d : UInt8} (hd : isDigit d = false) : b ≠ d := ne_of_isDigit hb hd
      refine ⟨?_, ⟨hne rfl, hne rfl⟩, hne rfl, hne rfl⟩
      rw [isSpace, beq_false_of_ne (hne rfl), beq_false_of_ne (hne rfl), beq_false_of_ne (hne rfl),
        beq_false_of_ne (hne rfl)]
      rfl
  | string s => exact ⟨byte '"', _, bytesOf_writeString s, by decide⟩

theorem bytesOf_array (items : List Value) : bytesOf (Value.array items).compact =
    byte '[' :: (joined true (fun v ↦ bytesOf v.compact) items ++ [byte ']']) := by
  rw [Value.compact, List.cons_append, bytesOf_ascii (by decide), bytesOf_append,
    bytesOf_compactItems]
  rfl

theorem bytesOf_object (members : List (String × Value)) :
    bytesOf (Value.object members).compact =
      byte '\x7b' :: (joined true memberBytes members ++ [byte '\x7d']) := by
  rw [Value.compact, List.cons_append, bytesOf_ascii (by decide), bytesOf_append,
    bytesOf_compactMembers]
  rfl

theorem starts_compact (v : Value) : Starts (bytesOf v.compact) := by
  have hscalar (s : Scalar) : Starts (bytesOf s.toValue.compact) := by
    obtain ⟨b, src, hsrc, hspace, -, hclosing⟩ := starts_scalar s
    exact ⟨b, src, hsrc, hspace, hclosing⟩
  cases v with
  | null => exact hscalar .null
  | bool b => exact hscalar (.bool b)
  | number n => exact hscalar (.number n)
  | string s => exact hscalar (.string s)
  | array items => exact ⟨byte '[', _, bytesOf_array items, by decide⟩
  | object members => exact ⟨byte '\x7b', _, bytesOf_object members, by decide⟩

theorem compact_ne_nil (v : Value) : bytesOf v.compact ≠ [] := by
  obtain ⟨b, src, hsrc, -⟩ := starts_compact v
  rw [hsrc]
  exact List.cons_ne_nil b src

theorem scanScalar_written {s : Scalar} (hsteps : (bytesOf s.toValue.compact).length < steps)
    (hr : Ends rest) :
    ((scanScalar steps (bytesOf s.toValue.compact ++ rest)).map fun (s, rest) ↦
      (s.toValue, rest)).toOption = s.toValue.reread?.map fun v ↦ (v, rest) := by
  cases s with
  | null => rfl
  | bool b => cases b <;> rfl
  | number n =>
    change ((scanScalar steps (bytesOf n.spell ++ rest)).map _).toOption = _
    rw [toOption_map, scanScalar_number steps n hr]
    change _ = (n.reread?.map Value.number).map _
    cases n.reread? <;> rfl
  | string s =>
    change (bytesOf (writeString s)).length < steps at hsteps
    change ((scanScalar steps (bytesOf (writeString s) ++ rest)).map _).toOption = _
    rw [bytesOf_writeString, List.length_cons, List.length_append] at hsteps
    rw [bytesOf_writeString, List.cons_append, List.append_assoc]
    have hscan := scanString_written s (show _ < steps by omega) rest
    change (((scanString steps (_ ++ byte '"' :: rest)).map _).map _).toOption = _
    rw [hscan]
    rfl

theorem scanValue_written (h : v.Nested depth) (hsteps : (bytesOf v.compact).length < steps)
    (hr : Ends rest) : (scanValue steps depth (bytesOf v.compact ++ rest)).toOption =
      v.reread?.map fun w ↦ (w, rest) := by
  -- along the nesting, so that the parts of an array or an object are read one level deeper
  induction h generalizing rest with
  | scalar s =>
    have hscan := scanScalar_written hsteps hr
    obtain ⟨b, src, hsrc, hspace, ⟨hbracket, hbrace⟩, -⟩ := starts_scalar s
    rw [hsrc, List.cons_append] at hscan ⊢
    rw [scanValue, skipSpace_of_not hspace]
    dsimp only
    rw [if_neg hbracket, if_neg hbrace, hscan]
  | @array depth items h ih =>
    rw [bytesOf_array, List.length_cons, List.length_append] at hsteps
    have hitem (v) (hv : v ∈ items) (rest) (hr : Ends rest) :
        (scanValue steps depth (bytesOf v.compact ++ rest)).toOption =
          v.reread?.map fun w ↦ (w, rest) := by
      have hle := length_text_le (fun v ↦ bytesOf v.compact) hv true
      exact ih v hv (by omega) hr
    have hlength : items.length ≤ (joined true (fun v ↦ bytesOf v.compact) items).length :=
      length_le_joined (fun v _ ↦ compact_ne_nil v) true
    rw [bytesOf_array, List.cons_append, List.append_assoc, scanValue, skipSpace_of_not rfl]
    dsimp only
    rw [if_pos rfl, toOption_map, List.singleton_append, Value.reread?, Value.rereadItems_eq]
    refine (congrArg (Option.map _) (scanItems_written hitem (fun v _ ↦ starts_compact v)
      (by omega) [] rest)).trans ?_
    cases items.mapM Value.reread? <;> rfl
  | @object depth members hs h ih =>
    rw [bytesOf_object, List.length_cons, List.length_append] at hsteps
    have hitem (m) (hm : m ∈ members) (rest) (hr : Ends rest) :
        (scanValue steps depth (bytesOf m.2.compact ++ rest)).toOption =
          m.2.reread?.map fun w ↦ (w, rest) := by
      have hle := length_text_le memberBytes hm true
      have hmember := length_le_memberBytes m
      exact ih m hm (by omega) hr
    have hname (m) (hm : m ∈ members) : (nameBytes m.1).length < steps := by
      have hle := length_text_le memberBytes hm true
      have hmember := length_le_memberBytes m
      omega
    have hlength : members.length ≤ (joined true memberBytes members).length :=
      length_le_joined (fun m _ ↦ memberBytes_ne_nil m) true
    rw [bytesOf_object, List.cons_append, List.append_assoc, scanValue, skipSpace_of_not rfl]
    dsimp only
    rw [if_neg (by decide), if_pos rfl, toOption_map, List.singleton_append, Value.reread?]
    refine (congrArg (Option.map _) (scanMembers_written hitem hname (by omega) [] rest)).trans ?_
    cases hms : Value.rereadMembers? members with
    | none => rfl
    | some ms =>
      have hsorted := Keyed.ofList_of_sorted (Value.sorted_rereadMembers hms hs)
      simp only [Option.map_some, Value.sortedObject, List.reverse_nil, List.nil_append, hsorted]

end ActionCatalog.Json
