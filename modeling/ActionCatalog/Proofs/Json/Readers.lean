import ActionCatalog.Json.Structured
import ActionCatalog.Proofs.Json.Values

namespace ActionCatalog.Json

theorem Value.ofNat_of_lt {n : Nat} (h : n < 2 ^ 64) :
    ofNat n = .number (.integer n ⟨by omega, by omega⟩) := by
  rw [ofNat, Number.ofNat?, dif_pos h]
  rfl

theorem Value.ofNat_of_not_lt {n : Nat} (h : ¬n < 2 ^ 64) : ofNat n = .null := by
  rw [ofNat, Number.ofNat?, dif_neg h]
  rfl

theorem Value.ofInt_of_fits {i : Int} (h : -2 ^ 63 ≤ i ∧ i < 2 ^ 64) :
    ofInt i = .number (.integer i h) := dif_pos h

namespace Acceptor

theorem integer_of_mem {i least bound : Int} (expected : String)
    (fits : -2 ^ 63 ≤ i ∧ i < 2 ^ 64) (h : least ≤ i ∧ i < bound) :
    integer expected least bound (.scalar (.number (.integer i fits))) = .ok i := if_pos h

theorem natural_of_lt {n bound : Nat} (expected : String)
    (fits : -2 ^ 63 ≤ (n : Int) ∧ (n : Int) < 2 ^ 64) (h : n < bound) :
    natural expected bound (.scalar (.number (.integer n fits))) = .ok n := by
  rw [natural, integer_of_mem expected fits (by omega)]
  rfl

end Acceptor

variable {α β σ : Type} {v : Value} {steps depth : Nat}

/-- What a reader makes of a written value, if anything. -/
def Gives (read : Reader α) (steps depth : Nat) (v : Value) (a? : Option α) : Prop :=
  ∀ rest, Ends rest →
    (read steps depth (bytesOf v.compact ++ rest)).toOption = a?.map fun a ↦ (a, rest)

def inWord? (n : Nat) : Option Nat := if n < 2 ^ 64 then some n else none

theorem inWord_eq_some {n k : Nat} : inWord? n = some k ↔ n < 2 ^ 64 ∧ n = k := by
  simp [inWord?]

namespace Reader

theorem gives_judging (accept : Value → Except Mismatch α) (h : v.Nested depth)
    (hsteps : (bytesOf v.compact).length < steps) :
    Gives (judging accept) steps depth v (v.reread?.bind fun w ↦ (accept w).toOption) := by
  intro rest hr
  rw [judging, toOption_bind, scanValue_written h hsteps hr]
  cases v.reread? with
  | none => rfl
  | some w =>
    rw [Option.map_some, Option.bind_some, Option.bind_some]
    dsimp only
    cases accept w <;> rfl

theorem scanScalar_exact {s : Scalar} (h : s.toValue.reread? = some s.toValue)
    (hsteps : (bytesOf s.toValue.compact).length < steps) {rest : Source} (hr : Ends rest) :
    scanScalar steps (bytesOf s.toValue.compact ++ rest) = .ok (s, rest) := by
  have hscan := scanScalar_written hsteps hr
  rw [h] at hscan
  obtain ⟨⟨s', rest'⟩, hs', heq⟩ := exists_of_map_ok (toOption_eq_some.1 hscan)
  obtain ⟨hvalue, rfl⟩ := Prod.mk.inj heq
  have hsame : s' = s := by
    cases s' <;> cases s <;> cases hvalue <;> rfl
  rw [hs', hsame]

theorem gives_accepting (accept : Acceptor α) {s : Scalar} (h : s.toValue.reread? = some s.toValue)
    (hsteps : (bytesOf s.toValue.compact).length < steps) :
    Gives (accepting accept) steps depth s.toValue (accept (.scalar s)).toOption := by
  intro rest hr
  have hscan := scanScalar_exact h hsteps hr
  obtain ⟨b, src, hsrc, hspace, ⟨hbracket, hbrace⟩, -⟩ := starts_scalar s
  rw [hsrc, List.cons_append] at hscan ⊢
  rw [accepting, skipSpace_of_not hspace]
  dsimp only
  rw [if_neg hbracket, if_neg hbrace, hscan, toOption_bind]
  change Option.bind (some (Found.scalar s, rest)) _ = _
  rw [Option.bind_some]
  cases accept (.scalar s) <;> rfl

theorem joined_map (first : Bool) (text : Value → Source) (toJson : β → Value) (bs : List β) :
    joined first text (bs.map toJson) = joined first (fun b ↦ text (toJson b)) bs := by
  induction bs generalizing first with
  | nil => rfl
  | cons b bs ih => rw [List.map_cons, joined, joined, ih]

theorem gives_list {item : Reader α} {toJson : β → Value} {reread? : β → Option α} {bs : List β}
    (hitem : ∀ b ∈ bs, (bytesOf (toJson b).compact).length < steps →
      Gives item steps depth (toJson b) (reread? b))
    (hsteps : (bytesOf (Value.array (bs.map toJson)).compact).length < steps) :
    Gives (list item) steps (depth + 1) (.array (bs.map toJson)) (bs.mapM reread?) := by
  intro rest hr
  have hlength : bs.length ≤ (joined true (fun b ↦ bytesOf (toJson b).compact) bs).length :=
    length_le_joined (fun b _ ↦ compact_ne_nil (toJson b)) true
  rw [bytesOf_array, joined_map, List.length_cons, List.length_append] at hsteps
  have hsize (b) (hb : b ∈ bs) : (bytesOf (toJson b).compact).length < steps := by
    have hle := length_text_le (fun b ↦ bytesOf (toJson b).compact) hb true
    omega
  rw [bytesOf_array, joined_map, List.cons_append, List.append_assoc, list, skipSpace_of_not rfl,
    List.head?_cons, if_pos rfl, entering, List.tail_cons, List.singleton_append]
  exact scanItems_written (fun b hb ↦ hitem b hb (hsize b hb)) (fun b _ ↦ starts_compact (toJson b))
    (by omega) [] rest

theorem gives_string (expected s : String)
    (hsteps : (bytesOf (Value.string s).compact).length < steps) :
    Gives (accepting (.string expected)) steps depth (.string s) (some s) :=
  gives_accepting (.string expected) (s := .string s) rfl hsteps

theorem gives_bool (b : Bool) (hsteps : (bytesOf (Value.bool b).compact).length < steps) :
    Gives (accepting .bool) steps depth (.bool b) (some b) :=
  gives_accepting .bool (s := .bool b) rfl hsteps

theorem gives_natural {n bound : Nat} (expected : String) (h : n < bound) (hbound : bound ≤ 2 ^ 64)
    (hsteps : (bytesOf (Value.ofNat n).compact).length < steps) :
    Gives (accepting (.natural expected bound)) steps depth (.ofNat n) (some n) := by
  rw [Value.ofNat_of_lt (h.trans_le hbound)] at hsteps ⊢
  have hgives : Gives (accepting (.natural expected bound)) steps depth _ _ :=
    gives_accepting (.natural expected bound) (s := .number (.integer n _)) rfl hsteps
  rwa [Acceptor.natural_of_lt expected _ h] at hgives

/-- A number that does not fit is not written as one. -/
theorem gives_word {n : Nat} (expected : String)
    (hsteps : (bytesOf (Value.ofNat n).compact).length < steps) :
    Gives (accepting (.natural expected (2 ^ 64))) steps depth (.ofNat n) (inWord? n) := by
  by_cases h : n < 2 ^ 64
  · rw [inWord?, if_pos h]
    exact gives_natural expected h le_rfl hsteps
  · rw [inWord?, if_neg h]
    rw [Value.ofNat_of_not_lt h] at hsteps ⊢
    exact gives_accepting (.natural expected (2 ^ 64)) (s := .null) rfl hsteps

theorem gives_pair {first : Reader α} {second : Reader β} {v w : Value} {a? : Option α}
    {b? : Option β}
    (hv : (bytesOf v.compact).length < steps → Gives first steps depth v a?)
    (hw : (bytesOf w.compact).length < steps → Gives second steps depth w b?)
    (hsteps : (bytesOf (Value.array [v, w]).compact).length < steps) :
    Gives (pair first second) steps (depth + 1) (.array [v, w])
      (a?.bind fun a ↦ b?.map fun b ↦ (a, b)) := by
  intro rest hr
  have hbracket : Ends (byte ']' :: rest) := ends_cons (.inr (.inl rfl))
  have hends := ends_joined (fun v : Value ↦ bytesOf v.compact) [w] hbracket
  have hsize (u) (hu : u ∈ [v, w]) : (bytesOf u.compact).length < steps := by
    have hle := length_text_le (fun v : Value ↦ bytesOf v.compact) hu true
    rw [bytesOf_array, List.length_cons, List.length_append] at hsteps
    omega
  rw [bytesOf_array, List.cons_append, List.append_assoc, pair, skipSpace_of_not rfl,
    List.head?_cons, if_pos rfl, entering, List.tail_cons, List.singleton_append,
    nextItem_joined (fun v : Value ↦ bytesOf v.compact) (starts_compact v)]
  change (first steps depth _ >>= fun p ↦ nextItem false p.2 >>= fun q ↦ if q.1 then
    second steps depth q.2 >>= fun r ↦ conclude (.ok (p.1, r.1)) (closeList r.2)
    else conclude (.error (.tooShort 1 "a tuple of size 2")) (closeList q.2)).toOption = _
  rw [toOption_bind, hv (hsize v (by simp)) _ hends]
  cases a? with
  | none => rfl
  | some a =>
    change (nextItem false (joined false _ [w] ++ _) >>= fun q ↦ if q.1 then
      second steps depth q.2 >>= fun r ↦ conclude (.ok (a, r.1)) (closeList r.2)
      else conclude (.error (.tooShort 1 "a tuple of size 2")) (closeList q.2)).toOption = _
    rw [nextItem_joined (fun v : Value ↦ bytesOf v.compact) (starts_compact w)]
    change (second steps depth (_ ++ byte ']' :: rest) >>= fun r ↦
      conclude (.ok (a, r.1)) (closeList r.2)).toOption = _
    rw [toOption_bind, hw (hsize w (by simp)) _ hbracket]
    cases b? <;> rfl

end Reader

/-- A member of a structure, the value written for it, and how that fills it in. -/
structure Written (σ : Type) where
  member : Member σ
  value : Value
  put? : Option (σ → σ)

namespace Written

def entry (w : Written σ) : String × Value := (w.member.name, w.value)

def fill (s : σ) (w : Written σ) : Option σ := w.put?.map fun put ↦ put s

end Written

section Structured

variable {members : List (Member σ)} {ws : List (Written σ)} {seen : List String} {s : σ}
  {fuel : Nat}

theorem fillFromMembers_next {w : Written σ}
    (hread : Gives w.member.read steps depth w.value w.put?)
    (hname : (nameBytes w.member.name).length < steps)
    (hfind : (members.find? fun m ↦ m.name = w.member.name) = some w.member)
    (hseen : w.member.name ∉ seen) (first : Bool) (rest : Source) :
    (fillFromMembers members steps depth (fuel + 1) first seen s
      (joined first memberBytes ((w :: ws).map Written.entry) ++ byte '\x7d' :: rest)).toOption =
        w.put?.bind fun put ↦ (fillFromMembers members steps depth fuel false
          (w.member.name :: seen) (put s)
          (joined false memberBytes (ws.map Written.entry) ++ byte '\x7d' :: rest)).toOption := by
  have hends : Ends (joined false memberBytes (ws.map Written.entry) ++ byte '\x7d' :: rest) :=
    ends_joined _ _ (ends_cons (.inr (.inr rfl)))
  rw [fillFromMembers, List.map_cons, nextMember_joined, toOption_bind]
  change Option.bind (some (true, nameBytes w.member.name ++ _)) _ = _
  rw [Option.bind_some]
  dsimp only
  rw [if_pos rfl, toOption_bind, nameBytes, scanString_written _ hname]
  change Option.bind (some (w.member.name, _)) _ = _
  rw [Option.bind_some]
  dsimp only
  rw [hfind]
  dsimp only
  rw [if_neg hseen]
  change (w.member.read steps depth _ >>= fun r ↦ fillFromMembers members steps depth fuel false
    (w.member.name :: seen) (r.1 s) r.2).toOption = _
  rw [toOption_bind]
  refine (congrArg (Option.bind · _) (hread _ hends)).trans ?_
  cases w.put? <;> rfl

theorem fillFromMembers_written
    (hread : ∀ w ∈ ws, Gives w.member.read steps depth w.value w.put?)
    (hname : ∀ w ∈ ws, (nameBytes w.member.name).length < steps)
    (hfind : ∀ w ∈ ws, (members.find? fun m ↦ m.name = w.member.name) = some w.member)
    (hnodup : (ws.map fun w ↦ w.member.name).Nodup) (hseen : ∀ w ∈ ws, w.member.name ∉ seen)
    (hall : ∀ m ∈ members, m.name ∈ seen ∨ m.name ∈ ws.map fun w ↦ w.member.name)
    (hfuel : ws.length < fuel) (first : Bool) (rest : Source) :
    (fillFromMembers members steps depth fuel first seen s
      (joined first memberBytes (ws.map Written.entry) ++ byte '\x7d' :: rest)).toOption =
        (ws.foldlM Written.fill s).map fun s ↦ (.ok s, byte '\x7d' :: rest) := by
  -- on the members that are still to come; those seen so far have been filled in
  induction ws generalizing fuel seen s first with
  | nil =>
    obtain ⟨fuel, rfl⟩ := Nat.exists_eq_add_of_lt hfuel
    have hnone : (members.find? fun m ↦ !m.optional && !seen.contains m.name) = none := by
      refine List.find?_eq_none.2 fun m hm ↦ ?_
      have hmem := (hall m hm).resolve_right List.not_mem_nil
      simp [hmem]
    rw [fillFromMembers, List.map_nil, joined, List.nil_append, nextMember_end]
    rw [toOption_bind]
    dsimp only [Except.toOption, Option.bind_some]
    rw [hnone]
    rfl
  | cons w ws ih =>
    obtain ⟨fuel, rfl⟩ := Nat.exists_eq_add_of_lt hfuel
    obtain ⟨hreadw, hreads⟩ := List.forall_mem_cons.1 hread
    obtain ⟨hnamew, hnames⟩ := List.forall_mem_cons.1 hname
    obtain ⟨hfindw, hfinds⟩ := List.forall_mem_cons.1 hfind
    obtain ⟨hseenw, hseens⟩ := List.forall_mem_cons.1 hseen
    obtain ⟨hfresh, hnodups⟩ := List.nodup_cons.1 hnodup
    rw [fillFromMembers_next hreadw hnamew hfindw hseenw, List.foldlM_cons, Written.fill]
    cases w.put? with
    | none => rfl
    | some put =>
      refine ih hreads hnames hfinds hnodups ?_ ?_ (by rw [List.length_cons]; omega) false
      · intro w' hw'
        refine List.not_mem_cons_of_ne_of_not_mem ?_ (hseens w' hw')
        intro heq
        exact hfresh (List.mem_map.2 ⟨w', hw', heq⟩)
      · intro m hm
        rcases hall m hm with hmem | hmem
        · exact .inl (List.mem_cons_of_mem _ hmem)
        · rcases List.mem_cons.1 hmem with heq | hmem
          · exact .inl (heq ▸ List.mem_cons_self)
          · exact .inr hmem

theorem find_written (hnodup : (ws.map fun w ↦ w.member.name).Nodup) {w : Written σ} (hw : w ∈ ws) :
    ((ws.map Written.member).find? fun m ↦ m.name = w.member.name) = some w.member := by
  induction ws with
  | nil => cases hw
  | cons w' ws ih =>
    obtain ⟨hfresh, hnodups⟩ := List.nodup_cons.1 hnodup
    rw [List.map_cons]
    rcases List.mem_cons.1 hw with rfl | hw
    · exact List.find?_cons_of_pos (decide_eq_true rfl)
    · rw [List.find?_cons_of_neg, ih hnodups hw]
      refine decide_eq_true_iff.not.2 fun heq ↦ hfresh ?_
      exact List.mem_map.2 ⟨w, hw, heq.symm⟩

/-- A structure is read back from an object that gives all of its members in their order. -/
theorem Reader.gives_structured (expected : String) (start : σ)
    (hread : ∀ w ∈ ws, (bytesOf w.value.compact).length < steps →
      Gives w.member.read steps depth w.value w.put?)
    (hnodup : (ws.map fun w ↦ w.member.name).Nodup)
    (hsteps : (bytesOf (Value.object (ws.map Written.entry)).compact).length < steps) :
    Gives (structured expected (ws.map Written.member) start) steps (depth + 1)
      (.object (ws.map Written.entry)) (ws.foldlM Written.fill start) := by
  intro rest hr
  rw [bytesOf_object, List.length_cons, List.length_append] at hsteps
  have hmember (w) (hw : w ∈ ws) :
      (nameBytes w.member.name).length < steps ∧ (bytesOf w.value.compact).length < steps := by
    have hle := length_text_le memberBytes (List.mem_map_of_mem (f := Written.entry) hw) true
    have hsum := length_le_memberBytes w.entry
    simp only [Written.entry] at hle hsum
    omega
  have hlength : (ws.map Written.entry).length ≤
      (joined true memberBytes (ws.map Written.entry)).length :=
    length_le_joined (fun m _ ↦ memberBytes_ne_nil m) true
  rw [List.length_map] at hlength
  have hall (m) (hm : m ∈ ws.map Written.member) :
      m.name ∈ [] ∨ m.name ∈ ws.map fun w ↦ w.member.name := by
    obtain ⟨w, hw, rfl⟩ := List.mem_map.1 hm
    exact .inr (List.mem_map_of_mem hw)
  have hinside := fillFromMembers_written (s := start) (fun w hw ↦ hread w hw (hmember w hw).2)
    (fun w hw ↦ (hmember w hw).1) (fun w hw ↦ find_written hnodup hw) hnodup
    (fun w _ ↦ List.not_mem_nil) hall (show ws.length < steps by omega) true rest
  rw [bytesOf_object, List.cons_append, List.append_assoc, structured, skipSpace_of_not rfl,
    List.head?_cons, if_neg (by decide), if_pos rfl, entering, List.tail_cons,
    List.singleton_append, toOption_bind, hinside]
  cases ws.foldlM Written.fill start <;> rfl

end Structured

def Written.ofReader (name : String) (optional : Bool) (read : Reader α) (put : α → σ → σ)
    (v : Value) (a? : Option α) : Written σ := ⟨.ofReader name optional read put, v, a?.map put⟩

theorem Written.gives_ofReader {read : Reader α} {a? : Option α} (name : String) (optional : Bool)
    (put : α → σ → σ) (h : Gives read steps depth v a?) :
    Gives (ofReader name optional read put v a?).member.read steps depth v
      (ofReader name optional read put v a?).put? := by
  intro rest hr
  change ((read steps depth (bytesOf v.compact ++ rest)).map _).toOption = _
  rw [toOption_map, h rest hr, Option.map_map, ofReader, Option.map_map]
  rfl

theorem Reader.readAll_written {read : Reader α} {a? : Option α}
    (h : Gives read (stepsFor (bytesOf v.compact)) maxDepth v a?) :
    (read.readAll (bytesOf v.compact)).toOption = a? := by
  have hread := h [] nofun
  rw [List.append_nil] at hread
  rw [Reader.readAll]
  cases hr : read (stepsFor (bytesOf v.compact)) maxDepth (bytesOf v.compact) with
  | error f =>
    rw [hr] at hread
    cases a? with
    | none => rfl
    | some a => cases hread
  | ok p =>
    rw [hr] at hread
    cases a? with
    | none => cases hread
    | some a =>
      obtain rfl := Option.some.inj hread
      rfl

end ActionCatalog.Json
