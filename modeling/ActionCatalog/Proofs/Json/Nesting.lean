import ActionCatalog.Json.Structured
import ActionCatalog.Proofs.Json.Values

namespace ActionCatalog.Json

variable {α β σ : Type} {P : α → Prop} {steps depth : Nat} {src rest : Source} {v : Value}

/-- Whether something holds of all that a scanner gives. -/
def Scanner.Ensures (scan : Scanner α) (P : α → Prop) : Prop :=
  ∀ src a rest, scan src = .ok (a, rest) → P a

theorem conclude_ok {inside : Except Mismatch α} {close : Option Cause × Source} {a : α}
    (h : conclude inside close = .ok (a, rest)) : inside = .ok a := by
  obtain ⟨cause?, src⟩ := close
  cases inside with
  | error m => cases h
  | ok b =>
    cases cause? with
    | some cause => cases h
    | none =>
      cases h
      rfl

theorem ensures_scanItems {item : Scanner α} (hitem : item.Ensures P) {done : List α}
    (hdone : ∀ a ∈ done, P a) :
    (scanItems item steps done).Ensures fun as ↦ ∀ a ∈ as, P a := by
  induction steps generalizing done with
  | zero =>
    intro src as rest h
    cases h
  | succ steps ih =>
    intro src as rest h
    obtain ⟨⟨more, src'⟩, -, h⟩ := exists_of_bind_ok h
    cases more with
    | true =>
      obtain ⟨⟨a, src''⟩, ha, h⟩ := exists_of_bind_ok h
      refine ih ?_ src'' as rest h
      exact List.forall_mem_cons.2 ⟨hitem _ _ _ ha, hdone⟩
    | false =>
      have has := Except.ok.inj (conclude_ok h)
      rw [← has]
      exact fun a ha ↦ hdone a (List.mem_reverse.1 ha)

theorem ensures_scanMembers {name : Scanner String} {item : Scanner α} (hitem : item.Ensures P)
    {done : List (String × α)} (hdone : ∀ m ∈ done, P m.2) :
    (scanMembers name item steps done).Ensures fun ms ↦ ∀ m ∈ ms, P m.2 := by
  induction steps generalizing done with
  | zero =>
    intro src ms rest h
    cases h
  | succ steps ih =>
    intro src ms rest h
    obtain ⟨⟨more, src'⟩, -, h⟩ := exists_of_bind_ok h
    cases more with
    | true =>
      obtain ⟨⟨k, src₁⟩, -, h⟩ := exists_of_bind_ok h
      obtain ⟨⟨_, src₂⟩, -, h⟩ := exists_of_bind_ok h
      obtain ⟨⟨a, src₃⟩, ha, h⟩ := exists_of_bind_ok h
      refine ih ?_ src₃ ms rest h
      exact List.forall_mem_cons.2 ⟨hitem _ _ _ ha, hdone⟩
    | false =>
      have hms := Except.ok.inj (conclude_ok h)
      rw [← hms]
      exact fun m hm ↦ hdone m (List.mem_reverse.1 hm)

/-- What is read is nested no deeper than it may be, its objects in the order of their names. -/
theorem nested_scanValue :
    Scanner.Ensures (scanValue steps depth) (Value.Nested depth) := by
  induction depth with
  | zero =>
    intro src v rest h
    rw [scanValue] at h
    split at h
    · cases h
    split at h
    · cases h
    split at h
    · cases h
    · obtain ⟨⟨s, src'⟩, -, h⟩ := exists_of_map_ok h
      obtain ⟨rfl, -⟩ := Prod.mk.inj h
      exact .scalar s
  | succ depth ih =>
    intro src v rest h
    rw [scanValue] at h
    split at h
    · cases h
    split at h
    · obtain ⟨⟨items, src'⟩, hitems, h⟩ := exists_of_map_ok h
      obtain ⟨rfl, -⟩ := Prod.mk.inj h
      exact .array (ensures_scanItems ih (List.forall_mem_nil _) _ _ _ hitems)
    split at h
    · obtain ⟨⟨members, src'⟩, hmembers, h⟩ := exists_of_map_ok h
      obtain ⟨rfl, -⟩ := Prod.mk.inj h
      have hnested := ensures_scanMembers ih (List.forall_mem_nil _) _ _ _ hmembers
      exact .object (Keyed.sorted_ofList members) fun m hm ↦ hnested m (Keyed.mem_of_mem_ofList hm)
    · obtain ⟨⟨s, src'⟩, -, h⟩ := exists_of_map_ok h
      obtain ⟨rfl, -⟩ := Prod.mk.inj h
      exact .scalar s

theorem conclusive_ok {text : Source} {result : Except Fault (α × Source)} {a : α}
    (h : conclusive text result = .ok a) : ∃ rest, result = .ok (a, rest) := by
  cases result with
  | error f => cases h
  | ok p =>
    obtain ⟨b, rest⟩ := p
    refine ⟨rest, ?_⟩
    rw [conclusive] at h
    split at h
    · cases h
      rfl
    · cases h

theorem Value.nested_read {text : Source} (h : Value.read text = .ok v) : v.Nested maxDepth := by
  obtain ⟨rest, hv⟩ := conclusive_ok h
  exact nested_scanValue _ _ _ hv

namespace Value.Nested

theorem items {items : List Value} (h : Nested (depth + 1) (.array items)) :
    ∀ v ∈ items, v.Nested depth := by
  generalize hv : Value.array items = v at h
  cases h with
  | scalar s => cases s <;> cases hv
  | array h => exact Value.array.inj hv ▸ h
  | object hs h => cases hv

theorem members {members : List (String × Value)} (h : Nested (depth + 1) (.object members)) :
    Keyed.Sorted members ∧ ∀ m ∈ members, m.2.Nested depth := by
  generalize hv : Value.object members = v at h
  cases h with
  | scalar s => cases s <;> cases hv
  | array h => cases hv
  | object hs h => exact Value.object.inj hv ▸ ⟨hs, h⟩

theorem lookup {members : List (String × Value)} {name : String}
    (h : Nested (depth + 1) (.object members)) (hv : members.lookup name = some v) :
    v.Nested depth :=
  h.members.2 _ (Keyed.mem_of_lookup hv)

end Value.Nested

namespace Reader

theorem ensures_judging {accept : Value → Except Mismatch α}
    (h : ∀ v a, v.Nested depth → accept v = .ok a → P a) :
    Scanner.Ensures (judging accept steps depth) P := by
  intro src a rest ha
  obtain ⟨⟨v, src'⟩, hv, ha⟩ := exists_of_bind_ok ha
  dsimp only at ha
  split at ha
  · rename_i b hb
    obtain ⟨rfl, -⟩ := Prod.mk.inj (Except.ok.inj ha)
    exact h v b (nested_scanValue _ _ _ hv) hb
  · cases ha

theorem accepted_of_judged {accepted : Except Mismatch α} {src rest : Source} {a : α}
    (h : (match accepted with
      | .ok a => .ok (a, src)
      | .error m => blame (.mismatch m) src) = Except.ok (a, rest)) : accepted = .ok a := by
  split at h
  · obtain ⟨rfl, -⟩ := Prod.mk.inj (Except.ok.inj h)
    rfl
  · cases h

theorem ensures_accepting {accept : Acceptor α} (h : ∀ found a, accept found = .ok a → P a) :
    Scanner.Ensures (accepting accept steps depth) P := by
  intro src a rest ha
  rw [accepting] at ha
  split at ha
  · cases ha
  split at ha
  · exact h _ _ (accepted_of_judged ha)
  split at ha
  · exact h _ _ (accepted_of_judged ha)
  · obtain ⟨⟨found, src'⟩, -, ha⟩ := exists_of_bind_ok ha
    exact h _ _ (accepted_of_judged ha)

theorem ensures_nothing (expected : String) :
    Scanner.Ensures (accepting (.nothing (α := α) expected) steps depth) P :=
  ensures_accepting fun _ _ h ↦ nomatch h

theorem ensures_list {item : Reader α} (h : Scanner.Ensures (item steps depth) P) :
    Scanner.Ensures (list item steps (depth + 1)) fun as ↦ ∀ a ∈ as, P a := by
  intro src as rest has
  rw [list] at has
  split at has
  · exact ensures_scanItems h (List.forall_mem_nil _) _ _ _ has
  · exact ensures_nothing (P := fun as ↦ ∀ a ∈ as, P a) _ _ _ _ has

end Reader

theorem Member.ensures_ofReader {Q : (σ → σ) → Prop} {name : String} {optional : Bool}
    {read : Reader α} {put : α → σ → σ} (h : Scanner.Ensures (read steps depth) P)
    (hput : ∀ a, P a → Q (put a)) :
    Scanner.Ensures ((ofReader name optional read put).read steps depth) Q := by
  intro src f rest hf
  obtain ⟨⟨a, src'⟩, ha, hf⟩ := exists_of_map_ok hf
  obtain ⟨rfl, -⟩ := Prod.mk.inj hf
  exact hput a (h _ _ _ ha)

section Structured

variable {Q : σ → Prop} {members : List (Member σ)} {s s' : σ}

/-- Whether a member keeps something whatever it is filled in with. -/
def Member.Keeps (steps depth : Nat) (Q : σ → Prop) (m : Member σ) : Prop :=
  Scanner.Ensures (m.read steps depth) fun put ↦ ∀ s, Q s → Q (put s)

theorem fillFromItems_ensures {expected : String} {given : Nat}
    (hread : ∀ m ∈ members, m.Keeps steps depth Q) (hs : Q s)
    (h : fillFromItems expected steps depth given members s src = .ok (.ok s', rest)) : Q s' := by
  induction members generalizing given s src with
  | nil =>
    obtain ⟨hs', -⟩ := Prod.mk.inj (Except.ok.inj h)
    exact Except.ok.inj hs' ▸ hs
  | cons m ms ih =>
    obtain ⟨hm, hms⟩ := List.forall_mem_cons.1 hread
    obtain ⟨⟨more, src'⟩, -, h⟩ := exists_of_bind_ok h
    cases more with
    | true =>
      obtain ⟨⟨put, src''⟩, hput, h⟩ := exists_of_bind_ok h
      exact ih hms (hm _ _ _ hput s hs) h
    | false =>
      dsimp only at h
      rw [if_neg Bool.false_ne_true] at h
      split at h
      · obtain ⟨hs', -⟩ := Prod.mk.inj (Except.ok.inj h)
        exact Except.ok.inj hs' ▸ hs
      · obtain ⟨hs', -⟩ := Prod.mk.inj (Except.ok.inj h)
        cases hs'

theorem fillFromMembers_ensures {fuel : Nat} {first : Bool} {seen : List String}
    (hread : ∀ m ∈ members, m.Keeps steps depth Q) (hs : Q s)
    (h : fillFromMembers members steps depth fuel first seen s src = .ok (.ok s', rest)) :
    Q s' := by
  induction fuel generalizing first seen s src with
  | zero => cases h
  | succ fuel ih =>
    obtain ⟨⟨more, src'⟩, -, h⟩ := exists_of_bind_ok h
    cases more with
    | true =>
      obtain ⟨⟨name, src₁⟩, -, h⟩ := exists_of_bind_ok h
      dsimp only at h
      split at h
      · obtain ⟨⟨_, src₂⟩, -, h⟩ := exists_of_bind_ok h
        obtain ⟨⟨_, src₃⟩, -, h⟩ := exists_of_bind_ok h
        exact ih hs h
      · rename_i m hm
        split at h
        · obtain ⟨hs', -⟩ := Prod.mk.inj (Except.ok.inj h)
          cases hs'
        · obtain ⟨⟨_, src₂⟩, -, h⟩ := exists_of_bind_ok h
          obtain ⟨⟨put, src₃⟩, hput, h⟩ := exists_of_bind_ok h
          exact ih (hread m (List.mem_of_find?_eq_some hm) _ _ _ hput s hs) h
    | false =>
      dsimp only at h
      rw [if_neg Bool.false_ne_true] at h
      split at h
      · obtain ⟨hs', -⟩ := Prod.mk.inj (Except.ok.inj h)
        cases hs'
      · obtain ⟨hs', -⟩ := Prod.mk.inj (Except.ok.inj h)
        exact Except.ok.inj hs' ▸ hs

theorem Reader.ensures_structured {expected : String} {start : σ}
    (hread : ∀ m ∈ members, m.Keeps steps depth Q) (hstart : Q start) :
    Scanner.Ensures (structured expected members start steps (depth + 1)) Q := by
  intro src s rest h
  rw [structured] at h
  split at h
  · obtain ⟨⟨inside, src'⟩, hinside, h⟩ := exists_of_bind_ok h
    obtain rfl := conclude_ok h
    exact fillFromItems_ensures hread hstart hinside
  split at h
  · obtain ⟨⟨inside, src'⟩, hinside, h⟩ := exists_of_bind_ok h
    obtain rfl := conclude_ok h
    exact fillFromMembers_ensures hread hstart hinside
  · exact ensures_nothing _ _ _ _ h

end Structured

theorem Reader.ensures_readAll {read : Reader α} {text : Source} {a : α}
    (hread : Scanner.Ensures (read (stepsFor text) maxDepth) P) (h : read.readAll text = .ok a) :
    P a := by
  obtain ⟨rest, ha⟩ := conclusive_ok h
  exact hread _ _ _ ha

end ActionCatalog.Json
