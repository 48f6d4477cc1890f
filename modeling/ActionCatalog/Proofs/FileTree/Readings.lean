import ActionCatalog.Proofs.FileTree.Replacement

namespace ActionCatalog

theorem Node.file_of_put {n : Node} {new : Option Node} {l m : Location} {content : List UInt8}
    {modified : Int} (hm : ¬l <+: m) (h : (n.put new l).at? m = some (.file content modified)) :
    n.at? m = some (.file content modified) := by
  induction m generalizing l n with
  | nil =>
    -- above the location there are only directories, which a change does not turn into files
    cases n <;> obtain _ | ⟨key, _ | ⟨next, rest⟩⟩ := l <;> cases new <;> first | exact h | cases h
  | cons name m ih =>
    obtain _ | ⟨key, l⟩ := l
    · exact absurd List.nil_prefix hm
    change ((n.put new (key :: l)).entries.lookup name).bind (at? m) = _ at h
    change (n.entries.lookup name).bind (at? m) = _
    by_cases hne : name = key
    · subst hne
      have hl : ¬l <+: m := fun hl ↦ hm ((List.prefix_cons_inj name).2 hl)
      obtain _ | ⟨next, l⟩ := l
      · exact absurd List.nil_prefix hl
      rw [lookup_entries_put_self] at h
      cases hn : n.entries.lookup name with
      | none =>
        rw [hn] at h
        cases h
      | some n' =>
        rw [hn] at h
        exact ih hl h
    · rwa [lookup_entries_put hne] at h

namespace FileTree

variable {t t' : FileTree} {l : Location} {path : String} {content : List UInt8} {modified : Int}

theorem read_ok_iff : t.read path = .ok content ↔
    ∃ l modified, t.resolve path = .ok l ∧ t.at? l = some (.file content modified) := by
  constructor
  · intro h
    obtain ⟨l, hl, h⟩ := exists_of_bind_ok h
    split at h
    · rename_i modified hfile
      exact ⟨l, modified, hl, Except.ok.inj h ▸ hfile⟩
    · cases h
    · cases h
  · rintro ⟨l, modified, hl, hfile⟩
    rw [FileTree.read, hl]
    dsimp only [bind, Except.bind]
    rw [hfile]

/-- What can be read in a tree can be read in any tree that has all directories and links, and the
very file. -/
theorem Keeps.read (h : t.Keeps t') (hl : t.resolve path = .ok l)
    (hfile : t.at? l = some (.file content modified))
    (hfile' : t'.at? l = some (.file content modified)) : t'.read path = .ok content := by
  obtain ⟨hchecked, hwalk⟩ := resolve_eq_ok.1 hl
  have hkind : t'.kind? l = t.kind? l := by rw [kind?, kind?, hfile, hfile']
  exact read_ok_iff.2 ⟨l, modified, resolve_eq_ok.2 ⟨hchecked, h.walk hkind hwalk⟩, hfile'⟩

theorem keeps_of_remove (hl : l ≠ []) : (t.remove l).Keeps t := by
  refine ⟨rfl, fun m k hk _ ↦ ?_⟩
  by_cases hm : l <+: m
  · rw [kind?_remove_below hl hm] at hk
    cases hk
  · rwa [kind?_remove hm] at hk

theorem read_of_remove (h : (t.remove l).read path = .ok content) : t.read path = .ok content := by
  by_cases hl : l = []
  · rwa [hl] at h
  obtain ⟨m, modified, hm, hfile⟩ := read_ok_iff.1 h
  by_cases hbelow : l <+: m
  · rw [at?_remove_below hl hbelow] at hfile
    cases hfile
  · exact (keeps_of_remove hl).read hm hfile (Node.file_of_put hbelow hfile)

/-- With a new file nothing else can be read than without it, except what is in it. -/
theorem read_of_put {new : List UInt8} {modified : Int}
    (h : (t.put l (.file new modified)).read path = .ok content) :
    content = new ∨ t.read path = .ok content := by
  by_cases hl : l = []
  · rw [hl] at h
    exact .inr h
  obtain ⟨m, modified', hm, hfile⟩ := read_ok_iff.1 h
  by_cases hbelow : l <+: m
  · have hput {n : Node} (hn : (t.put l (.file new modified)).at? l = some n) :
        n = .file new modified := Node.eq_of_put hl hn
    by_cases heq : l = m
    · subst heq
      cases hput hfile
      exact .inl rfl
    · rw [at?_below hbelow (fun n hn ↦ by rw [hput hn]; rfl) heq] at hfile
      cases hfile
  · exact .inr (keeps_of_put.read hm hfile (Node.file_of_put hbelow hfile))

end FileTree

end ActionCatalog
