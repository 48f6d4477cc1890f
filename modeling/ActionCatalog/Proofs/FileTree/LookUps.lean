import ActionCatalog.FileTree.Basic
import Mathlib.Data.Option.Basic

namespace ActionCatalog

namespace Node

theorem at?_append (l m : Location) (n : Node) :
    n.at? (l ++ m) = (n.at? l).bind (at? m) := by
  induction l generalizing n with
  | nil => rfl
  | cons name rest ih =>
    change (n.entries.lookup name).bind (at? (rest ++ m)) =
      ((n.entries.lookup name).bind (at? rest)).bind (at? m)
    rw [Option.bind_assoc]
    exact congrArg _ (funext ih)

/-- What a look-up tells nodes apart by. -/
inductive Kind
  | file
  | directory
  | link (target : String)
deriving DecidableEq

def kind : Node → Kind
  | file _ _ => .file
  | directory _ => .directory
  | link target => .link target

end Node

namespace FileTree

structure IsEntryName (name : String) : Prop where
  ne_nothing : name ≠ ""
  ne_here : name ≠ "."
  ne_up : name ≠ ".."
  size : name.utf8ByteSize ≤ maxNameSize

variable {t : FileTree} {visit : Visit}
  {jump : Location → List String → Except FileError Location} {here l m : Location}
  {piece : String} {rest : List String}

def kind? (t : FileTree) (l : Location) : Option Node.Kind := (t.at? l).map Node.kind

theorem at?_concat {n : Node} {entries : List (String × Node)} (name : String)
    (h : n.at? l = some (.directory entries)) : n.at? (l ++ [name]) = entries.lookup name := by
  rw [Node.at?_append, h]
  exact Option.bind_fun_some _

theorem any_isDirectory : (t.at? l).any Node.isDirectory = true ↔ t.kind? l = some .directory := by
  rw [kind?]
  cases t.at? l with
  | none => simp
  | some n => cases n <;> simp [Node.isDirectory, Node.kind]

theorem isSome_of_kind {kind : Node.Kind} (h : t.kind? l = some kind) : (t.at? l).isSome := by
  rw [← Option.isSome_map, ← kind?, h]
  rfl

theorem follow_cons (visit : Visit) (jump : Location → List String → Except FileError Location)
    (here : Location) (piece : String) (rest : List String) :
    follow t visit jump here (piece :: rest) =
      match t.kind? here with
      | some .directory =>
        if piece = "" ∨ piece = "." then follow t visit jump here rest
        else if piece = ".." then follow t visit jump here.dropLast rest
        else if maxNameSize < piece.utf8ByteSize then .error .nameTooLong
        else
          match t.kind? (here ++ [piece]) with
          | some (.link target) =>
            if visit (here ++ [piece]) [] then jump (origin here target) (piecesOf target ++ rest)
            else .error .nameTooLong
          | some _ =>
            if visit (here ++ [piece]) rest then follow t visit jump (here ++ [piece]) rest
            else .error .nameTooLong
          | none => .error .notFound
      | some .file => .error .notDirectory
      | _ => .error .notFound := by
  have hnext (entries : List (String × Node)) (h : t.at? here = some (.directory entries)) :
      t.kind? (here ++ [piece]) = (entries.lookup piece).map Node.kind := by
    rw [kind?, at?, at?_concat piece h]
  rw [follow]
  cases hhere : t.at? here with
  | none => simp only [kind?, hhere, Option.map_none]
  | some n =>
    cases n with
    | file content modified => simp only [kind?, hhere, Option.map_some, Node.kind]
    | link target => simp only [kind?, hhere, Option.map_some, Node.kind]
    | directory entries =>
      have hkind : t.kind? here = some .directory := by rw [kind?, hhere]; rfl
      rw [hkind, hnext entries hhere]
      cases hm : entries.lookup piece with
      | none => simp only [hm, Option.map_none]
      | some m => cases m <;> simp only [hm, Option.map_some, Node.kind]

/-- What a piece of a path leads to: a directory that the look-up has come past, an entry, or a
link. -/
inductive Move
  | stay (l : Location)
  | enter (l : Location)
  | jump (l : Location) (target : String)

inductive Moves (t : FileTree) (here : Location) : String → Move → Prop
  | idle {piece : String} (hhere : t.kind? here = some .directory)
    (hidle : piece = "" ∨ piece = ".") : Moves t here piece (.stay here)
  | up (hhere : t.kind? here = some .directory) : Moves t here ".." (.stay here.dropLast)
  | enter {piece : String} {kind : Node.Kind} (hhere : t.kind? here = some .directory)
    (hname : IsEntryName piece) (hkind : t.kind? (here ++ [piece]) = some kind)
    (hlink : ∀ target, kind ≠ .link target) : Moves t here piece (.enter (here ++ [piece]))
  | jump {piece target : String} (hhere : t.kind? here = some .directory)
    (hname : IsEntryName piece) (hkind : t.kind? (here ++ [piece]) = some (.link target)) :
    Moves t here piece (.jump (here ++ [piece]) target)

def proceed (t : FileTree) (visit : Visit)
    (jump : Location → List String → Except FileError Location) (here : Location)
    (rest : List String) : Move → Except FileError Location
  | .stay l => follow t visit jump l rest
  | .enter l => if visit l rest then follow t visit jump l rest else .error .nameTooLong
  | .jump l target =>
    if visit l [] then jump (origin here target) (piecesOf target ++ rest)
    else .error .nameTooLong

theorem follow_named (hname : IsEntryName piece) (hhere : t.kind? here = some .directory) :
    follow t visit jump here (piece :: rest) =
      match t.kind? (here ++ [piece]) with
      | some (.link target) => t.proceed visit jump here rest (.jump (here ++ [piece]) target)
      | some _ => t.proceed visit jump here rest (.enter (here ++ [piece]))
      | none => .error .notFound := by
  rw [follow_cons, hhere]
  dsimp only
  rw [if_neg (not_or.2 ⟨hname.ne_nothing, hname.ne_here⟩), if_neg hname.ne_up,
    if_neg (Nat.not_lt.2 hname.size)]
  rfl

theorem Moves.follow {move : Move} (h : t.Moves here piece move) :
    follow t visit jump here (piece :: rest) = t.proceed visit jump here rest move := by
  cases h with
  | idle hhere hidle =>
    rw [follow_cons, hhere]
    exact if_pos hidle
  | up hhere =>
    rw [follow_cons, hhere]
    rfl
  | enter hhere hname hkind hlink =>
    rw [follow_named hname hhere, hkind]
    split
    · rename_i hk
      exact absurd (Option.some.inj hk) (hlink _)
    · rfl
    · contradiction
  | jump hhere hname hkind => rw [follow_named hname hhere, hkind]

theorem follow_missing (hname : IsEntryName piece) (hhere : t.kind? here = some .directory)
    (hnone : t.kind? (here ++ [piece]) = none) :
    follow t visit jump here (piece :: rest) = .error .notFound := by
  rw [follow_named hname hhere, hnone]

/-- A look-up that leads somewhere makes a move at each piece. -/
theorem exists_of_follow (h : follow t visit jump here (piece :: rest) = .ok m) :
    ∃ move, t.Moves here piece move ∧ t.proceed visit jump here rest move = .ok m := by
  rw [follow_cons] at h
  split at h
  · rename_i hhere
    split at h
    · rename_i hidle
      exact ⟨_, .idle hhere hidle, h⟩
    rename_i hidle
    split at h
    · rename_i hup
      subst hup
      exact ⟨_, .up hhere, h⟩
    rename_i hup
    split at h
    · cases h
    rename_i hsize
    obtain ⟨hne, hdot⟩ := not_or.1 hidle
    have hname : IsEntryName piece := ⟨hne, hdot, hup, Nat.not_lt.1 hsize⟩
    split at h
    · rename_i hkind
      exact ⟨_, .jump hhere hname hkind, h⟩
    · rename_i kind hlink hkind
      exact ⟨_, .enter hhere hname hkind hlink, h⟩
    · cases h
  · cases h
  · cases h

theorem proceed_enter : t.proceed visit jump here rest (.enter l) = .ok m ↔
    visit l rest = true ∧ follow t visit jump l rest = .ok m := by
  rw [proceed]
  split <;> simp [*]

theorem proceed_jump {target : String} : t.proceed visit jump here rest (.jump l target) = .ok m ↔
    visit l [] = true ∧ jump (origin here target) (piecesOf target ++ rest) = .ok m := by
  rw [proceed]
  split <;> simp [*]

end FileTree

end ActionCatalog
