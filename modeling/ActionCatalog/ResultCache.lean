import ActionCatalog.Binary64.Arithmetic
import ActionCatalog.Query.Evaluation

namespace ActionCatalog

structure CacheKey where
  query : String
  limit : Nat
deriving DecidableEq

structure CacheEntry (α : Type) where
  key : CacheKey
  result : Selection α
  generation : Nat
  createdAt : Nat
deriving DecidableEq

/-- Entries are listed from the most to the least recently used one. Times are in nanoseconds. A
cache without room is disabled. -/
structure ResultCache (α : Type) where
  capacity : Nat
  lifetime : Nat
  entries : List (CacheEntry α)
  hits : Nat
  misses : Nat
deriving DecidableEq

structure CacheUsage where
  size : Nat
  capacity : Nat
  hits : Nat
  misses : Nat
  hitRate : Extended
deriving DecidableEq

namespace ResultCache

variable {α : Type}

def empty (capacity lifetimeSeconds : Nat) : ResultCache α :=
  ⟨capacity, lifetimeSeconds * 10 ^ 9, [], 0, 0⟩

def find? (c : ResultCache α) (key : CacheKey) : Option (CacheEntry α) :=
  c.entries.find? fun e ↦ e.key = key

def without (c : ResultCache α) (key : CacheKey) : List (CacheEntry α) :=
  c.entries.filter fun e ↦ e.key ≠ key

def isExpired (c : ResultCache α) (now : Nat) (e : CacheEntry α) : Bool :=
  c.lifetime ≤ now - e.createdAt

def miss (c : ResultCache α) : ResultCache α := { c with misses := c.misses + 1 }

/-- Looks up a result as of a generation. An entry of an older generation, or one that has expired,
is dropped; one of a newer generation stays but is not served. -/
def get (c : ResultCache α) (key : CacheKey) (generation now : Nat) :
    Option (Selection α) × ResultCache α :=
  match c.find? key with
  | none => (none, c.miss)
  | some e =>
    if generation < e.generation then (none, c.miss)
    else if e.generation < generation ∨ c.isExpired now e then
      (none, { c with entries := c.without key }.miss)
    else (some e.result, { c with entries := e :: c.without key, hits := c.hits + 1 })

/-- Stores a result, unless there is one of a newer generation, and drops the least recently used
entry if there is no room for it. -/
def insert (c : ResultCache α) (key : CacheKey) (generation now : Nat) (result : Selection α) :
    ResultCache α :=
  if (c.find? key).any fun e ↦ generation < e.generation then c
  else { c with entries := (⟨key, result, generation, now⟩ :: c.without key).take c.capacity }

def clear (c : ResultCache α) : ResultCache α := { c with entries := [] }

def size (c : ResultCache α) : Nat := c.entries.length

def hitRate (c : ResultCache α) : Extended :=
  match (Binary64.ofNat (c.hits + c.misses)).finite? with
  | some n => if n.isZero then .finite (.zero false) else (Binary64.ofNat c.hits).div n
  | none => .nan

def usage (c : ResultCache α) : CacheUsage :=
  ⟨c.size, c.capacity, c.hits, c.misses, c.hitRate⟩

end ResultCache

end ActionCatalog
