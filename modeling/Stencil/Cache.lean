import Stencil.Number.Binary64
import Stencil.Text.Blank
import Stencil.Text.Case

/-! A cache that drops what has not been used for the longest time. -/
namespace Stencil

structure CacheEntry (α : Type) where
  key : String
  revision : Int
  item : α
  deriving Repr

/- The entries stand in the order of their last use, the oldest first. A `limit` of zero is none. -/
structure Cache (α : Type) where
  enabled : Bool
  limit : Nat
  entries : List (CacheEntry α)
  hits : Nat
  misses : Nat
  deriving Repr

namespace Cache

variable {α : Type}

def empty (enabled : Bool) (limit : Nat) : Cache α := ⟨enabled, limit, [], 0, 0⟩

def isOn (s : String) : Bool :=
  !(["0", "false", "no", "off", ""].contains (Text.lowerText (Text.trim s)))

/- A new cache. A switch, if there is one, overrules `enabled`. -/
def start (switch : Option String) (enabled : Bool) (limit : Int) : Cache α :=
  empty ((switch.map isOn).getD enabled) limit.toNat

def find? (c : Cache α) (key : String) : Option (CacheEntry α) := c.entries.find? (·.key == key)

def contains (c : Cache α) (key : String) : Bool := c.entries.any (·.key == key)

def size (c : Cache α) : Nat := c.entries.length

def keys (c : Cache α) : List String := c.entries.map (·.key)

def others (c : Cache α) (key : String) : List (CacheEntry α) := c.entries.filter (·.key != key)

/- Looks a key up. An entry of another revision than the one asked for is dropped. -/
def get (c : Cache α) (key : String) (revision : Option Int) : Option (CacheEntry α) × Cache α :=
  if !c.enabled then (none, c)
  else match c.find? key with
    | none => (none, { c with misses := c.misses + 1 })
    | some e =>
      if revision.any (· != e.revision) then
        (none, { c with entries := c.others key, misses := c.misses + 1 })
      else (some e, { c with entries := c.others key ++ [e], hits := c.hits + 1 })

def shrink (limit : Nat) (es : List (CacheEntry α)) : List (CacheEntry α) :=
  if limit = 0 then es else es.drop (es.length - limit)

def put (c : Cache α) (e : CacheEntry α) : Cache α :=
  if !c.enabled then c else { c with entries := shrink c.limit (c.others e.key ++ [e]) }

def clear (c : Cache α) : Nat × Cache α := (c.size, { c with entries := [] })

def hitRate (c : Cache α) : Binary64 :=
  if c.hits + c.misses = 0 then .zero else .ofRatio false c.hits (c.hits + c.misses)

theorem length_shrink_le {limit : Nat} (h : limit ≠ 0) (es : List (CacheEntry α)) :
    (shrink limit es).length ≤ limit := by
  simp [shrink, h]; omega

end Cache
end Stencil
