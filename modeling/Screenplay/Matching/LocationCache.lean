/-!
A memory of where templates were found last, of bounded size: past the bound the location that was
used longest ago is forgotten, and one that is too old is forgotten when it is asked for.
-/
namespace Screenplay

structure CachedLocation where
  x : Int
  y : Int
  /-- The time of the clock when the location was put in, in milliseconds. -/
  time : Nat
  deriving DecidableEq, Repr

structure LocationCache where
  /-- The locations by key, each key once. -/
  entries : List (UInt64 × CachedLocation)
  /-- The keys from least to most recently used. -/
  order : List UInt64
  capacity : Nat
  ttlMs : Nat
  deriving DecidableEq, Repr

namespace LocationCache

/-- An empty cache; it has room for at least one location. -/
def empty (capacity ttlMs : Nat) : LocationCache :=
  { entries := [], order := [], capacity := max capacity 1, ttlMs }

def size (c : LocationCache) : Nat := c.entries.length

def isEmpty (c : LocationCache) : Bool := c.entries.isEmpty

def clear (c : LocationCache) : LocationCache := { c with entries := [], order := [] }

/-- What is stored under a key, without using it. -/
def find? (c : LocationCache) (key : UInt64) : Option CachedLocation := c.entries.lookup key

def remove (c : LocationCache) (key : UInt64) : LocationCache :=
  { c with
    entries := c.entries.filter fun e => e.1 != key
    order := c.order.filter fun k => k != key }

/-- Makes a key the most recently used one. -/
def touch (c : LocationCache) (key : UInt64) : LocationCache :=
  { c with order := (c.order.filter fun k => k != key) ++ [key] }

/-- The age of an entry is past the time to live; a clock that went back makes no entry old. -/
def expired (c : LocationCache) (entry : CachedLocation) (now : Nat) : Bool :=
  decide (c.ttlMs < now - entry.time)

/-- Looks a key up and uses it; an entry that is too old is dropped instead. -/
def get (c : LocationCache) (key : UInt64) (now : Nat) : Option CachedLocation × LocationCache :=
  match c.find? key with
  | none => (none, c)
  | some entry => if c.expired entry now then (none, c.remove key) else (some entry, c.touch key)

/-- Forgets the least recently used keys past the bound. -/
def evict : Nat → LocationCache → LocationCache
  | 0, c => c
  | fuel + 1, c =>
    if c.size ≤ c.capacity then c
    else match c.order with
      | [] => c
      | oldest :: rest =>
        evict fuel { c with order := rest, entries := c.entries.filter fun e => e.1 != oldest }

/-- Stores a location as the most recently used one. -/
def insert (c : LocationCache) (key : UInt64) (x y : Int) (now : Nat) : LocationCache :=
  let stored := { c with
    entries := (key, { x, y, time := now }) :: c.entries.filter fun e => e.1 != key }
  let touched := stored.touch key
  evict touched.order.length touched

end LocationCache

end Screenplay
