import Coap.Table
import Coap.Time

namespace Coap

/-!
# Bounded caches with idle expiry

A cache holds values under keys and remembers when each was last touched. If it
has a capacity, a new key that finds it full pushes out the least recently
touched entry, which is handed back. If it has an idle timeout, an entry not
touched for that long is no longer found; it is dropped when it is looked up, or
by a sweep.

Two tables are kept. `entries` leads from a key to its value, the time of the
last touch and a stamp. `order` leads from stamps to keys, oldest stamp first.
Every touch draws a fresh stamp and moves the key to the end of `order`.

A call takes one instant. Whatever it asks of the clock, once to see whether
an entry is idle and once more to touch it, or anew for each entry of a
sweep, has the same answer.
-/

/-- A stored value with its last touch. -/
structure Slot (V : Type) where
  value : V
  touched : Timestamp
  stamp : Nat
deriving DecidableEq, Repr

/-- The cache. -/
structure Cache (K V : Type) where
  entries : Table K (Slot V) := []
  order : Table Nat K := []
  nextStamp : Nat := 0
  capacity : Option Nat := none
  /-- After how many nanoseconds without a touch an entry counts as idle. -/
  idle : Option Nat := none
deriving DecidableEq, Repr

namespace Cache

variable {K V : Type}

/-- A cache without idle timeout that holds at most `capacity` entries. -/
def withCapacity (capacity : Nat) : Cache K V :=
  { capacity := some capacity }

/-- A cache without bound whose entries are idle after `idle` nanoseconds. -/
def withIdle (idle : Nat) : Cache K V :=
  { idle := some idle }

/-- The number of stored entries, idle ones included. -/
def size (cache : Cache K V) : Nat :=
  cache.entries.length

/-- Whether nothing is stored. -/
def isEmpty (cache : Cache K V) : Bool :=
  cache.size == 0

/-- The keys of all stored entries, least recently touched first. -/
def keys (cache : Cache K V) : List K :=
  cache.order.map Prod.snd

/-- Whether a slot has not been touched for the idle timeout. -/
def isIdle
    (cache : Cache K V)
    (now : Timestamp)
    (slot : Slot V) :
    Bool :=
  match cache.idle with
  | some idle => decide (idle ≤ now.since slot.touched)
  | none => false

variable [DecidableEq K]

/-- Remove the least recently touched entry. -/
def evict (cache : Cache K V) : Option (K × V) × Cache K V :=
  match cache.order with
  | [] => (none, cache)
  | (_, key) :: rest =>
      let cache := { cache with order := rest }
      match cache.entries.find? key with
      | none => (none, cache)
      | some slot =>
          (some (key, slot.value),
            { cache with entries := cache.entries.erase key })

/-- Whether a new key needs an eviction. -/
def isFull (cache : Cache K V) : Bool :=
  match cache.capacity with
  | some capacity => decide (capacity ≤ cache.size)
  | none => false

/-- Store a slot under a fresh stamp, as the most recently touched one. -/
def place
    (cache : Cache K V)
    (now : Timestamp)
    (key : K)
    (value : V) :
    Cache K V :=
  { cache with
    entries := cache.entries.put key ⟨value, now, cache.nextStamp⟩
    order := cache.order.put cache.nextStamp key
    nextStamp := cache.nextStamp + 1 }

/-- Insert or replace; a new key in a full cache pushes out the oldest entry. -/
def insert
    (cache : Cache K V)
    (now : Timestamp)
    (key : K)
    (value : V) :
    Option (K × V) × Cache K V :=
  match cache.entries.find? key with
  | some slot =>
      (none,
        { cache with order := cache.order.erase slot.stamp }.place now key value)
  | none =>
      let (evicted, cache) := if cache.isFull then cache.evict else (none, cache)
      (evicted, cache.place now key value)

/-- Remove an entry, idle or not. -/
def remove
    (cache : Cache K V)
    (key : K) :
    Option V × Cache K V :=
  match cache.entries.find? key with
  | none => (none, cache)
  | some slot =>
      (some slot.value,
        { cache with
          entries := cache.entries.erase key
          order := cache.order.erase slot.stamp })

/-- Remove an entry without looking at it. -/
def erase
    (cache : Cache K V)
    (key : K) :
    Cache K V :=
  (cache.remove key).2

/-- Look up and touch an entry; an idle one is dropped instead. -/
def get
    (cache : Cache K V)
    (now : Timestamp)
    (key : K) :
    Option V × Cache K V :=
  match cache.entries.find? key with
  | none => (none, cache)
  | some slot =>
      if cache.isIdle now slot then (none, cache.erase key)
      else
        (some slot.value,
          { cache with
            order := cache.order.erase slot.stamp }.place now key slot.value)

/-- Look up, touch and change an entry; an idle one is dropped instead. -/
def modify
    (cache : Cache K V)
    (now : Timestamp)
    (key : K)
    (change : V → V) :
    Option V × Cache K V :=
  match cache.entries.find? key with
  | none => (none, cache)
  | some slot =>
      if cache.isIdle now slot then (none, cache.erase key)
      else
        (some (change slot.value),
          { cache with order := cache.order.erase slot.stamp }.place now key
            (change slot.value))

/-- Look up an entry that is not idle, without touching it. -/
def peek?
    (cache : Cache K V)
    (now : Timestamp)
    (key : K) :
    Option V :=
  match cache.entries.find? key with
  | none => none
  | some slot => if cache.isIdle now slot then none else some slot.value

/--
Look up and change an entry without touching it; an idle one is dropped instead.
-/
def adjust
    (cache : Cache K V)
    (now : Timestamp)
    (key : K)
    (change : V → V) :
    Option V × Cache K V :=
  match cache.entries.find? key with
  | none => (none, cache)
  | some slot =>
      if cache.isIdle now slot then (none, cache.erase key)
      else
        (some (change slot.value),
          { cache with
            entries :=
              cache.entries.put key { slot with value := change slot.value } })

/-- Whether an entry that is not idle is stored under a key. -/
def contains
    (cache : Cache K V)
    (now : Timestamp)
    (key : K) :
    Bool :=
  (cache.peek? now key).isSome

/-- The entries that are not idle, least recently touched first. -/
def live
    (cache : Cache K V)
    (now : Timestamp) :
    List (K × V) :=
  cache.keys.filterMap fun key =>
    (cache.peek? now key).map fun value => (key, value)

/-- Remove every idle entry and hand them back. -/
def purge
    (cache : Cache K V)
    (now : Timestamp) :
    List (K × V) × Cache K V :=
  let idle := cache.entries.filter fun entry => cache.isIdle now entry.2
  (idle.map fun entry => (entry.1, entry.2.value),
    idle.foldl (fun cache entry => cache.erase entry.1) cache)

/-- Remove everything, least recently touched first. -/
def drain (cache : Cache K V) : List (K × V) × Cache K V :=
  (cache.keys.filterMap fun key =>
      (cache.entries.find? key).map fun slot => (key, slot.value),
    { cache with
      entries := []
      order := [] })

end Cache

end Coap
