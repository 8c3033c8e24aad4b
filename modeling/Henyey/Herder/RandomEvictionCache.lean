import Mathlib.Data.List.AList

/-!
# A cache with random eviction

A full cache draws two entries and evicts the one that was used longer ago. The
draws come with the call.
-/

namespace Henyey.Herder

structure CacheEntry (ν : Type) where
  value : ν
  lastAccess : Nat

structure RandomEvictionCache (κ ν : Type) where
  map : AList fun _ : κ => CacheEntry ν
  keys : List κ
  generation : Nat
  capacity : Nat

namespace RandomEvictionCache

variable {κ ν : Type} [DecidableEq κ]

def new (capacity : Nat) : RandomEvictionCache κ ν where
  map := ∅
  keys := []
  generation := 0
  capacity

def «exists» (cache : RandomEvictionCache κ ν) (key : κ) : Bool :=
  (cache.map.lookup key).isSome

def lastAccessOf (cache : RandomEvictionCache κ ν) (key : κ) : Nat :=
  ((cache.map.lookup key).map CacheEntry.lastAccess).getD 0

/-- Evict the older of two drawn entries, the second one when they tie. -/
def evictOne (cache : RandomEvictionCache κ ν) (draws : Nat × Nat) : RandomEvictionCache κ ν :=
  let size := cache.keys.length
  let i₁ := draws.1 % size
  let i₂ := draws.2 % size
  match cache.keys[i₁]?, cache.keys[i₂]?, cache.keys.getLast? with
  | some key₁, some key₂, some lastKey =>
    let older := cache.lastAccessOf key₁ < cache.lastAccessOf key₂
    let victimIdx := if older then i₁ else i₂
    let victimKey := if older then key₁ else key₂
    { cache with
      map := cache.map.erase victimKey
      keys := (cache.keys.set victimIdx lastKey).dropLast }
  | _, _, _ => cache

def put (cache : RandomEvictionCache κ ν) (key : κ) (value : ν) (draws : Nat × Nat) :
    RandomEvictionCache κ ν :=
  let generation := cache.generation + 1
  let entry : CacheEntry ν := { value, lastAccess := generation }
  if cache.exists key then { cache with map := cache.map.insert key entry, generation }
  else
    let cache := { cache with
      map := cache.map.insert key entry
      keys := cache.keys ++ [key]
      generation }
    if cache.keys.length > cache.capacity then cache.evictOne draws else cache

end RandomEvictionCache

end Henyey.Herder
