import Mathlib.Data.List.AList
import Henyey.Herder.StellarValue

/-!
# Fetching items that envelopes wait for

One tracker for each missing item keeps the envelopes that wait for it. Which
peer is asked when does not matter here.
-/

namespace Henyey.Herder

open Scp

variable {N V H : Type} [DecidableEq H]

/-- The envelopes that wait for one item, each with its hash. -/
structure Tracker (N V H : Type) where
  waitingEnvelopes : List (H × ScpEnvelope N V H)
  lastSeenSlotIndex : Nat

namespace Tracker

def new : Tracker N V H where
  waitingEnvelopes := []
  lastSeenSlotIndex := 0

def isEmpty (tracker : Tracker N V H) : Bool :=
  tracker.waitingEnvelopes.isEmpty

/-- Add an envelope, unless it already waits. -/
def listen (codec : Codec N V H) (tracker : Tracker N V H) (env : ScpEnvelope N V H) :
    Tracker N V H :=
  let tracker :=
    { tracker with lastSeenSlotIndex := max tracker.lastSeenSlotIndex env.statement.slotIndex }
  let envHash := codec.hashXdr env
  if tracker.waitingEnvelopes.any (fun waiting => waiting.1 == envHash) then tracker
  else { tracker with waitingEnvelopes := tracker.waitingEnvelopes ++ [(envHash, env)] }

def discard (codec : Codec N V H) (tracker : Tracker N V H) (env : ScpEnvelope N V H) :
    Tracker N V H :=
  let envHash := codec.hashXdr env
  { tracker with
    waitingEnvelopes := tracker.waitingEnvelopes.filter fun waiting => waiting.1 != envHash }

end Tracker

/-- Which slots survive an erasure. -/
def keepsSlot (minSlot maxSlot : Option Nat) (slotToKeep slot : Nat) : Bool :=
  slot == slotToKeep ||
    !(minSlot.any (fun m => slot < m) || maxSlot.any (fun m => slot > m))

namespace Tracker

/-- Forget the envelopes of erased slots; nothing remains of an empty tracker. -/
def clearEnvelopesOutsideRange (minSlot maxSlot : Option Nat) (slotToKeep : Nat)
    (tracker : Tracker N V H) : Option (Tracker N V H) :=
  let waitingEnvelopes := tracker.waitingEnvelopes.filter fun waiting =>
    keepsSlot minSlot maxSlot slotToKeep waiting.2.statement.slotIndex
  if waitingEnvelopes.isEmpty then none
  else
    some {
      waitingEnvelopes
      lastSeenSlotIndex :=
        (waitingEnvelopes.map fun waiting => waiting.2.statement.slotIndex).foldr max 0 }

end Tracker

structure ItemFetcher (N V H : Type) where
  /-- Zero for no bound. -/
  maxTrackers : Nat
  trackers : AList fun _ : H => Tracker N V H

namespace ItemFetcher

def new (maxTrackers : Nat) : ItemFetcher N V H where
  maxTrackers
  trackers := ∅

def isTracking (fetcher : ItemFetcher N V H) (itemHash : H) : Bool :=
  (fetcher.trackers.lookup itemHash).isSome

/-- Let an envelope wait for an item. Refused when the item is new and there are
too many trackers. -/
def fetch (codec : Codec N V H) (fetcher : ItemFetcher N V H) (itemHash : H)
    (envelope : ScpEnvelope N V H) : ItemFetcher N V H × Bool :=
  match fetcher.trackers.lookup itemHash with
  | some tracker =>
    ({ fetcher with
      trackers := fetcher.trackers.insert itemHash (tracker.listen codec envelope) }, true)
  | none =>
    if fetcher.maxTrackers > 0 ∧ fetcher.trackers.keys.length ≥ fetcher.maxTrackers then
      (fetcher, false)
    else
      ({ fetcher with
        trackers := fetcher.trackers.insert itemHash (Tracker.new.listen codec envelope) }, true)

def stopFetch (codec : Codec N V H) (fetcher : ItemFetcher N V H) (itemHash : H)
    (envelope : ScpEnvelope N V H) : ItemFetcher N V H :=
  match fetcher.trackers.lookup itemHash with
  | none => fetcher
  | some tracker =>
    let tracker := tracker.discard codec envelope
    if tracker.isEmpty then { fetcher with trackers := fetcher.trackers.erase itemHash }
    else { fetcher with trackers := fetcher.trackers.insert itemHash tracker }

def fetchingFor (fetcher : ItemFetcher N V H) (itemHash : H) : List (ScpEnvelope N V H) :=
  ((fetcher.trackers.lookup itemHash).map fun tracker =>
    tracker.waitingEnvelopes.map Prod.snd).getD []

def stopFetchingOutsideRange (fetcher : ItemFetcher N V H) (minSlot maxSlot : Option Nat)
    (slotToKeep : Nat) : ItemFetcher N V H :=
  { fetcher with
    trackers := (fetcher.trackers.entries.filterMap fun entry =>
      (entry.2.clearEnvelopesOutsideRange minSlot maxSlot slotToKeep).map
        fun tracker => (⟨entry.1, tracker⟩ : Sigma fun _ : H => Tracker N V H)).toAList }

/-- The item arrived: its tracker goes and its envelopes are handed back. -/
def recv (fetcher : ItemFetcher N V H) (itemHash : H) :
    ItemFetcher N V H × List (ScpEnvelope N V H) :=
  ({ fetcher with trackers := fetcher.trackers.erase itemHash }, fetcher.fetchingFor itemHash)

/-- Forget every tracker. -/
def clear (fetcher : ItemFetcher N V H) : ItemFetcher N V H :=
  { fetcher with trackers := ∅ }

end ItemFetcher

end Henyey.Herder
