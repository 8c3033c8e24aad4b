import Mathlib.Data.List.Sort
import Henyey.Scp.Quorum

/-!
# Normal form of quorum sets

Normalization drops a node, lifts singleton inner sets, collapses a set that
only wraps another one, and puts members in order.
-/

namespace Henyey.Scp

variable {N : Type}

def U32.saturatingSub (a b : U32) : U32 := ⟨a.val - b.val, by omega⟩

mutual

/-- All nodes in the order in which the source visits them. -/
def allNodes : ScpQuorumSet N → List N
  | .mk _ validators innerSets => validators ++ innerNodes innerSets

def innerNodes : List (ScpQuorumSet N) → List N
  | [] => []
  | inner :: rest => allNodes inner ++ innerNodes rest

end

def singletonMember : ScpQuorumSet N → Option N
  | .mk 1 [node] [] => some node
  | _ => none

def collapse : ScpQuorumSet N → ScpQuorumSet N
  | .mk 1 [] [inner] => inner
  | quorumSet => quorumSet

section Simplify

variable [DecidableEq N]

/-- Drop a node from the validators and lower the threshold by its
occurrences. -/
def removeNode (idToRemove : Option N) (threshold : U32) (validators : List N) : U32 × List N :=
  match idToRemove with
  | none => (threshold, validators)
  | some id =>
    let kept := validators.filter (fun node => node != id)
    (U32.saturatingSub threshold (Fin.ofNat _ (validators.length - kept.length)), kept)

mutual

def normalizeQuorumSetSimplify (idToRemove : Option N) : ScpQuorumSet N → ScpQuorumSet N
  | .mk threshold validators innerSets =>
    let (threshold, validators) := removeNode idToRemove threshold validators
    let (lifted, innerSets) := simplifyInnerSets idToRemove innerSets
    collapse (.mk threshold (validators ++ lifted) innerSets)

def simplifyInnerSets (idToRemove : Option N) :
    List (ScpQuorumSet N) → List N × List (ScpQuorumSet N)
  | [] => ([], [])
  | inner :: rest =>
    let inner := normalizeQuorumSetSimplify idToRemove inner
    let (lifted, innerSets) := simplifyInnerSets idToRemove rest
    match singletonMember inner with
    | some node => (node :: lifted, innerSets)
    | none => (lifted, inner :: innerSets)

end

end Simplify

section Reorder

variable [LinearOrder N]

/-- The first difference within the common length decides. -/
def compareValidators : List N → List N → Ordering
  | a :: as, b :: bs => (compare a b).then (compareValidators as bs)
  | _, _ => .eq

mutual

def quorumSetCmp : ScpQuorumSet N → ScpQuorumSet N → Ordering
  | .mk threshold validators innerSets, .mk threshold' validators' innerSets' =>
    (compareValidators validators validators').then <|
      (compare validators.length validators'.length).then <|
        (compareInnerSets innerSets innerSets').then <|
          (compare innerSets.length innerSets'.length).then <|
            compare threshold threshold'

def compareInnerSets : List (ScpQuorumSet N) → List (ScpQuorumSet N) → Ordering
  | a :: as, b :: bs => (quorumSetCmp a b).then (compareInnerSets as bs)
  | _, _ => .eq

end

mutual

def normalizeQuorumSetReorder : ScpQuorumSet N → ScpQuorumSet N
  | .mk threshold validators innerSets =>
    .mk threshold (validators.insertionSort (· ≤ ·))
      ((reorderInnerSets innerSets).insertionSort (fun a b => quorumSetCmp a b ≠ .gt))

def reorderInnerSets : List (ScpQuorumSet N) → List (ScpQuorumSet N)
  | [] => []
  | inner :: rest => normalizeQuorumSetReorder inner :: reorderInnerSets rest

end

def normalizeQuorumSetWithRemove (quorumSet : ScpQuorumSet N) (idToRemove : Option N) :
    ScpQuorumSet N :=
  normalizeQuorumSetReorder (normalizeQuorumSetSimplify idToRemove quorumSet)

end Reorder

end Henyey.Scp
