import Henyey.Scp.Driver

/-!
# The values that consensus is about

A value is the encoding of a transaction set, a close time and upgrades. Encoding
and hashing are given from outside.
-/

namespace Henyey.Herder

open Scp

/-- Who closed the ledger this way, and that node's signature. -/
structure LedgerCloseValueSignature (N : Type) where
  nodeId : N
  signature : List UInt8
deriving DecidableEq

inductive StellarValueExt (N : Type) where
  | basic
  | signed (lcValueSignature : LedgerCloseValueSignature N)
deriving DecidableEq

structure StellarValue (N H : Type) where
  txSetHash : H
  closeTime : Nat
  /-- Each upgrade in its encoded form. -/
  upgrades : List (List UInt8)
  ext : StellarValueExt N
deriving DecidableEq

/-- Reading values and hashing envelopes. -/
structure Codec (N V H : Type) where
  stellarValueFromXdr : V → Option (StellarValue N H)
  hashXdr : ScpEnvelope N V H → H

end Henyey.Herder
