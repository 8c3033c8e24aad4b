import Mathlib.Data.Nat.Bitwise
import Mathlib.Data.List.Basic

/-!
# Byte streams

Reading a fixed number of bytes from what is left of a stream, big-endian lengths with
a mark in the top bit, and encodings that are read back.
-/

namespace Foundation

/-! ### Big-endian numbers -/

/-- The four bytes of a number, most significant first. -/
def beBytes (n : Nat) : List UInt8 :=
  [UInt8.ofNat (n / 2 ^ 24), UInt8.ofNat (n / 2 ^ 16), UInt8.ofNat (n / 2 ^ 8), UInt8.ofNat n]

def ofBeBytes (bytes : List UInt8) : Nat :=
  bytes.foldl (fun n byte => n * 256 + byte.toNat) 0

@[simp] theorem length_beBytes (n : Nat) : (beBytes n).length = 4 := rfl

theorem ofBeBytes_beBytes {n : Nat} (hn : n < 2 ^ 32) : ofBeBytes (beBytes n) = n := by
  simp only [ofBeBytes, beBytes, List.foldl_cons, List.foldl_nil, UInt8.toNat_ofNat']
  omega

/-- The mark in the top bit leaves the length below it readable. -/
theorem and_or_mark {n : Nat} (hn : n < 2 ^ 31) : (n ||| 0x80000000) &&& 0x7FFFFFFF = n := by
  have hsum : 2 ^ 31 * 1 + n = 2 ^ 31 * 1 ||| n := Nat.two_pow_add_eq_or_of_lt hn 1
  have hmask := Nat.and_two_pow_sub_one_eq_mod (2 ^ 31 * 1 + n) 31
  rw [Nat.mul_add_mod, Nat.mod_eq_of_lt hn, hsum, Nat.or_comm] at hmask
  exact hmask

/-! ### Encodings -/

/-- An encoding that is read back; no value takes more bytes than a marked length can say. -/
structure Codec (α : Type) where
  encode : α → List UInt8
  decode : List UInt8 → Option α
  decode_encode : ∀ value, decode (encode value) = some value
  length_encode_lt : ∀ value, (encode value).length < 2 ^ 31

/-! ### Streams -/

inductive ReadError where
  | unexpectedEof
  | other
  deriving DecidableEq, Repr

/-- How a stream ends: it was written to its end, or it breaks off and the reader sees an
error there. -/
inductive Ending where
  | finished
  | cut (error : ReadError)
  deriving DecidableEq, Repr

/-- What a reader that asks for more than there is gets to see. -/
def Ending.error : Ending → ReadError
  | finished => .unexpectedEof
  | cut error => error

structure Stream where
  bytes : List UInt8
  ending : Ending
  deriving DecidableEq

namespace Stream

/-- A stream that was written to its end. -/
def whole (bytes : List UInt8) : Stream :=
  { bytes, ending := .finished }

/-- Read exactly so many bytes. -/
def readExact (s : Stream) (count : Nat) : Except ReadError (List UInt8 × Stream) :=
  if count ≤ s.bytes.length then
    .ok (s.bytes.take count, { s with bytes := s.bytes.drop count })
  else
    .error s.ending.error

theorem readExact_append (first rest : List UInt8) (ending : Ending) :
    readExact ⟨first ++ rest, ending⟩ first.length = .ok (first, ⟨rest, ending⟩) := by
  unfold readExact
  split
  · simp
  next hshort => simp at hshort

theorem readExact_nil {count : Nat} (hcount : 0 < count) (ending : Ending) :
    readExact ⟨[], ending⟩ count = .error ending.error := by
  unfold readExact
  split
  next hshort => simp at hshort; omega
  · rfl

theorem length_of_readExact {s reached : Stream} {count : Nat} {read : List UInt8}
    (hread : s.readExact count = .ok (read, reached)) :
    reached.bytes.length + count = s.bytes.length := by
  unfold readExact at hread
  split at hread
  next hlong =>
    cases hread
    simp only [List.length_drop]
    omega
  · cases hread

end Stream

end Foundation
