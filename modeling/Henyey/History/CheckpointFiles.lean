import Mathlib.Tactic.Ring
import Henyey.History.Crashes

/-!
# Files of a checkpoint

Which ledgers a checkpoint spans, what the records of a file are read back as, and what
recovery keeps of a file that lost no entry.
-/

namespace Henyey.History

open Foundation List

/-! ### Checkpoints -/

namespace CheckpointFrequency

variable (freq : CheckpointFrequency)

theorem isCheckpointLedger_iff (seq : Nat) :
    freq.isCheckpointLedger seq = true ↔ seq % freq.value = freq.value - 1 := by
  have hpos := freq.pos
  have hlt := Nat.mod_lt seq hpos
  unfold isCheckpointLedger
  rw [beq_iff_eq, Nat.add_mod]
  constructor
  · intro hzero
    by_contra hne
    have hsmall : seq % freq.value + 1 < freq.value := by omega
    rw [Nat.mod_eq_of_lt (by omega : 1 < freq.value), Nat.mod_eq_of_lt hsmall] at hzero
    omega
  · intro hlast
    rcases Nat.lt_or_ge 1 freq.value with hmore | hone
    · rw [Nat.mod_eq_of_lt hmore, hlast, Nat.sub_add_cancel hpos, Nat.mod_self]
    · have : freq.value = 1 := by omega
      simp [this, Nat.mod_one]

theorem checkpointLedger_div (seq : Nat) :
    freq.checkpointLedger seq / freq.value = seq / freq.value := by
  have hpos := freq.pos
  have hlt : freq.value - 1 < freq.value := by omega
  unfold checkpointLedger
  rw [Nat.mul_comm, Nat.mul_add_div hpos, Nat.div_eq_of_lt hlt, Nat.add_zero]

theorem checkpointLedger_of_isCheckpointLedger {seq : Nat}
    (hlast : freq.isCheckpointLedger seq = true) : freq.checkpointLedger seq = seq := by
  rw [isCheckpointLedger_iff] at hlast
  have hdiv := Nat.div_add_mod' seq freq.value
  unfold checkpointLedger
  omega

theorem checkpointLedger_succ {seq : Nat} (hlast : freq.isCheckpointLedger seq = false) :
    freq.checkpointLedger (seq + 1) = freq.checkpointLedger seq := by
  have hnot : ¬ freq.value ∣ seq + 1 := by
    intro hdvd
    have hzero := Nat.mod_eq_zero_of_dvd hdvd
    simp [isCheckpointLedger, hzero] at hlast
  unfold checkpointLedger
  rw [Nat.succ_div_of_not_dvd hnot]

theorem checkpointStart_succ {lcl : Nat} (hboundary : freq.Boundary lcl) :
    freq.checkpointStart (freq.checkpointLedger (lcl + 1)) = lcl + 1 := by
  have hpos := freq.pos
  have hsmall : ∀ seq, freq.checkpointStart (freq.checkpointLedger seq) =
      if seq / freq.value = 0 then 1 else seq / freq.value * freq.value := by
    intro seq
    unfold checkpointStart
    rw [checkpointLedger_div]
    have hiff : freq.checkpointLedger seq < freq.value ↔ seq / freq.value = 0 := by
      rw [← Nat.div_eq_zero_iff_lt hpos, checkpointLedger_div]
    simp only [hiff]
  rw [hsmall]
  rcases hboundary with rfl | hlast
  · rcases Nat.lt_or_ge 1 freq.value with hmore | hone
    · rw [if_pos (Nat.div_eq_of_lt hmore)]
    · have : freq.value = 1 := by omega
      simp [this]
  · unfold isCheckpointLedger at hlast
    have hdiv := Nat.div_add_mod' (lcl + 1) freq.value
    rw [beq_iff_eq] at hlast
    rw [hlast, Nat.add_zero] at hdiv
    split
    next hzero => rw [hzero] at hdiv; omega
    · exact hdiv

/-- A ledger that ends no checkpoint, other than the one before the first, lies in its
checkpoint behind the start. -/
theorem checkpointStart_lt {lcl : Nat} (hboundary : ¬ freq.Boundary lcl) :
    freq.checkpointStart (freq.checkpointLedger (lcl + 1)) ≤ lcl := by
  have hfalse : freq.isCheckpointLedger lcl = false := by
    cases hlast : freq.isCheckpointLedger lcl with
    | false => rfl
    | true => exact absurd (Or.inr hlast) hboundary
  have hzero : lcl ≠ 0 := fun h => hboundary (Or.inl h)
  rw [checkpointLedger_succ freq hfalse]
  unfold checkpointStart
  split
  · omega
  · rw [checkpointLedger_div]
    exact Nat.div_mul_le_self lcl freq.value

end CheckpointFrequency

/-! ### Records -/

section Records

variable {α : Type} (codec : Codec α)

theorem readOneFromGz_append (entry : α) (rest : List UInt8) (ending : Ending) :
    readOneFromGz codec ⟨writeRecordMarkedXdr codec entry ++ rest, ending⟩ =
      .ok (some (entry, ⟨rest, ending⟩)) := by
  have hshort := codec.length_encode_lt entry
  have hlen : (codec.encode entry).length % 2 ^ 32 = (codec.encode entry).length :=
    Nat.mod_eq_of_lt (by omega)
  have hmark : ofBeBytes (beBytes ((codec.encode entry).length ||| 0x80000000)) &&& 0x7FFFFFFF =
      (codec.encode entry).length := by
    rw [ofBeBytes_beBytes (Nat.or_lt_two_pow (by omega) (by decide)), and_or_mark hshort]
  unfold readOneFromGz writeRecordMarkedXdr
  simp only [hlen, append_assoc]
  have hheader := Stream.readExact_append
    (beBytes ((codec.encode entry).length ||| 0x80000000))
    (codec.encode entry ++ (replicate (paddingOf (codec.encode entry).length) 0 ++ rest))
    ending
  rw [length_beBytes] at hheader
  rw [hheader]
  simp only [hmark, Stream.readExact_append]
  have hpadding := Stream.readExact_append
    (replicate (paddingOf (codec.encode entry).length) 0) rest ending
  rw [length_replicate] at hpadding
  rw [hpadding]
  simp only [codec.decode_encode]

/-- At the end of the bytes there is no record, and an error of another kind shows. -/
theorem readOneFromGz_nil (ending : Ending) :
    readOneFromGz codec ⟨[], ending⟩ =
      if ending.error = .unexpectedEof then .ok none else .error ending.error := by
  unfold readOneFromGz
  rw [Stream.readExact_nil (by decide)]
  cases ending.error <;> rfl

theorem encodeAll_append (first rest : List α) :
    encodeAll codec (first ++ rest) = encodeAll codec first ++ encodeAll codec rest := by
  simp [encodeAll]

def endsOn (getLedgerSeq : α → Nat) (lastRead : Nat) (entries : List α) : Nat :=
  entries.foldl (fun _ entry => getLedgerSeq entry) lastRead

/-- Of a file that lost no entry recovery keeps every entry, unless the file ends on the
wrong ledger. -/
theorem recoverEntries_encodeAll {getLedgerSeq : α → Nat} {dirtyPath : Path} {lcl : Nat}
    {enforceLcl : Bool} {entries : List α} (hle : ∀ entry ∈ entries, getLedgerSeq entry ≤ lcl)
    (lastRead : Nat) (written : List UInt8) (ending : Ending) :
    recoverEntries codec getLedgerSeq dirtyPath lcl enforceLcl lastRead written
        ⟨encodeAll codec entries, ending⟩ =
      if ending.error = .unexpectedEof ∧ enforceLcl = true ∧
          endsOn getLedgerSeq lastRead entries ≠ 0 ∧
          endsOn getLedgerSeq lastRead entries ≠ lcl then
        .error (.corruptCheckpointFile dirtyPath (endsOn getLedgerSeq lastRead entries) lcl)
      else
        .ok (written ++ encodeAll codec entries) := by
  induction entries generalizing lastRead written with
  | nil =>
    rw [recoverEntries]
    have hread : readOneFromGz codec ⟨encodeAll codec [], ending⟩ = _ :=
      readOneFromGz_nil codec ending
    split
    next entry rest hsome =>
      rw [hread] at hsome
      split at hsome <;> cases hsome
    next hnone =>
      rw [hread] at hnone
      split at hnone
      next heof => simp [heof, endsOn, encodeAll, Bool.and_assoc]
      next hother => cases hnone
    next error herror =>
      rw [hread] at herror
      split at herror
      next heof => cases herror
      next hother => simp [hother, encodeAll]
  | cons entry rest ih =>
    have hread : readOneFromGz codec ⟨encodeAll codec (entry :: rest), ending⟩ =
        .ok (some (entry, ⟨encodeAll codec rest, ending⟩)) :=
      readOneFromGz_append codec entry (encodeAll codec rest) ending
    have hentry : ¬ lcl < getLedgerSeq entry := Nat.not_lt.mpr (hle entry mem_cons_self)
    rw [recoverEntries]
    split
    next other reached hsome =>
      rw [hread] at hsome
      cases hsome
      rw [if_neg hentry, ih fun other hother => hle other (mem_cons_of_mem _ hother)]
      simp only [endsOn, foldl_cons, encodeAll, flatMap_cons, append_assoc]
    next hnone => rw [hread] at hnone; cases hnone
    next error herror => rw [hread] at herror; cases herror

end Records

/-! ### Contents -/

namespace Chain

variable {E : Category → Type} {format : Format E} (chain : Chain format)

@[simp] theorem upTo_self (category : Category) (first : Nat) :
    chain.upTo category first first = [] := by
  simp [upTo]

theorem upTo_append {first mid next : Nat} (hfirst : first ≤ mid) (hmid : mid ≤ next)
    (category : Category) :
    chain.upTo category first next = chain.upTo category first mid ++ chain.upTo category mid next := by
  unfold upTo
  rw [← flatMap_append]
  congr 1
  have hsum : next - first = (mid - first) + (next - mid) := by omega
  rw [hsum, ← range'_append_1, Nat.add_sub_cancel' hfirst]

variable {first next : Nat}

theorem upTo_succ (hfirst : first ≤ next) (category : Category) :
    chain.upTo category first (next + 1) =
      chain.upTo category first next ++ (chain.ledger next).entries category := by
  rw [chain.upTo_append hfirst (Nat.le_succ next)]
  simp [upTo, range'_one]

@[simp] theorem content_self (category : Category) (first : Nat) :
    chain.content category first first = [] := by
  simp [content, encodeAll]

theorem content_succ (hfirst : first ≤ next) (category : Category) :
    chain.content category first (next + 1) = chain.content category first next ++
      encodeAll (format.codec category) ((chain.ledger next).entries category) := by
  unfold content
  rw [chain.upTo_succ hfirst, encodeAll_append]

theorem ledgerSeq_lt_of_mem_upTo {category : Category} {entry : E category} (hnext : next ≤ 2 ^ 32)
    (hentry : entry ∈ chain.upTo category first next) : format.ledgerSeq category entry < next := by
  unfold upTo at hentry
  obtain ⟨seq, hseq, hmem⟩ := mem_flatMap.mp hentry
  have hrange := mem_range'_1.mp hseq
  have hlt : seq < next := by omega
  rw [chain.ledgerSeq seq (by omega) category entry hmem]
  exact hlt

end Chain

end Henyey.History
