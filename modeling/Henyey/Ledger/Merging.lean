import Henyey.Ledger.Batch
import Henyey.Ledger.Checkpoint

/-!
# Merging deltas

Merging a delta that was recorded on top of another one does what recording its
operations there would do, as long as no TTL entry loses life. Deltas of
parallel clusters that share nothing but bumps of TTL entries merge to the same
batch in any order.
-/

namespace Henyey.Ledger

open LedgerDelta EntryChange List Performed
open EntryChange

variable {I D : Type}

/-! ### One key -/

/-- The change of a key after the change of another delta was brought in. -/
def EntryChange.merged : Option (EntryChange I D) → Option (EntryChange I D) →
    Option (EntryChange I D)
  | none, existing => existing
  | some (.created entry), some (.deleted previous) => some (.updated previous entry)
  | some (.created entry), _ => some (.created entry)
  | some (.updated _ current), some (.created _) => some (.created current)
  | some (.updated _ current), some (.updated orig existing) =>
    some (.updated orig (later existing current))
  | some (.updated previous current), _ => some (.updated previous current)
  | some (.deleted _), some (.created _) => none
  | some (.deleted _), some (.updated orig _) => some (.deleted orig)
  | some (.deleted _), some (.deleted previous) => some (.deleted previous)
  | some (.deleted previous), none => some (.deleted previous)

theorem EntryChange.merged_none (change : Option (EntryChange I D)) :
    merged change none = change := by
  rcases change with _ | (_ | _ | _) <;> rfl

def EntryChange.Mergeable : EntryChange I D → Option (EntryChange I D) → Prop
  | .created _, some (.updated _ _) => False
  | .updated _ _, some (.deleted _) => False
  | _, _ => True

namespace LedgerDelta

variable [DecidableEq I] {d other : LedgerDelta I D} {key : LedgerKey I}

theorem mergeChange_replaces (hd : d.WellFormed) {change : EntryChange I D}
    (hunder : change.Under key) (hmergeable : change.Mergeable (d.changes key)) :
    ∃ d', mergeChange key change d = .ok d' ∧
      d.Replaces key (merged (some change) (d.changes key)) d' := by
  unfold mergeChange
  have hexisting := hd.under key
  cases hchange : d.changes key with
  | none =>
    cases change with
    | created entry => exact ⟨_, rfl, push_replaces hchange⟩
    | updated previous current => exact ⟨_, rfl, push_replaces hchange⟩
    | deleted previous => exact ⟨_, rfl, push_replaces hchange⟩
  | some existing =>
    rw [hchange] at hmergeable
    cases change with
    | created entry =>
      cases existing with
      | created _ => exact ⟨_, rfl, insert_replaces hchange _⟩
      | updated _ _ => exact hmergeable.elim
      | deleted previous => exact ⟨_, rfl, insert_replaces hchange _⟩
    | updated previous current =>
      cases existing with
      | created _ => exact ⟨_, rfl, insert_replaces hchange _⟩
      | updated orig existing =>
        have hkeys := hexisting _ hchange
        obtain rfl : entryToKey current = key := hunder.2
        dsimp only
        rw [mergeTtlCurrent_eq hkeys.2]
        exact ⟨_, rfl, insert_replaces hchange _⟩
      | deleted _ => exact hmergeable.elim
    | deleted previous =>
      cases existing with
      | created _ => exact ⟨_, rfl, remove_replaces⟩
      | updated orig _ => exact ⟨_, rfl, insert_replaces hchange _⟩
      | deleted previous => exact ⟨_, rfl, .same hchange⟩

omit [DecidableEq I] in
theorem under_merged {incoming existing : Option (EntryChange I D)}
    (hincoming : ∀ c ∈ incoming, c.Under key) (hexisting : ∀ c ∈ existing, c.Under key) :
    ∀ c ∈ merged incoming existing, c.Under key := by
  cases incoming with
  | none => exact hexisting
  | some change =>
    have hchange := hincoming change rfl
    cases existing with
    | none =>
      cases change <;> simpa [merged, EntryChange.Under] using hchange
    | some existing =>
      have hprevious := hexisting existing rfl
      cases change with
      | created entry =>
        cases existing <;> simp_all [merged, EntryChange.Under]
      | updated previous current =>
        cases existing with
        | created _ => simpa [merged, EntryChange.Under] using hchange.2
        | updated orig existing =>
          have hlater := entryToKey_later (hprevious.2.trans hchange.2.symm)
          simpa [merged, EntryChange.Under, hlater] using
            ⟨hprevious.1, hchange.2⟩
        | deleted _ => simpa [merged, EntryChange.Under] using hchange
      | deleted previous =>
        cases existing <;> simp_all [merged, EntryChange.Under]

theorem mergeChanges_spec {changes : LedgerKey I → Option (EntryChange I D)}
    (hunder : ∀ key, ∀ c ∈ changes key, c.Under key) {keys : List (LedgerKey I)}
    (hnodup : keys.Nodup) {d : LedgerDelta I D} (hd : d.WellFormed)
    (hmergeable : ∀ key ∈ keys, ∀ c ∈ changes key, c.Mergeable (d.changes key)) :
    ∃ d', mergeChanges changes keys d = .ok d' ∧ d'.WellFormed ∧
      (∀ key, d'.changes key =
        if key ∈ keys then merged (changes key) (d.changes key) else d.changes key) ∧
      d'.ledgerSeq = d.ledgerSeq ∧ d'.feePoolDelta = d.feePoolDelta ∧
      d'.totalCoinsDelta = d.totalCoinsDelta := by
  induction keys generalizing d with
  | nil => exact ⟨d, rfl, hd, by simp, rfl, rfl, rfl⟩
  | cons key keys ih =>
    obtain ⟨hfresh, hnodup⟩ := nodup_cons.mp hnodup
    have hrest : ∀ k ∈ keys, k ≠ key := fun k hk h => hfresh (h ▸ hk)
    cases hchange : changes key with
    | none =>
      obtain ⟨d', hmerged, hd', hchanges, htotals⟩ := ih hnodup hd
        fun k hk => hmergeable k (mem_cons_of_mem _ hk)
      refine ⟨d', ?_, hd', fun k => ?_, htotals⟩
      · simpa only [mergeChanges, hchange] using hmerged
      · rw [hchanges k]
        by_cases hk : k = key
        · subst hk
          simp [hfresh, hchange, merged]
        · simp [hk]
    | some change =>
      obtain ⟨d₁, hone, hreplaces⟩ := mergeChange_replaces hd (hunder key change hchange)
        (hmergeable key mem_cons_self change hchange)
      have hd₁ : d₁.WellFormed := hreplaces.wellFormed hd
        (under_merged (fun c hc => hunder key c (hchange.trans hc)) (hd.under key))
      have hother : ∀ k ∈ keys, d₁.changes k = d.changes k := by
        intro k hk
        rw [hreplaces.changes, Function.update_of_ne (hrest k hk)]
      obtain ⟨d', hmerged, hd', hchanges, hseq, hfees, hcoins⟩ := ih hnodup hd₁ fun k hk => by
        rw [hother k hk]
        exact hmergeable k (mem_cons_of_mem _ hk)
      refine ⟨d', ?_, hd', fun k => ?_, hseq.trans hreplaces.ledgerSeq,
        hfees.trans hreplaces.feePoolDelta, hcoins.trans hreplaces.totalCoinsDelta⟩
      · simp only [mergeChanges, hchange, hone]
        exact hmerged
      · rw [hchanges k]
        by_cases hk : k = key
        · subst hk
          simp [hfresh, hchange, hreplaces.changes]
        · rw [hreplaces.changes, Function.update_of_ne hk]
          simp [hk]

theorem merge_spec (hd : d.WellFormed) (hother : other.WellFormed)
    (hmergeable : ∀ key, ∀ c ∈ other.changes key, c.Mergeable (d.changes key)) :
    ∃ d', d.merge other = .ok d' ∧ d'.WellFormed ∧
      (∀ key, d'.changes key = merged (other.changes key) (d.changes key)) ∧
      d'.ledgerSeq = d.ledgerSeq ∧ d'.feePoolDelta = d.feePoolDelta + other.feePoolDelta ∧
      d'.totalCoinsDelta = d.totalCoinsDelta + other.totalCoinsDelta := by
  obtain ⟨d', hmerged, hd', hchanges, hseq, hfees, hcoins⟩ :=
    mergeChanges_spec hother.under hother.nodup hd fun key _ => hmergeable key
  refine ⟨{ d' with
      feePoolDelta := d'.feePoolDelta + other.feePoolDelta
      totalCoinsDelta := d'.totalCoinsDelta + other.totalCoinsDelta },
    by simp only [merge, hmerged]; rfl, ⟨hd'.nodup, hd'.listed, hd'.under⟩, fun key => ?_, hseq,
    by simp only [hfees], by simp only [hcoins]⟩
  dsimp only
  rw [hchanges key]
  split
  · rfl
  next hunlisted =>
    rw [hother.listed, Option.not_isSome_iff_eq_none] at hunlisted
    rw [hunlisted]
    rfl

end LedgerDelta

/-! ### The life of one entry -/

/-- What operations do to the entry under a key: whether they delete it, and what they write
since. -/
structure Life (I D : Type) where
  deleted : Bool
  writes : List (LedgerEntry I D)

namespace Life

def start : Life I D := ⟨false, []⟩

def step (life : Life I D) : LedgerOp I D → Life I D
  | .create entry | .update _ entry => { life with writes := life.writes ++ [entry] }
  | .delete _ => ⟨true, []⟩

/-- The write that stays when no write may shorten a life. -/
def longest : List (LedgerEntry I D) → Option (LedgerEntry I D)
  | [] => none
  | first :: rest => some (rest.foldl later first)

/-- Whether there is an entry now, if there was one `before`. -/
def present (before : Bool) (life : Life I D) : Bool :=
  !life.writes.isEmpty || (before && !life.deleted)

@[simp]
theorem longest_nil : longest ([] : List (LedgerEntry I D)) = none := rfl

@[simp]
theorem longest_singleton (entry : LedgerEntry I D) : longest [entry] = some entry := rfl

@[simp]
theorem longest_concat (writes : List (LedgerEntry I D)) (entry : LedgerEntry I D) :
    longest (writes ++ [entry]) = some ((longest writes).elim entry (later · entry)) := by
  cases writes with
  | nil => rfl
  | cons first rest => simp [longest]

/-- There is nothing written, or a longest and a last write. -/
theorem writes_cases (writes : List (LedgerEntry I D)) :
    writes = [] ∨ ∃ first last, writes ≠ [] ∧ longest writes = some first ∧
      writes.getLast? = some last := by
  rcases writes.eq_nil_or_concat' with rfl | ⟨rest, last, rfl⟩
  · exact .inl rfl
  · exact .inr ⟨_, last, by simp, longest_concat rest last, by simp⟩

/-- Creations find no entry, and everything else finds one. -/
def Fits (before : Bool) : Life I D → List (LedgerOp I D) → Prop
  | _, [] => True
  | life, op :: ops =>
    (match op with
      | .create _ => life.present before = false
      | _ => life.present before = true) ∧
    Fits before (life.step op) ops

/-- The change that a life makes of an existing one. -/
def onto (life : Life I D) : EntryChange I D → Option (EntryChange I D)
  | .created entry =>
    if life.writes = [] ∧ life.deleted = true then none
    else some (.created (life.writes.getLast?.getD entry))
  | .updated orig entry =>
    if life.deleted then some ((longest life.writes).elim (.deleted orig) (.updated orig))
    else some (.updated orig (life.writes.foldl later entry))
  | .deleted orig => some ((longest life.writes).elim (.deleted orig) (.updated orig))

/-- The change that a life makes in a delta of its own. -/
def Alone (before : Bool) (life : Life I D) (change : Option (EntryChange I D)) : Prop :=
  if before = true then ∃ previous, change = (longest life.writes).elim
    (if life.deleted then some (.deleted previous) else none) fun last =>
      some (.updated previous last)
  else change = life.writes.getLast?.map .created

/-- An existing change leaves an entry unless it deletes one. -/
def Leaves : EntryChange I D → Bool
  | .deleted _ => false
  | _ => true

theorem onto_step {life : Life I D} {existing : EntryChange I D} {op : LedgerOp I D}
    (hfits : life.Fits (Leaves existing) [op]) :
    recorded op (life.onto existing) = (life.step op).onto existing := by
  obtain ⟨hnow, -⟩ := hfits
  obtain ⟨deleted, writes⟩ := life
  rcases writes_cases writes with rfl | ⟨first, last, hne, hfirst, hlast⟩
  · cases op <;> cases existing <;> cases deleted <;>
      simp_all [present, Leaves, onto, step, recorded]
  · cases op with
    | create entry => simp [present, hne] at hnow
    | update previous entry =>
      cases existing <;> cases deleted <;>
        simp [hne, hfirst, hlast, onto, step, recorded]
    | delete entry =>
      cases existing <;> cases deleted <;>
        simp [hne, hfirst, onto, step, recorded]

theorem Alone.step {life : Life I D} {before : Bool} {op : LedgerOp I D}
    {change : Option (EntryChange I D)} (halone : life.Alone before change)
    (hfits : life.Fits before [op]) : (life.step op).Alone before (recorded op change) := by
  obtain ⟨hnow, -⟩ := hfits
  obtain ⟨deleted, writes⟩ := life
  unfold Alone at halone ⊢
  cases before with
  | false =>
    obtain rfl := halone
    rcases writes_cases writes with rfl | ⟨first, last, hne, hfirst, hlast⟩ <;> cases op <;>
      simp_all [present, Life.step, recorded]
  | true =>
    obtain ⟨previous, rfl⟩ := halone
    rcases writes_cases writes with rfl | ⟨first, last, hne, hfirst, hlast⟩ <;> cases op <;>
      cases deleted <;> simp_all [present, Life.step, recorded]

theorem foldl_onto {before : Bool} {life : Life I D} {existing : EntryChange I D}
    {ops : List (LedgerOp I D)} (hleaves : Leaves existing = before) (hfits : life.Fits before ops) :
    ops.foldl (fun change op => recorded op change) (life.onto existing) =
      (ops.foldl step life).onto existing := by
  subst hleaves
  induction ops generalizing life with
  | nil => rfl
  | cons op ops ih =>
    rw [foldl_cons, foldl_cons, onto_step ⟨hfits.1, trivial⟩]
    exact ih hfits.2

theorem Alone.foldl {before : Bool} {life : Life I D} {change : Option (EntryChange I D)}
    {ops : List (LedgerOp I D)} (halone : life.Alone before change)
    (hfits : life.Fits before ops) :
    (ops.foldl Life.step life).Alone before (ops.foldl (fun change op => recorded op change) change) := by
  induction ops generalizing life change with
  | nil => exact halone
  | cons op ops ih => exact ih (halone.step ⟨hfits.1, trivial⟩) hfits.2

end Life

theorem later_assoc {first second third : LedgerEntry I D}
    (hkeys : entryToKey second = entryToKey third) :
    later (later first second) third = later first (later second third) := by
  unfold later
  rw [hkeys]
  by_cases httl : (entryToKey third).isTtl = true
  · simp only [httl, true_and]
    by_cases h₁ : second.liveUntil ≤ first.liveUntil
    · by_cases h₂ : third.liveUntil ≤ second.liveUntil
      · simp [h₁, h₂, hkeys, httl, h₂.trans h₁]
      · simp [h₁, h₂, httl]
    · by_cases h₂ : third.liveUntil ≤ second.liveUntil
      · simp [h₁, h₂, hkeys, httl]
      · have h₃ : ¬third.liveUntil ≤ first.liveUntil := fun h =>
          h₂ (h.trans (not_le.mp h₁).le)
        simp [h₁, h₂, httl, h₃]
  · simp [httl]

/-- Of writes under one key the longest may be taken before or after an earlier entry. -/
theorem foldl_later {key : LedgerKey I} {writes : List (LedgerEntry I D)}
    {first earlier : LedgerEntry I D} (hfirst : entryToKey first = key)
    (hkeys : ∀ entry ∈ writes, entryToKey entry = key) :
    writes.foldl later (later earlier first) = later earlier (writes.foldl later first) := by
  induction writes generalizing first with
  | nil => rfl
  | cons entry rest ih =>
    have hentry : entryToKey entry = key := hkeys entry mem_cons_self
    rw [foldl_cons, foldl_cons, later_assoc (hfirst.trans hentry.symm)]
    exact ih ((entryToKey_later (hfirst.trans hentry.symm)).trans hentry)
      fun other hother => hkeys other (mem_cons_of_mem _ hother)

theorem Life.later_longest {key : LedgerKey I} {writes : List (LedgerEntry I D)}
    {earlier longest : LedgerEntry I D} (hkeys : ∀ entry ∈ writes, entryToKey entry = key)
    (hlongest : Life.longest writes = some longest) :
    writes.foldl later earlier = later earlier longest := by
  cases writes with
  | nil => cases hlongest
  | cons first rest =>
    obtain rfl := Option.some.inj hlongest
    exact foldl_later (hkeys first mem_cons_self)
      fun entry hentry => hkeys entry (mem_cons_of_mem _ hentry)

/-- No write that an existing change or the life itself makes is the longer one, where the last
write has to stay. -/
def Life.Spared (life : Life I D) : Option (EntryChange I D) → Prop
  | none => True
  | some (.updated _ entry) =>
    life.deleted = true → ∀ last ∈ longest life.writes, later entry last = last
  | some _ => longest life.writes = life.writes.getLast?

/-- Merging the change of a life is recording it on top exactly if the life is spared. -/
theorem Life.merged_iff {life : Life I D} {existing : EntryChange I D} {key : LedgerKey I}
    {change : Option (EntryChange I D)} (halone : life.Alone (Leaves existing) change)
    (hkeys : ∀ entry ∈ life.writes, entryToKey entry = key) :
    merged change (some existing) = life.onto existing ↔ life.Spared (some existing) := by
  obtain ⟨deleted, writes⟩ := life
  rcases writes_cases writes with rfl | ⟨first, last, hne, hfirst, hlast⟩
  · cases existing <;> cases deleted <;> simp [Alone, Leaves] at halone <;>
      (try obtain ⟨previous, rfl⟩ := halone) <;> simp_all [merged, onto, Spared]
  · cases existing with
    | created entry =>
      obtain ⟨previous, rfl⟩ := halone
      simp [merged, onto, Spared, hne, hfirst, hlast]
    | updated orig entry =>
      obtain ⟨previous, rfl⟩ := halone
      cases deleted with
      | false => simp [merged, onto, Spared, hfirst, later_longest hkeys hfirst]
      | true => simp [merged, onto, Spared, hfirst]
    | deleted orig =>
      obtain rfl := halone
      simp [merged, onto, Spared, hfirst, hlast, eq_comm]

/-- Only a TTL entry can lose life. -/
theorem Life.spared_of_not_ttl {life : Life I D} {key : LedgerKey I}
    (hother : key.isTtl = false) (hkeys : ∀ entry ∈ life.writes, entryToKey entry = key)
    (change : Option (EntryChange I D)) : life.Spared change := by
  have hlater : ∀ entry ∈ life.writes, ∀ earlier, later earlier entry = entry := by
    intro entry hentry earlier
    simp [later, hkeys entry hentry, hother]
  have hlongest : longest life.writes = life.writes.getLast? := by
    rcases life.writes.eq_nil_or_concat' with hnil | ⟨rest, last, hrest⟩
    · rw [hnil]
      rfl
    · have hlast := hlater last (by simp [hrest])
      rw [hrest, longest_concat, getLast?_concat]
      cases longest rest <;> simp [hlast]
  cases change with
  | none => trivial
  | some existing =>
    cases existing with
    | created _ => exact hlongest
    | deleted _ => exact hlongest
    | updated _ entry =>
      intro _ last hlast
      exact hlater last (mem_of_getLast? (hlongest ▸ hlast)) entry

/-- A life starts with what is there. -/
theorem Life.start_onto (existing : EntryChange I D) : start.onto existing = some existing := by
  cases existing <;> rfl

/-! ### A delta on top of another -/

variable [DecidableEq I] {pre : LedgerMap I D} {s s₁ s₂ : Performed I D}
  {d d₁ d₂ : LedgerDelta I D} {op : LedgerOp I D}

def LedgerOp.written : LedgerOp I D → Option (LedgerEntry I D)
  | .create entry => some entry
  | .update _ current => some current
  | .delete _ => none

omit [DecidableEq I] in
theorem Coalesced.mergeable {before now now' : Option (LedgerEntry I D)} {touched touched' : Bool}
    {change : EntryChange I D} {existing : Option (EntryChange I D)}
    (hexisting : Coalesced before now touched existing)
    (hchange : Coalesced now now' touched' (some change)) : change.Mergeable existing := by
  cases hchange with
  | created hbefore _ _ =>
    cases hexisting with
    | updated _ hnow _ => simp [hnow] at hbefore
    | unchanged _ _ => trivial
    | created _ _ _ => trivial
    | deleted _ _ _ => trivial
  | updated hbefore _ _ =>
    cases hexisting with
    | deleted _ hnow _ => simp [hnow] at hbefore
    | unchanged _ _ => trivial
    | created _ _ _ => trivial
    | updated _ _ _ => trivial
  | deleted _ _ _ => cases hexisting <;> trivial

/-! ### Totals -/

/-- What a delta records: operations on entries, fees and coins. -/
inductive DeltaOp (I D : Type) where
  | entry (op : LedgerOp I D)
  | feePool (delta : Int64)
  | totalCoins (delta : Int64)
deriving DecidableEq

namespace DeltaOp

def entryOps : List (DeltaOp I D) → List (LedgerOp I D)
  | [] => []
  | .entry op :: ops => op :: entryOps ops
  | .feePool _ :: ops => entryOps ops
  | .totalCoins _ :: ops => entryOps ops

def fees : List (DeltaOp I D) → Int64
  | [] => 0
  | .feePool delta :: ops => delta + fees ops
  | .entry _ :: ops => fees ops
  | .totalCoins _ :: ops => fees ops

def coins : List (DeltaOp I D) → Int64
  | [] => 0
  | .totalCoins delta :: ops => delta + coins ops
  | .entry _ :: ops => coins ops
  | .feePool _ :: ops => coins ops

end DeltaOp

namespace LedgerDelta

/-- Record one operation of any kind; a refused one records nothing. -/
def perform (d : LedgerDelta I D) : DeltaOp I D → LedgerDelta I D
  | .entry op =>
    match d.record op with
    | .ok d' => d'
    | .error _ => d
  | .feePool delta => d.recordFeePoolDelta delta
  | .totalCoins delta => d.recordTotalCoinsDelta delta

def performAll (ops : List (DeltaOp I D)) (d : LedgerDelta I D) : LedgerDelta I D :=
  ops.foldl perform d

/-- The same changes with more fees and coins. -/
def addTotals (fees coins : Int64) (d : LedgerDelta I D) : LedgerDelta I D :=
  { d with feePoolDelta := d.feePoolDelta + fees, totalCoinsDelta := d.totalCoinsDelta + coins }

theorem record_addTotals (fees coins : Int64) :
    (d.addTotals fees coins).record op = (d.record op).map (addTotals fees coins) := by
  cases op with
  | create entry =>
    simp only [record, recordCreate, addTotals]
    split <;> rfl
  | update previous current =>
    simp only [record, recordUpdate, addTotals]
    split
    · rfl
    · cases mergeTtlCurrent (entryToKey current) _ current <;> rfl
    · rfl
    · rfl
  | delete entry =>
    simp only [record, recordDelete, addTotals]
    split
    · rfl
    · split <;> rfl

theorem perform_entry_addTotals (fees coins : Int64) :
    (d.addTotals fees coins).perform (.entry op) = (d.perform (.entry op)).addTotals fees coins := by
  simp only [perform, record_addTotals]
  cases d.record op <;> rfl

theorem recordAll_cons (ops : List (LedgerOp I D)) :
    d.recordAll (op :: ops) = (d.perform (.entry op)).recordAll ops := rfl

theorem recordAll_addTotals (fees coins : Int64) (ops : List (LedgerOp I D)) :
    (d.addTotals fees coins).recordAll ops = (d.recordAll ops).addTotals fees coins := by
  induction ops generalizing d with
  | nil => rfl
  | cons op ops ih =>
    rw [recordAll_cons, recordAll_cons, perform_entry_addTotals]
    exact ih

theorem performAll_eq (ops : List (DeltaOp I D)) :
    d.performAll ops = (d.recordAll (DeltaOp.entryOps ops)).addTotals (DeltaOp.fees ops)
      (DeltaOp.coins ops) := by
  induction ops generalizing d with
  | nil => simp [performAll, recordAll, addTotals, DeltaOp.entryOps, DeltaOp.fees, DeltaOp.coins]
  | cons op ops ih =>
    change (d.perform op).performAll ops = _
    rw [ih]
    cases op with
    | entry op => rfl
    | feePool delta =>
      have hone : d.perform (.feePool delta) = d.addTotals delta 0 := by
        simp [perform, recordFeePoolDelta, addTotals]
      rw [hone, recordAll_addTotals]
      simp [addTotals, DeltaOp.entryOps, DeltaOp.fees, DeltaOp.coins, Int64.add_assoc]
    | totalCoins delta =>
      have hone : d.perform (.totalCoins delta) = d.addTotals 0 delta := by
        simp [perform, recordTotalCoinsDelta, addTotals]
      rw [hone, recordAll_addTotals]
      simp [addTotals, DeltaOp.entryOps, DeltaOp.fees, DeltaOp.coins, Int64.add_assoc]

end LedgerDelta

omit [DecidableEq I] in
theorem Tracks.addTotals (htracks : Tracks pre s d) (fees coins : Int64) :
    Tracks pre s (d.addTotals fees coins) where
  wellFormed := ⟨htracks.wellFormed.nodup, htracks.wellFormed.listed, htracks.wellFormed.under⟩
  coalesced := htracks.coalesced

theorem LedgerDelta.WellFormed.recordAll {ops : List (LedgerOp I D)} (hd : d.WellFormed)
    (hlegal : Performed.Legal pre ops s) :
    (d.recordAll ops).ledgerSeq = d.ledgerSeq ∧
      (d.recordAll ops).feePoolDelta = d.feePoolDelta ∧
      (d.recordAll ops).totalCoinsDelta = d.totalCoinsDelta := by
  induction ops generalizing s d with
  | nil => exact ⟨rfl, rfl, rfl⟩
  | cons op ops ih =>
    obtain ⟨hop, hops⟩ := hlegal
    rw [recordAll_cons]
    cases hrefused : op.refused with
    | true =>
      have hskip : d.perform (.entry op) = d := by
        simp [perform, record_refused hrefused]
      rw [hskip]
      exact ih hd hops
    | false =>
      obtain ⟨d', hrecord, hreplaces⟩ := record_replaces hd hrefused
      have hskip : d.perform (.entry op) = d' := by simp [perform, hrecord]
      rw [hskip, ← hreplaces.ledgerSeq, ← hreplaces.feePoolDelta, ← hreplaces.totalCoinsDelta]
      exact ih (hreplaces.wellFormed hd (under_recorded hop (hd.under _))) hops

omit [DecidableEq I] in
theorem Coalesced.leaves {before now : Option (LedgerEntry I D)} {touched : Bool}
    {existing : EntryChange I D} (h : Coalesced before now touched (some existing)) :
    Life.Leaves existing = now.isSome := by
  cases h with
  | created _ hnow _ => simp [Life.Leaves, hnow]
  | updated _ hnow _ => simp [Life.Leaves, hnow]
  | deleted _ hnow _ => simp [Life.Leaves, hnow]

/-! ### Merging -/

/-- The accepted operations on one key. -/
def opsAt (key : LedgerKey I) (ops : List (LedgerOp I D)) : List (LedgerOp I D) :=
  ops.filter fun op => decide (op.key = key) && !op.refused

def lifeAt (key : LedgerKey I) (ops : List (LedgerOp I D)) : Life I D :=
  (opsAt key ops).foldl Life.step .start

variable {key : LedgerKey I} {ops : List (LedgerOp I D)}

theorem opsAt_cons_of_ne (hkey : op.key ≠ key) : opsAt key (op :: ops) = opsAt key ops := by
  simp [opsAt, hkey]

theorem opsAt_cons_refused (hrefused : op.refused = true) :
    opsAt key (op :: ops) = opsAt key ops := by
  simp [opsAt, hrefused]

theorem opsAt_cons (haccepted : op.refused = false) :
    opsAt op.key (op :: ops) = op :: opsAt op.key ops := by
  simp [opsAt, haccepted]

theorem mem_opsAt : op ∈ opsAt key ops ↔ op ∈ ops ∧ op.key = key ∧ op.refused = false := by
  simp [opsAt]

/-- The change of a key takes the operations on that key. -/
theorem recordAll_changes (hd : d.WellFormed) (hlegal : Performed.Legal pre ops s) :
    (d.recordAll ops).changes key =
      (opsAt key ops).foldl (fun change op => recorded op change) (d.changes key) := by
  induction ops generalizing s d with
  | nil => rfl
  | cons op ops ih =>
    obtain ⟨hop, hops⟩ := hlegal
    rw [recordAll_cons]
    cases hrefused : op.refused with
    | true =>
      have hskip : d.perform (.entry op) = d := by
        simp [perform, record_refused hrefused]
      rw [hskip, opsAt_cons_refused hrefused]
      exact ih hd hops
    | false =>
      obtain ⟨d', hrecord, hreplaces⟩ := record_replaces hd hrefused
      have hskip : d.perform (.entry op) = d' := by simp [perform, hrecord]
      rw [hskip, ih (hreplaces.wellFormed hd (under_recorded hop (hd.under _))) hops,
        hreplaces.changes]
      by_cases hkey : op.key = key
      · subst hkey
        rw [Function.update_self, opsAt_cons hrefused, foldl_cons]
      · rw [Function.update_of_ne (Ne.symm hkey), opsAt_cons_of_ne hkey]

/-- Legal operations fit the life of a key. -/
theorem fits_opsAt {before : Bool} {life : Life I D} (hlegal : Performed.Legal pre ops s)
    (hnow : (s.map key).isSome = life.present before) : life.Fits before (opsAt key ops) := by
  induction ops generalizing s life with
  | nil => trivial
  | cons op ops ih =>
    obtain ⟨hop, hops⟩ := hlegal
    cases hrefused : op.refused with
    | true =>
      rw [opsAt_cons_refused hrefused]
      rw [step_refused hrefused] at hops
      exact ih hops hnow
    | false =>
      rw [step_accepted hrefused] at hops
      by_cases hkey : op.key = key
      · subst hkey
        rw [opsAt_cons hrefused]
        cases op with
        | create entry =>
          refine ⟨hnow.symm.trans (by simpa [LedgerOp.Legal, LedgerOp.key] using hop), ih hops ?_⟩
          simp [Life.step, Life.present, result, LedgerOp.key]
        | update previous current =>
          refine ⟨hnow.symm.trans hop.2, ih hops ?_⟩
          simp [Life.step, Life.present, result, LedgerOp.key]
        | delete entry =>
          refine ⟨hnow.symm.trans hop, ih hops ?_⟩
          simp [Life.step, Life.present, result, LedgerOp.key]
      · rw [opsAt_cons_of_ne hkey]
        refine ih hops ?_
        rw [write_map, Function.update_of_ne (Ne.symm hkey)]
        exact hnow

/-- A life of one key writes under that key. -/
theorem lifeAt_writes {entry : LedgerEntry I D} (hentry : entry ∈ (lifeAt key ops).writes) :
    entryToKey entry = key := by
  suffices hall : ∀ (ops : List (LedgerOp I D)) (life : Life I D), (∀ op ∈ ops, op.key = key) →
      (∀ entry ∈ life.writes, entryToKey entry = key) →
      ∀ entry ∈ (ops.foldl Life.step life).writes, entryToKey entry = key from
    hall (opsAt key ops) .start (fun op hop => (mem_opsAt.mp hop).2.1) (by simp [Life.start]) entry
      hentry
  intro ops
  induction ops with
  | nil => exact fun life _ hlife => hlife
  | cons op ops ih =>
    intro life hops hlife
    refine ih _ (fun op' hop' => hops op' (mem_cons_of_mem _ hop')) ?_
    have hkey : op.key = key := hops op mem_cons_self
    cases op <;> simp_all [Life.step, LedgerOp.key, or_imp, forall_and]

/-- One key of a delta that was recorded on top of another one: the merged change is the
one of recording on exactly if the life there is spared. -/
theorem merged_changes_iff {ledgerSeq : U32}
    (htracks : Tracks pre s d) (hlegal : Performed.Legal s.map ops (.start s.map)) :
    merged (((new ledgerSeq).recordAll ops).changes key) (d.changes key) =
        (d.recordAll ops).changes key ↔ (lifeAt key ops).Spared (d.changes key) := by
  rw [recordAll_changes htracks.wellFormed hlegal,
    recordAll_changes (wellFormed_new ledgerSeq) hlegal]
  have hcoalesced := htracks.coalesced key
  cases hchange : d.changes key with
  | none => exact iff_of_true (merged_none _) trivial
  | some existing =>
    rw [hchange] at hcoalesced
    have hfits : Life.start.Fits (Life.Leaves existing) (opsAt key ops) :=
      fits_opsAt hlegal (by simp [Life.start, Life.present, hcoalesced.leaves, start])
    rw [← Life.start_onto existing, Life.foldl_onto rfl hfits, Life.start_onto]
    refine Life.merged_iff (Life.Alone.foldl ?_ hfits) fun entry => lifeAt_writes
    cases existing with
    | created entry => exact ⟨entry, rfl⟩
    | updated orig entry => exact ⟨entry, rfl⟩
    | deleted orig => rfl

/-- Merging a delta that was recorded on top of another one succeeds with the totals of
recording on, and with its changes exactly if every TTL entry is spared. -/
theorem merge_performAll {ledgerSeq ledgerSeq' : U32} {ops₁ ops₂ : List (DeltaOp I D)}
    (hlegal₁ : Performed.Legal pre (DeltaOp.entryOps ops₁) (.start pre))
    (hlegal₂ : Performed.Legal ((start pre).all pre (DeltaOp.entryOps ops₁)).map
      (DeltaOp.entryOps ops₂) (.start ((start pre).all pre (DeltaOp.entryOps ops₁)).map)) :
    let d₁ := (new ledgerSeq).performAll ops₁
    let direct := d₁.performAll ops₂
    ∃ merged, d₁.merge ((new ledgerSeq').performAll ops₂) = .ok merged ∧
      merged.ledgerSeq = direct.ledgerSeq ∧ merged.feePoolDelta = direct.feePoolDelta ∧
      merged.totalCoinsDelta = direct.totalCoinsDelta ∧
      (merged.changes = direct.changes ↔ ∀ key, key.isTtl = true →
        (lifeAt key (DeltaOp.entryOps ops₂)).Spared (d₁.changes key)) := by
  intro d₁ direct
  set base := ((start pre).all pre (DeltaOp.entryOps ops₁)).map
  set d₂ := (new ledgerSeq').performAll ops₂ with hd₂
  obtain ⟨htracks₁, hseq₁⟩ := (tracks_new pre ledgerSeq).recordAll hlegal₁
  obtain ⟨htracks₂, hseq₂⟩ := (tracks_new base ledgerSeq').recordAll hlegal₂
  generalize hD₁ : (new ledgerSeq).recordAll (DeltaOp.entryOps ops₁) = D₁
    at htracks₁ hseq₁
  obtain ⟨hseq, hfees, hcoins⟩ := htracks₁.wellFormed.recordAll hlegal₂
  obtain ⟨_, hfees₂, hcoins₂⟩ := (tracks_new base ledgerSeq').wellFormed.recordAll hlegal₂
  change _ = (0 : Int64) at hfees₂ hcoins₂
  have hd₁ : d₁ = D₁.addTotals (DeltaOp.fees ops₁) (DeltaOp.coins ops₁) := by
    rw [← hD₁]
    exact performAll_eq _
  rw [performAll_eq] at hd₂
  have hdirect : direct = ((D₁.recordAll (DeltaOp.entryOps ops₂)).addTotals (DeltaOp.fees ops₁)
      (DeltaOp.coins ops₁)).addTotals (DeltaOp.fees ops₂) (DeltaOp.coins ops₂) := by
    simp only [direct, hd₁, performAll_eq, recordAll_addTotals]
  have htracks₂' := htracks₂.addTotals (DeltaOp.fees ops₂) (DeltaOp.coins ops₂)
  have htracks₁' := htracks₁.addTotals (DeltaOp.fees ops₁) (DeltaOp.coins ops₁)
  rw [← hd₂] at htracks₂'
  rw [← hd₁] at htracks₁'
  obtain ⟨merged, hmerged, _, hchanges, hseq', hfees', hcoins'⟩ :=
    merge_spec htracks₁'.wellFormed htracks₂'.wellFormed fun key c hc =>
      (htracks₁'.coalesced key).mergeable (hc ▸ htracks₂'.coalesced key)
  refine ⟨merged, hmerged, ?_, ?_, ?_, ?_⟩
  · rw [hseq', hdirect, hd₁]
    exact hseq.symm
  · rw [hfees', hdirect, hd₁, hd₂]
    simp [addTotals, hfees, hfees₂]
  · rw [hcoins', hdirect, hd₁, hd₂]
    simp [addTotals, hcoins, hcoins₂]
  · have hkey : ∀ key, merged.changes key = direct.changes key ↔
        (lifeAt key (DeltaOp.entryOps ops₂)).Spared (d₁.changes key) := by
      intro key
      rw [hchanges, hdirect, hd₁, hd₂]
      exact merged_changes_iff htracks₁ hlegal₂
    rw [funext_iff]
    refine forall_congr' fun key => (hkey key).trans ⟨fun h _ => h, fun h => ?_⟩
    cases httl : key.isTtl with
    | true => exact h httl
    | false => exact Life.spared_of_not_ttl httl (fun entry => lifeAt_writes) _

end Henyey.Ledger
