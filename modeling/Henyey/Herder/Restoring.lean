import Henyey.Herder.Deferral

/-!
# Deferred slots are restored once

The history says which causes of a slot are outstanding. Along runs whose steps are
timely, the map of deferred slots is what the history says, a slot is reported and
restored once for each deferral and never with a cause outstanding, and no slot
waits for a stored set that nothing is going to resolve.
-/

namespace Henyey.Herder

open Foundation DeferredSlots DeferredCauses

variable {H : Type} [DecidableEq H]

/-! ### Reading the history -/

/-- Something was recorded for the slot since it was last reported or purged. -/
def deferralOpen (slot : Nat) : List (DeferralEvent H) → Bool
  | [] => false
  | .recordedMissing other _ :: rest => other == slot || deferralOpen slot rest
  | .recordedLag other :: rest => other == slot || deferralOpen slot rest
  | .reported other :: rest => other != slot && deferralOpen slot rest
  | .purged maxSlot :: rest => maxSlot < slot && deferralOpen slot rest
  | _ :: rest => deferralOpen slot rest

def outstanding (slot : Nat) (hash : H) : List (DeferralEvent H) → Bool
  | [] => false
  | .recordedMissing other missing :: rest =>
    other == slot && missing == hash || outstanding slot hash rest
  | .resolvedTxSet resolved :: rest => resolved != hash && outstanding slot hash rest
  | .reported other :: rest => other != slot && outstanding slot hash rest
  | .purged maxSlot :: rest => maxSlot < slot && outstanding slot hash rest
  | _ :: rest => outstanding slot hash rest

def lagging (slot : Nat) : List (DeferralEvent H) → Bool
  | [] => false
  | .recordedLag other :: rest => other == slot || lagging slot rest
  | .resolvedLag nextIndex :: rest => nextIndex < slot && lagging slot rest
  | .reported other :: rest => other != slot && lagging slot rest
  | .purged maxSlot :: rest => maxSlot < slot && lagging slot rest
  | _ :: rest => lagging slot rest

def missedLast (slot : Nat) (hash : H) : List (DeferralEvent H) → Bool
  | [] => false
  | .missed other missing :: rest =>
    other == slot && missing == hash || missedLast slot hash rest
  | .stored stored :: rest => stored != hash && missedLast slot hash rest
  | _ :: rest => missedLast slot hash rest

/-- Nothing stands in the way of the slot. -/
def Cleared (slot : Nat) (history : List (DeferralEvent H)) : Prop :=
  (∀ hash, outstanding slot hash history = false) ∧ lagging slot history = false

/-- Every report ends a deferral whose causes are cleared, every restoration follows a
report of its own with nothing recorded in between, and every set that is resolved
has arrived. -/
def Justified : List (DeferralEvent H) → Prop
  | [] => True
  | .reported slot :: rest => deferralOpen slot rest = true ∧ Cleared slot rest ∧ Justified rest
  | .restored slot :: rest =>
    deferralOpen slot rest = false ∧ rest.count (.restored slot) < rest.count (.reported slot) ∧
      Justified rest
  | .resolvedTxSet hash :: rest => .stored hash ∈ rest ∧ Justified rest
  | _ :: rest => Justified rest

/-! ### Timely steps -/

/-- Nothing is recorded for a slot between its report and its restoration, or for a set
that was stored and resolved since it was looked for; and no set that a slot waits for
is stored without being resolved. -/
def DeferringHerder.Timely (s : DeferringHerder H) : DeferralStep H → Prop
  | .record slot (.missingTxSet hash) =>
    slot ∉ s.restoresDue ∧ (missedLast slot hash s.history = true ∨ hash ∈ s.resolvesDue)
  | .record slot .applyLag => slot ∉ s.restoresDue
  | .receiveTxSet hash =>
    hash ∈ s.pending → hash ∈ s.resolvesDue ∨
      ∀ slot causes, s.deferredSlots.lookup slot = some causes → hash ∉ causes.missingTxSets
  | .storeTxSet hash =>
    hash ∈ s.resolvesDue ∨
      ∀ slot causes, s.deferredSlots.lookup slot = some causes → hash ∉ causes.missingTxSets
  | _ => True

inductive DeferringHerder.Reachable (allowed : DeferringHerder H → DeferralStep H → Prop) :
    DeferringHerder H → Prop where
  | new (context : ValueValidationContext) : Reachable allowed (.new context)
  | step {s : DeferringHerder H} (next : DeferralStep H) :
      Reachable allowed s → allowed s next → Reachable allowed (s.step next)

/-! ### The map and the history -/

/-- The causes of a slot are those that the history says are outstanding. -/
structure Reflects (slot : Nat) (entry : Option (DeferredCauses H))
    (history : List (DeferralEvent H)) : Prop where
  isOpen : deferralOpen slot history = entry.isSome
  missing : ∀ hash, outstanding slot hash history =
    entry.any fun causes => hash ∈ causes.missingTxSets
  lag : lagging slot history = entry.any applyLag

/-- Deferred slots as the history has them, and calls that are due. -/
structure DeferringHerder.Kept (s : DeferringHerder H) : Prop where
  reflects : ∀ slot, Reflects slot (s.deferredSlots.lookup slot) s.history
  notClear : ∀ slot causes, s.deferredSlots.lookup slot = some causes → causes.isClear = false
  justified : Justified s.history
  arrived : ∀ hash ∈ s.resolvesDue, .stored hash ∈ s.history
  counted : ∀ slot, s.history.count (.reported slot) =
    s.history.count (.restored slot) + s.restoresDue.count slot
  closed : ∀ slot ∈ s.restoresDue, deferralOpen slot s.history = false
  awaited : ∀ slot hash, outstanding slot hash s.history = true →
    missedLast slot hash s.history = true ∨ hash ∈ s.resolvesDue

namespace DeferredSlots

variable {deferred : DeferredSlots H} {slot other : Nat} {hash : H}

theorem lookup_recordMissingTxSet (hother : other ≠ slot) :
    (deferred.recordMissingTxSet slot hash).lookup other = deferred.lookup other :=
  AList.lookup_insert_ne hother

theorem lookup_recordMissingTxSet_self :
    (deferred.recordMissingTxSet slot hash).lookup slot = some
      { (deferred.lookup slot).getD default with
        missingTxSets := insert hash ((deferred.lookup slot).getD default).missingTxSets } :=
  AList.lookup_insert deferred

omit [DecidableEq H] in
theorem lookup_recordApplyLag (hother : other ≠ slot) :
    (deferred.recordApplyLag slot).lookup other = deferred.lookup other :=
  AList.lookup_insert_ne hother

omit [DecidableEq H] in
theorem lookup_recordApplyLag_self :
    (deferred.recordApplyLag slot).lookup slot = some
      { (deferred.lookup slot).getD default with applyLag := true } :=
  AList.lookup_insert deferred

end DeferredSlots

namespace Reflects

variable {slot : Nat} {entry : Option (DeferredCauses H)} {history : List (DeferralEvent H)}

section

variable (hreflects : Reflects slot entry history)
include hreflects

theorem recordedMissing_ne {other : Nat} (hother : slot ≠ other) (hash : H) :
    Reflects slot entry (.recordedMissing other hash :: history) := by
  have hne : (other == slot) = false := by simpa using hother.symm
  constructor
  · rw [deferralOpen, hne, Bool.false_or]
    exact hreflects.isOpen
  · intro missing
    rw [outstanding, hne, Bool.false_and, Bool.false_or]
    exact hreflects.missing missing
  · exact hreflects.lag

theorem recordedMissing (hash : H) :
    Reflects slot
      (some { entry.getD default with
        missingTxSets := insert hash (entry.getD default).missingTxSets })
      (.recordedMissing slot hash :: history) := by
  constructor
  · simp [deferralOpen]
  · intro missing
    rw [outstanding, hreflects.missing]
    cases entry with
    | none => simp [default, beq_eq_decide, eq_comm]
    | some causes => simp [beq_eq_decide, eq_comm]
  · change lagging slot history = _
    rw [hreflects.lag]
    cases entry <;> rfl

theorem recordedLag_ne {other : Nat}
    (hother : slot ≠ other) : Reflects slot entry (.recordedLag other :: history) := by
  have hne : (other == slot) = false := by simpa using hother.symm
  constructor
  · rw [deferralOpen, hne, Bool.false_or]
    exact hreflects.isOpen
  · exact hreflects.missing
  · rw [lagging, hne, Bool.false_or]
    exact hreflects.lag

theorem recordedLag :
    Reflects slot (some { entry.getD default with applyLag := true })
      (.recordedLag slot :: history) := by
  constructor
  · simp [deferralOpen]
  · intro missing
    change outstanding slot missing history = _
    rw [hreflects.missing]
    cases entry <;> rfl
  · simp [lagging]

theorem purged (maxSlot : Nat) :
    Reflects slot (entry.filter fun _ => slot > maxSlot) (.purged maxSlot :: history) := by
  obtain ⟨hopen, hmissing, hlag⟩ := hreflects
  by_cases hkept : maxSlot < slot
  · constructor
    · simp [deferralOpen, hkept, hopen]
    · intro hash
      simp [outstanding, hkept, hmissing]
    · simp [lagging, hkept, hlag]
  · constructor
    · simp [deferralOpen, hkept]
    · intro hash
      simp [outstanding, hkept]
    · simp [lagging, hkept]

theorem resolvedTxSet (hash : H) :
    Reflects slot
      (entry.map fun causes => { causes with missingTxSets := causes.missingTxSets.erase hash })
      (.resolvedTxSet hash :: history) := by
  obtain ⟨hopen, hmissing, hlag⟩ := hreflects
  constructor
  · change deferralOpen slot history = _
    rw [hopen, Option.isSome_map]
  · intro missing
    rw [outstanding, hmissing]
    cases entry with
    | none => simp
    | some causes => simp [bne, beq_eq_decide, eq_comm]
  · change lagging slot history = _
    rw [hlag]
    cases entry <;> rfl

theorem resolvedLag (nextIndex : Nat) :
    Reflects slot
      (entry.map fun causes => { causes with
        applyLag := causes.applyLag && !(slot ≤ nextIndex) })
      (.resolvedLag nextIndex :: history) := by
  obtain ⟨hopen, hmissing, hlag⟩ := hreflects
  constructor
  · change deferralOpen slot history = _
    rw [hopen, Option.isSome_map]
  · intro missing
    change outstanding slot missing history = _
    rw [hmissing]
    cases entry <;> rfl
  · rw [lagging, hlag]
    cases entry with
    | none => simp
    | some causes =>
      rw [Bool.and_comm, ← decide_not]
      simp

end

end Reflects

/-! ### Reporting -/

section Reporting

variable {slot : Nat} {hash : H} {resolved : List Nat} {history : List (DeferralEvent H)}

omit [DecidableEq H] in
theorem deferralOpen_reported : deferralOpen slot (resolved.map .reported ++ history) =
    (decide (slot ∉ resolved) && deferralOpen slot history) := by
  induction resolved with
  | nil => simp
  | cons other rest ih =>
    rw [List.map_cons, List.cons_append, deferralOpen, ih]
    by_cases heq : other = slot
    · simp [heq]
    · simp [heq, Ne.symm heq]

theorem outstanding_reported : outstanding slot hash (resolved.map .reported ++ history) =
    (decide (slot ∉ resolved) && outstanding slot hash history) := by
  induction resolved with
  | nil => simp
  | cons other rest ih =>
    rw [List.map_cons, List.cons_append, outstanding, ih]
    by_cases heq : other = slot
    · simp [heq]
    · simp [heq, Ne.symm heq]

omit [DecidableEq H] in
theorem lagging_reported : lagging slot (resolved.map .reported ++ history) =
    (decide (slot ∉ resolved) && lagging slot history) := by
  induction resolved with
  | nil => simp
  | cons other rest ih =>
    rw [List.map_cons, List.cons_append, lagging, ih]
    by_cases heq : other = slot
    · simp [heq]
    · simp [heq, Ne.symm heq]

theorem missedLast_reported : missedLast slot hash (resolved.map .reported ++ history) =
    missedLast slot hash history := by
  induction resolved with
  | nil => rfl
  | cons other rest ih => exact ih

theorem Reflects.reported {entry : Option (DeferredCauses H)}
    (hreflects : Reflects slot entry history) :
    Reflects slot (if slot ∈ resolved then none else entry)
      (resolved.map .reported ++ history) := by
  obtain ⟨hopen, hmissing, hlag⟩ := hreflects
  constructor
  · rw [deferralOpen_reported, hopen]
    split <;> simp_all
  · intro hash
    rw [outstanding_reported, hmissing]
    split <;> simp_all
  · rw [lagging_reported, hlag]
    split <;> simp_all

theorem Justified.reported (hjustified : Justified history) (hnodup : resolved.Nodup)
    (hready : ∀ slot ∈ resolved, deferralOpen slot history = true ∧ Cleared slot history) :
    Justified (resolved.map .reported ++ history) := by
  induction resolved with
  | nil => exact hjustified
  | cons slot rest ih =>
    obtain ⟨hfresh, hrest⟩ := List.nodup_cons.mp hnodup
    obtain ⟨hopen, hmissing, hlag⟩ := hready slot List.mem_cons_self
    have hlater := ih hrest fun other hother => hready other (List.mem_cons_of_mem _ hother)
    rw [List.map_cons, List.cons_append]
    refine ⟨?_, ⟨?_, ?_⟩, hlater⟩
    · rw [deferralOpen_reported, hopen, decide_eq_true hfresh]
      rfl
    · intro hash
      rw [outstanding_reported, hmissing, Bool.and_false]
    · rw [lagging_reported, hlag, Bool.and_false]

end Reporting

/-! ### Steps -/

namespace DeferringHerder

variable {s : DeferringHerder H}

theorem kept_new (context : ValueValidationContext) : Kept (new context : DeferringHerder H) where
  reflects _ := ⟨rfl, fun _ => rfl, rfl⟩
  notClear _ _ hlookup := nomatch hlookup
  justified := trivial
  arrived _ hmem := absurd hmem List.not_mem_nil
  counted _ := rfl
  closed _ hmem := absurd hmem List.not_mem_nil
  awaited _ _ houtstanding := nomatch houtstanding

section

variable (hkept : s.Kept)
include hkept

variable {slot : Nat}

theorem Kept.waiting {hash : H} (houtstanding : outstanding slot hash s.history = true) :
    ∃ causes, s.deferredSlots.lookup slot = some causes ∧ hash ∈ causes.missingTxSets := by
  rw [(hkept.reflects slot).missing] at houtstanding
  cases hlookup : s.deferredSlots.lookup slot with
  | none => simp [hlookup] at houtstanding
  | some causes => exact ⟨causes, rfl, by simpa [hlookup] using houtstanding⟩

theorem Kept.missed (slot : Nat) (hash : H) (deferral : Nat × Deferral H) :
    Kept { s with
      recordsDue := deferral :: s.recordsDue
      history := .missed slot hash :: s.history } where
  reflects other := ⟨(hkept.reflects other).isOpen, (hkept.reflects other).missing,
    (hkept.reflects other).lag⟩
  __ := hkept
  arrived stored hdue := List.mem_cons_of_mem _ (hkept.arrived stored hdue)
  counted other := by simpa using hkept.counted other
  awaited other missing houtstanding := by
    rcases hkept.awaited other missing houtstanding with hlast | hdue
    · exact .inl (by simp [missedLast, hlast])
    · exact .inr hdue

theorem Kept.validate (checkContent : H → Bool) (slot closeTime : Nat) (txSetHash : H)
    (nomination : Bool) : (s.validate checkContent slot closeTime txSetHash nomination).Kept := by
  unfold DeferringHerder.validate
  split
  · exact hkept.missed slot _ _
  · exact ⟨hkept.reflects, hkept.notClear, hkept.justified, hkept.arrived, hkept.counted,
      hkept.closed, hkept.awaited⟩
  · exact hkept

theorem Kept.recordMissing {hash : H} (recordsDue : List (Nat × Deferral H))
    (hfree : slot ∉ s.restoresDue)
    (hawaited : missedLast slot hash s.history = true ∨ hash ∈ s.resolvesDue) :
    Kept { s with
      recordsDue
      deferredSlots := s.deferredSlots.recordMissingTxSet slot hash
      history := .recordedMissing slot hash :: s.history } where
  reflects other := by
    by_cases heq : other = slot
    · rw [heq]
      dsimp only
      rw [lookup_recordMissingTxSet_self]
      exact (hkept.reflects slot).recordedMissing hash
    · dsimp only
      rw [lookup_recordMissingTxSet heq]
      exact (hkept.reflects other).recordedMissing_ne heq hash
  notClear other causes hlookup := by
    dsimp only at hlookup
    by_cases heq : other = slot
    · rw [heq, lookup_recordMissingTxSet_self] at hlookup
      obtain rfl := Option.some.inj hlookup
      simp [isClear]
    · rw [lookup_recordMissingTxSet heq] at hlookup
      exact hkept.notClear other causes hlookup
  justified := hkept.justified
  arrived stored hdue := List.mem_cons_of_mem _ (hkept.arrived stored hdue)
  counted other := by simpa using hkept.counted other
  closed other hdue := by
    have hne : (slot == other) = false := beq_false_of_ne fun heq => hfree (heq ▸ hdue)
    rw [deferralOpen, hne, Bool.false_or]
    exact hkept.closed other hdue
  awaited other missing houtstanding := by
    rw [outstanding, Bool.or_eq_true, Bool.and_eq_true, beq_iff_eq, beq_iff_eq] at houtstanding
    rcases houtstanding with ⟨rfl, rfl⟩ | hold
    · exact hawaited
    · exact hkept.awaited other missing hold

theorem Kept.recordLag (recordsDue : List (Nat × Deferral H)) (hfree : slot ∉ s.restoresDue) :
    Kept { s with
      recordsDue
      deferredSlots := s.deferredSlots.recordApplyLag slot
      history := .recordedLag slot :: s.history } where
  reflects other := by
    by_cases heq : other = slot
    · rw [heq]
      dsimp only
      rw [lookup_recordApplyLag_self]
      exact (hkept.reflects slot).recordedLag
    · dsimp only
      rw [lookup_recordApplyLag heq]
      exact (hkept.reflects other).recordedLag_ne heq
  notClear other causes hlookup := by
    dsimp only at hlookup
    by_cases heq : other = slot
    · rw [heq, lookup_recordApplyLag_self] at hlookup
      obtain rfl := Option.some.inj hlookup
      simp [isClear]
    · rw [lookup_recordApplyLag heq] at hlookup
      exact hkept.notClear other causes hlookup
  __ := hkept
  arrived stored hdue := List.mem_cons_of_mem _ (hkept.arrived stored hdue)
  counted other := by simpa using hkept.counted other
  closed other hdue := by
    have hne : (slot == other) = false := beq_false_of_ne fun heq => hfree (heq ▸ hdue)
    rw [deferralOpen, hne, Bool.false_or]
    exact hkept.closed other hdue

theorem Kept.record {deferral : Deferral H}
    (htimely : s.Timely (.record slot deferral)) : (s.record slot deferral).Kept := by
  unfold DeferringHerder.record
  split
  · cases deferral with
    | missingTxSet hash => exact hkept.recordMissing _ htimely.1 htimely.2
    | applyLag => exact hkept.recordLag _ htimely
  · exact hkept

theorem Kept.storeTxSet {hash : H} (hserved : hash ∈ s.resolvesDue ∨
      ∀ slot causes, s.deferredSlots.lookup slot = some causes → hash ∉ causes.missingTxSets) :
    (s.storeTxSet hash).Kept where
  reflects other := ⟨(hkept.reflects other).isOpen, (hkept.reflects other).missing,
    (hkept.reflects other).lag⟩
  __ := hkept
  arrived stored hdue := List.mem_cons_of_mem _ (hkept.arrived stored hdue)
  counted other := by simpa [DeferringHerder.storeTxSet] using hkept.counted other
  awaited slot missing houtstanding := by
    by_cases heq : hash = missing
    · subst heq
      rcases hserved with hdue | hnobody
      · exact .inr hdue
      · obtain ⟨causes, hlookup, hmem⟩ := hkept.waiting houtstanding
        exact absurd hmem (hnobody slot causes hlookup)
    · rcases hkept.awaited slot missing houtstanding with hlast | hdue
      · exact .inl (by simp [DeferringHerder.storeTxSet, missedLast, hlast, heq])
      · exact .inr hdue

theorem Kept.cacheTxSet (hash : H) : (s.cacheTxSet hash).Kept := by
  have hdue : Kept { s with
      resolvesDue := hash :: s.resolvesDue
      history := .stored hash :: s.history } :=
    { reflects := fun other => ⟨(hkept.reflects other).isOpen, (hkept.reflects other).missing,
        (hkept.reflects other).lag⟩
      __ := hkept
      arrived := by
        intro stored hmem
        rcases List.mem_cons.mp hmem with rfl | hold
        · exact List.mem_cons_self
        · exact List.mem_cons_of_mem _ (hkept.arrived stored hold)
      counted := fun other => by simpa using hkept.counted other
      awaited := by
        intro slot missing houtstanding
        by_cases heq : hash = missing
        · exact .inr (heq ▸ List.mem_cons_self)
        · rcases hkept.awaited slot missing houtstanding with hlast | hdue
          · exact .inl (by simp [missedLast, hlast, heq])
          · exact .inr (List.mem_cons_of_mem _ hdue) }
  exact ⟨hdue.reflects, hdue.notClear, hdue.justified, hdue.arrived, hdue.counted, hdue.closed,
    hdue.awaited⟩

theorem Kept.restore (slot : Nat) : (s.restoreSlotFullyValidated slot).Kept := by
  unfold DeferringHerder.restoreSlotFullyValidated
  split
  next hdue =>
    have hcount := List.count_pos_iff.mpr hdue
    exact {
      reflects := fun other => ⟨(hkept.reflects other).isOpen, (hkept.reflects other).missing,
        (hkept.reflects other).lag⟩
      __ := hkept
      justified := by
        refine ⟨hkept.closed slot hdue, ?_, hkept.justified⟩
        have hcounted := hkept.counted slot
        omega
      arrived := fun stored hmem => List.mem_cons_of_mem _ (hkept.arrived stored hmem)
      counted := by
        intro other
        have hcounted := hkept.counted other
        rw [List.count_cons_of_ne (by simp), List.count_cons, List.count_erase]
        by_cases heq : slot = other
        · subst heq
          simp
          omega
        · simp [heq]
          omega
      closed := fun other hother => hkept.closed other (List.mem_of_mem_erase hother) }
  · exact hkept

theorem Kept.purge (maxSlot : Nat) : (s.purgeDeferredSlots maxSlot).Kept where
  reflects other := by
    change Reflects other ((s.deferredSlots.purge maxSlot).lookup other) _
    rw [DeferredSlots.purge, Table.lookup_retain]
    exact (hkept.reflects other).purged maxSlot
  notClear other causes hlookup := by
    change (s.deferredSlots.purge maxSlot).lookup other = some causes at hlookup
    rw [DeferredSlots.purge, Table.lookup_retain, Option.filter_eq_some_iff] at hlookup
    exact hkept.notClear other causes hlookup.1
  justified := hkept.justified
  arrived stored hdue := List.mem_cons_of_mem _ (hkept.arrived stored hdue)
  counted other := by simpa [purgeDeferredSlots] using hkept.counted other
  closed other hdue := by
    change (_ && deferralOpen other s.history) = false
    rw [hkept.closed other hdue, Bool.and_false]
  awaited other missing houtstanding := by
    change (_ && outstanding other missing s.history) = true at houtstanding
    exact hkept.awaited other missing (Bool.and_eq_true_iff.mp houtstanding).2

end

/-! ### Resolving -/

section Resolving

variable {resolved : List Nat} {deferredSlots : DeferredSlots H}

theorem Kept.report (hkept : s.Kept) (event : DeferralEvent H)
    {entries : Nat → Option (DeferredCauses H)}
    {resolvesDue : List H} (hdue : resolvesDue ⊆ s.resolvesDue)
    (hreflects : ∀ slot, Reflects slot (entries slot) (event :: s.history))
    (hjustified : Justified (event :: s.history))
    (hneutral : ∀ slot, event ≠ .reported slot ∧ event ≠ .restored slot)
    (hopen : ∀ slot, deferralOpen slot (event :: s.history) = deferralOpen slot s.history)
    (hawaited : ∀ slot hash, outstanding slot hash (event :: s.history) = true →
      missedLast slot hash (event :: s.history) = true ∨ hash ∈ resolvesDue)
    (hresolved : ∀ slot, slot ∈ resolved ↔
      ∃ causes, entries slot = some causes ∧ causes.isClear = true)
    (hnodup : resolved.Nodup)
    (hlookup : ∀ slot, deferredSlots.lookup slot =
      (entries slot).filter fun causes => !causes.isClear) :
    ({ s with resolvesDue }.report deferredSlots resolved event).Kept where
  reflects slot := by
    change Reflects slot (deferredSlots.lookup slot) (resolved.map .reported ++ event :: s.history)
    have hentry : deferredSlots.lookup slot = if slot ∈ resolved then none else entries slot := by
      rw [hlookup]
      cases hentries : entries slot with
      | none => simp
      | some causes =>
        have hclear : slot ∈ resolved ↔ causes.isClear = true := by
          rw [hresolved, hentries]
          simp
        cases hcauses : causes.isClear <;> simp [hclear, hcauses]
    rw [hentry]
    exact (hreflects slot).reported
  notClear slot causes hlooked := by
    change deferredSlots.lookup slot = some causes at hlooked
    rw [hlookup, Option.filter_eq_some_iff] at hlooked
    simpa using hlooked.2
  justified := by
    apply hjustified.reported hnodup
    intro slot hmem
    obtain ⟨causes, hentry, hclear⟩ := (hresolved slot).mp hmem
    obtain ⟨hopened, hmissing, hlag⟩ := hreflects slot
    rw [isClear, Bool.and_eq_true, decide_eq_true_eq, Bool.not_eq_true'] at hclear
    rw [hentry] at hopened hmissing hlag
    refine ⟨hopened, fun hash => ?_, ?_⟩
    · rw [hmissing]
      simp [hclear.1]
    · rw [hlag]
      exact hclear.2
  arrived hash hmem := by
    apply List.mem_append_right
    exact List.mem_cons_of_mem _ (hkept.arrived hash (hdue hmem))
  counted slot := by
    have hcounted := hkept.counted slot
    have hreports : (resolved.map (.reported : Nat → DeferralEvent H)).count (.reported slot) =
        resolved.count slot :=
      List.count_map_of_injective _ _ (fun _ _ heq => DeferralEvent.reported.inj heq) slot
    have hrestores : (resolved.map (.reported : Nat → DeferralEvent H)).count (.restored slot) = 0 := by
      rw [List.count_eq_zero]
      simp
    simp only [DeferringHerder.report, List.count_append, List.count_cons_of_ne (hneutral slot).1,
      List.count_cons_of_ne (hneutral slot).2, hreports, hrestores]
    omega
  closed slot hrestore := by
    change deferralOpen slot (resolved.map .reported ++ event :: s.history) = false
    rw [deferralOpen_reported]
    rcases List.mem_append.mp hrestore with hold | hnew
    · rw [hopen, hkept.closed slot hold, Bool.and_false]
    · rw [decide_eq_false (not_not_intro hnew), Bool.false_and]
  awaited slot hash houtstanding := by
    change outstanding slot hash (resolved.map .reported ++ event :: s.history) = true at houtstanding
    change missedLast slot hash (resolved.map .reported ++ event :: s.history) = true ∨ _
    rw [outstanding_reported, Bool.and_eq_true] at houtstanding
    rw [missedLast_reported]
    exact hawaited slot hash houtstanding.2

theorem Kept.resolveMissingTxSet (hkept : s.Kept) (hash : H) :
    (s.resolveMissingTxSet hash).Kept := by
  unfold DeferringHerder.resolveMissingTxSet
  split
  next hmem =>
    apply hkept.report (.resolvedTxSet hash) List.erase_subset
      (fun slot => (hkept.reflects slot).resolvedTxSet hash) ⟨hkept.arrived hash hmem, hkept.justified⟩
    · exact fun slot => ⟨nofun, nofun⟩
    · exact fun slot => rfl
    · intro slot missing houtstanding
      rw [outstanding, Bool.and_eq_true, bne_iff_ne] at houtstanding
      rcases hkept.awaited slot missing houtstanding.2 with hlast | hdue
      · exact .inl hlast
      · exact .inr ((List.mem_erase_of_ne houtstanding.1.symm).mpr hdue)
    · intro slot
      rw [Table.mem_keys_retain, Table.lookup_mapValues]
    · exact AList.keys_nodup _
    · intro slot
      rw [Table.lookup_retain, Table.lookup_mapValues]
  · exact hkept

/-- Clearing the lag of a slot leaves it without a cause exactly when the lag was the
only one. -/
theorem isClear_of_lag {slot nextIndex : Nat} {causes : DeferredCauses H}
    (hcauses : causes.isClear = false) :
    ({ causes with applyLag := causes.applyLag && !(slot ≤ nextIndex) } :
        DeferredCauses H).isClear = lagResolves nextIndex slot causes := by
  cases hlag : causes.applyLag <;> by_cases hslot : slot ≤ nextIndex <;>
    simp_all [isClear, lagResolves, Bool.and_comm]

omit [DecidableEq H] in
theorem clearLag_eq (slot nextIndex : Nat) (causes : DeferredCauses H) :
    (if slot ≤ nextIndex && causes.applyLag then { causes with applyLag := false } else causes) =
      { causes with applyLag := causes.applyLag && !(slot ≤ nextIndex) } := by
  obtain ⟨missingTxSets, applyLag⟩ := causes
  cases applyLag <;> by_cases hslot : slot ≤ nextIndex <;> simp [hslot]

theorem Kept.resolveApplyLag (hkept : s.Kept) (nextIndex : Nat) :
    (s.resolveApplyLagForNextIndex nextIndex).Kept := by
  apply hkept.report (.resolvedLag nextIndex) (List.Subset.refl _)
    (fun slot => (hkept.reflects slot).resolvedLag nextIndex) hkept.justified
  · exact fun slot => ⟨nofun, nofun⟩
  · exact fun slot => rfl
  · exact hkept.awaited
  · intro slot
    rw [Table.mem_keys_retain]
    constructor
    · rintro ⟨causes, hlookup, hresolves⟩
      exact ⟨_, by rw [hlookup]; rfl,
        (isClear_of_lag (hkept.notClear slot causes hlookup)).trans hresolves⟩
    · rintro ⟨causes, hentry, hclear⟩
      obtain ⟨old, hlookup, rfl⟩ := Option.map_eq_some_iff.mp hentry
      exact ⟨old, hlookup, (isClear_of_lag (hkept.notClear slot old hlookup)).symm.trans hclear⟩
  · exact AList.keys_nodup _
  · intro slot
    rw [Table.lookup_mapValues, Table.lookup_retain]
    cases hlookup : s.deferredSlots.lookup slot with
    | none => rfl
    | some causes =>
      rw [Option.map_some]
      simp only [Option.filter_some, isClear_of_lag (hkept.notClear slot causes hlookup)]
      cases hresolves : lagResolves nextIndex slot causes with
      | true => rfl
      | false => exact congrArg some (clearLag_eq slot nextIndex causes)

end Resolving

/-! ### Runs -/

theorem Kept.step (hkept : s.Kept) {next : DeferralStep H} (htimely : s.Timely next) :
    (s.step next).Kept := by
  cases next with
  | validate checkContent slot closeTime txSetHash nomination =>
    exact hkept.validate checkContent slot closeTime txSetHash nomination
  | record slot deferral => exact hkept.record htimely
  | requestTxSet hash =>
    rw [DeferringHerder.step, requestTxSet]
    split
    · exact hkept
    split
    · exact hkept
    · exact ⟨hkept.reflects, hkept.notClear, hkept.justified, hkept.arrived, hkept.counted,
        hkept.closed, hkept.awaited⟩
  | cacheTxSet hash => exact hkept.cacheTxSet hash
  | receiveTxSet hash =>
    rw [DeferringHerder.step, receiveTxSet]
    split
    next hpending =>
      have hstored := hkept.storeTxSet (htimely hpending)
      exact ⟨hstored.reflects, hstored.notClear, hstored.justified, hstored.arrived,
        hstored.counted, hstored.closed, hstored.awaited⟩
    · exact hkept
  | storeTxSet hash => exact hkept.storeTxSet htimely
  | evictTxSet hash =>
    exact ⟨hkept.reflects, hkept.notClear, hkept.justified, hkept.arrived, hkept.counted,
      hkept.closed, hkept.awaited⟩
  | resolveMissingTxSet hash => exact hkept.resolveMissingTxSet hash
  | resolveApplyLagForNextIndex nextIndex => exact hkept.resolveApplyLag nextIndex
  | restoreSlotFullyValidated slot => exact hkept.restore slot
  | purgeDeferredSlots maxSlot => exact hkept.purge maxSlot
  | advance context =>
    exact ⟨hkept.reflects, hkept.notClear, hkept.justified, hkept.arrived, hkept.counted,
      hkept.closed, hkept.awaited⟩

theorem Reachable.kept (hreachable : Reachable Timely s) : s.Kept := by
  induction hreachable with
  | new context => exact kept_new context
  | step next _ htimely ih => exact ih.step htimely

/-- A slot is reported and restored once for each deferral, as soon as all of its causes
are cleared and not before, and it waits for a stored set only while the call that
resolves the set is due. -/
structure RestoredOnce (s : DeferringHerder H) : Prop where
  justified : Justified s.history
  reported : ∀ slot, deferralOpen slot s.history = true → ¬Cleared slot s.history
  restored : ∀ slot, s.history.count (.reported slot) =
    s.history.count (.restored slot) + s.restoresDue.count slot
  woken : ∀ slot hash, outstanding slot hash s.history = true →
    missedLast slot hash s.history = true ∨ hash ∈ s.resolvesDue

theorem Kept.not_cleared (hkept : s.Kept) {slot : Nat}
    (hopen : deferralOpen slot s.history = true) : ¬Cleared slot s.history := by
  rintro ⟨hmissing, hlag⟩
  obtain ⟨hisOpen, hreflects, hlagging⟩ := hkept.reflects slot
  cases hlookup : s.deferredSlots.lookup slot with
  | none =>
    rw [hlookup, hopen] at hisOpen
    exact absurd hisOpen (by simp)
  | some causes =>
    rw [hlookup] at hreflects hlagging
    have hempty : causes.missingTxSets = ∅ := by
      apply Finset.eq_empty_of_forall_notMem
      intro hash hmem
      have houtstanding := hreflects hash
      rw [hmissing hash] at houtstanding
      simp [hmem] at houtstanding
    have hcurrent : causes.applyLag = false := by
      rw [hlag] at hlagging
      simpa using hlagging.symm
    have hclear := hkept.notClear slot causes hlookup
    rw [isClear, hempty, hcurrent] at hclear
    simp at hclear

/-- In every run of timely steps, deferred slots are restored exactly once. -/
theorem deferred_slots_restored_once (hreachable : Reachable Timely s) : s.RestoredOnce where
  justified := hreachable.kept.justified
  reported _ := hreachable.kept.not_cleared
  restored := hreachable.kept.counted
  woken := hreachable.kept.awaited

/-! ### A set from the network -/

section Network

/-- Ledger 4 is closed. -/
def fourClosed : ValueValidationContext where
  lclSeq := 4
  lclCloseTime := 40
  tracking := none
  now := 50
  maxTimeDrift := 60

def afterSteps (steps : List (DeferralStep Nat)) : DeferringHerder Nat :=
  steps.foldl DeferringHerder.step (.new fourClosed)

def missSetSeven : List (DeferralStep Nat) :=
  [.requestTxSet 7, .validate (fun _ => true) 5 45 7 false, .record 5 (.missingTxSet 7)]

theorem reachable_afterSteps (steps : List (DeferralStep Nat)) :
    (afterSteps steps).Reachable (fun _ _ => True) := by
  refine List.foldlRecOn (motive := fun s : DeferringHerder Nat =>
    s.Reachable fun _ _ => True) _ _ (.new _) ?_
  exact fun _ hcurrent next _ => hcurrent.step next trivial

/-- A slot still waits for a set that arrived from the network, with no call due that
could wake it. -/
theorem received_set_wakes_nobody :
    ∃ s : DeferringHerder Nat, s.Reachable (fun _ _ => True) ∧ 7 ∈ s.cached ∧
      outstanding 5 7 s.history = true ∧ s.recordsDue = [] ∧ s.resolvesDue = [] ∧
      ¬s.RestoredOnce := by
  refine ⟨afterSteps (missSetSeven ++ [.receiveTxSet 7]), reachable_afterSteps _, by decide,
    by decide, by decide, by decide, ?_⟩
  intro honce
  exact absurd (honce.woken 5 7 (by decide)) (by decide)

theorem deferred_slots_restored_once_cached :
    (afterSteps (missSetSeven ++ [.cacheTxSet 7, .resolveMissingTxSet 7,
      .restoreSlotFullyValidated 5])).RestoredOnce ∧
      DeferralEvent.restored 5 ∈ (afterSteps (missSetSeven ++ [.cacheTxSet 7,
        .resolveMissingTxSet 7, .restoreSlotFullyValidated 5])).history := by
  have hnew : Reachable Timely (.new fourClosed : DeferringHerder Nat) := .new fourClosed
  have hrequested := hnew.step (.requestTxSet 7) trivial
  have hmissed := hrequested.step (.validate (fun _ => true) 5 45 7 false) trivial
  have hrecorded := hmissed.step (.record 5 (.missingTxSet 7)) ⟨by decide, by decide⟩
  have hcached := hrecorded.step (.cacheTxSet 7) trivial
  have hresolved := hcached.step (.resolveMissingTxSet 7) trivial
  have hrestored := hresolved.step (.restoreSlotFullyValidated 5) trivial
  exact ⟨deferred_slots_restored_once hrestored, by decide⟩

end Network

end DeferringHerder

end Henyey.Herder
