import Henyey.Buckets.BucketList
import Henyey.Buckets.LiveMerge

/-!
# Reading a bucket list

The first entry under a key, from the newest bucket to the oldest, decides. If
the buckets represent all ledgers in a row, that is the state after the last.
-/

namespace Henyey.Buckets

open Foundation Ledger

variable {I D H : Type} [LinearOrder I]

namespace BucketList

variable {key k : LedgerKey I} {entries xs ys : List (BucketEntry I D)}
  {entry : LedgerEntry I D} {seen : List (LedgerKey I)}

def firstHit (entries : List (BucketEntry I D)) (key : LedgerKey I) : Option (LedgerEntry I D) :=
  (lookup BucketEntry.key key entries).bind BucketEntry.asLedgerEntry

theorem lookup_append : lookup BucketEntry.key (key : WithBot (LedgerKey I)) (xs ++ ys) =
    (lookup BucketEntry.key key xs).or (lookup BucketEntry.key key ys) := by
  unfold lookup
  exact List.find?_append

theorem lookup_ne_metadata {metadata : BucketMetadata} :
    lookup BucketEntry.key (key : WithBot (LedgerKey I)) entries ≠ some (.metaentry metadata) := by
  intro hfound
  cases (mem_of_lookup hfound).2

theorem getFrom_eq (levels : List (LiveLevel I D H)) : getFrom key levels =
    firstHit ((levels.flatMap fun level => [level.curr, level.snap]).flatMap Bucket.entries) key := by
  induction levels with
  | nil => rfl
  | cons level levels ih =>
    unfold getFrom firstHit Bucket.get
    rw [List.flatMap_cons, List.flatMap_append, List.flatMap_cons, List.flatMap_cons,
      List.flatMap_nil, List.append_nil, List.append_assoc, lookup_append, lookup_append, ih]
    cases hcurr : lookup BucketEntry.key (key : WithBot (LedgerKey I)) level.curr.entries with
    | some e =>
      cases e with
      | metaentry metadata => exact absurd hcurr lookup_ne_metadata
      | _ => rfl
    | none =>
      cases hsnap : lookup BucketEntry.key (key : WithBot (LedgerKey I)) level.snap.entries with
      | some e =>
        cases e with
        | metaentry metadata => exact absurd hsnap lookup_ne_metadata
        | _ => rfl
      | none => rfl

theorem get_eq (list : BucketList I D H) :
    list.get key = firstHit (list.buckets.flatMap Bucket.entries) key :=
  getFrom_eq list.levelList

/-! ### Enumerations -/

structure Enumerates (entries : List (LedgerEntry I D)) (map : LedgerMap I D) : Prop where
  nodup : (entries.map entryToKey).Nodup
  mem : ∀ key entry, entry ∈ entries ∧ entryToKey entry = key ↔ map key = some entry

theorem firstHit_cons (e : BucketEntry I D) :
    firstHit (e :: entries) key = if e.key = key then e.asLedgerEntry else firstHit entries key := by
  unfold firstHit
  rw [lookup_cons]
  split <;> rfl

variable {e : BucketEntry I D}

theorem yieldLive_cons (hentry : e.asLedgerEntry = some entry) :
    yieldLive seen (e :: entries) =
      if entryToKey entry ∈ seen then yieldLive seen entries
      else entry :: yieldLive (entryToKey entry :: seen) entries := by
  cases e with
  | liveentry live =>
    obtain rfl := Option.some.inj hentry
    rfl
  | initentry live =>
    obtain rfl := Option.some.inj hentry
    rfl
  | _ => cases hentry

theorem mem_yieldLive : entry ∈ yieldLive seen entries ↔
    (entryToKey entry ∉ seen ∧ firstHit entries (entryToKey entry) = some entry) := by
  induction entries generalizing seen with
  | nil => simp [yieldLive, firstHit]
  | cons e entries ih =>
    rw [firstHit_cons]
    cases hentry : e.asLedgerEntry with
    | some live =>
      rw [yieldLive_cons hentry, BucketEntry.key_of_asLedgerEntry hentry]
      simp only [WithBot.coe_inj]
      by_cases hkey : entryToKey live = entryToKey entry
      · rw [if_pos hkey, hkey]
        split
        next hseen => simp [ih, hseen]
        next hseen =>
          simp only [List.mem_cons, ih, hseen]
          simp [eq_comm]
      · rw [if_neg hkey]
        split
        next hseen => exact ih
        next hseen =>
          have hne : entry ≠ live := fun h => hkey (by rw [h])
          simp [ih, hne, Ne.symm hkey]
    | none =>
      cases e with
      | metaentry metadata =>
        rw [if_neg (by simp [BucketEntry.key])]
        exact ih
      | deadentry key =>
        change entry ∈ yieldLive (key :: seen) entries ↔ _
        rw [ih, List.mem_cons, not_or]
        by_cases hkey : entryToKey entry = key
        · simp [BucketEntry.key, hkey]
        · simp [BucketEntry.key, hkey, Ne.symm hkey]
      | _ => cases hentry

theorem nodup_yieldLive : ((yieldLive seen entries).map entryToKey).Nodup := by
  induction entries generalizing seen with
  | nil => exact List.nodup_nil
  | cons e entries ih =>
    cases hentry : e.asLedgerEntry with
    | some live =>
      rw [yieldLive_cons hentry]
      split
      · exact ih
      · refine List.nodup_cons.mpr ⟨fun hmem => ?_, ih⟩
        obtain ⟨later, hlater, hsame⟩ := List.mem_map.mp hmem
        have hseen := (mem_yieldLive.mp hlater).1
        rw [hsame] at hseen
        exact hseen List.mem_cons_self
    | none =>
      cases e with
      | metaentry metadata => exact ih
      | deadentry key => exact ih
      | _ => cases hentry

/-- What decides under a key lies under it. -/
theorem key_of_firstHit (hhit : firstHit entries key = some entry) : entryToKey entry = key := by
  obtain ⟨e, hlookup, hentry⟩ := Option.bind_eq_some_iff.mp hhit
  have hkey := (mem_of_lookup hlookup).2
  rw [BucketEntry.key_of_asLedgerEntry hentry] at hkey
  exact WithBot.coe_inj.mp hkey

theorem enumerates_yieldLive : Enumerates (yieldLive [] entries) (firstHit entries) where
  nodup := nodup_yieldLive
  mem key entry := by
    rw [mem_yieldLive]
    constructor
    · rintro ⟨⟨-, hhit⟩, rfl⟩
      exact hhit
    · intro hhit
      obtain rfl := key_of_firstHit hhit
      exact ⟨⟨List.not_mem_nil, hhit⟩, rfl⟩

/-! ### Scans -/

omit [LinearOrder I] in
theorem entryType_of_asLedgerEntry (hentry : e.asLedgerEntry = some entry) :
    e.entryType = some (ledgerKeyType (entryToKey entry)) := by
  rw [ledgerKeyType_entryToKey]
  cases e with
  | liveentry live =>
    obtain rfl := Option.some.inj hentry
    rfl
  | initentry live =>
    obtain rfl := Option.some.inj hentry
    rfl
  | _ => cases hentry

variable {types : List LedgerEntryType}

theorem scanEntries_cons {entryType : LedgerEntryType} (hkey : e.key = key)
    (htype : e.entryType = some entryType) : scanEntries types (fun _ => true) seen (e :: entries) =
      if key ∈ seen then scanEntries types (fun _ => true) seen entries
      else if entryType ∈ types then
        if e.isDead then scanEntries types (fun _ => true) (key :: seen) entries
        else (e :: (scanEntries types (fun _ => true) (key :: seen) entries).1,
          (scanEntries types (fun _ => true) (key :: seen) entries).2)
      else scanEntries types (fun _ => true) seen entries := by
  rw [scanEntries, hkey, htype]
  rfl

/-- A scan that is not stopped calls back with what is yielded of its types. What
it has seen of them is what was seen. -/
theorem scanEntries_eq {seen seen' : List (LedgerKey I)}
    (hseen : ∀ key, ledgerKeyType key ∈ types → (key ∈ seen' ↔ key ∈ seen)) :
    (scanEntries types (fun _ => true) seen' entries).2 = true ∧
      (scanEntries types (fun _ => true) seen' entries).1.map BucketEntry.asLedgerEntry =
        ((yieldLive seen entries).filter fun entry =>
          ledgerKeyType (entryToKey entry) ∈ types).map some := by
  induction entries generalizing seen seen' with
  | nil => exact ⟨rfl, rfl⟩
  | cons e entries ih =>
    -- a key of other types may be seen or not
    have hother : ∀ k, ledgerKeyType k ∉ types →
        ∀ key, ledgerKeyType key ∈ types → (key ∈ seen' ↔ key ∈ k :: seen) := by
      intro k hk key hkey
      have hne : key ≠ k := fun h => hk (h ▸ hkey)
      rw [List.mem_cons, or_iff_right hne]
      exact hseen key hkey
    have hboth : ∀ k key, ledgerKeyType key ∈ types → (key ∈ k :: seen' ↔ key ∈ k :: seen) := by
      intro k key hkey
      rw [List.mem_cons, List.mem_cons, hseen key hkey]
    cases hentry : e.asLedgerEntry with
    | some live =>
      have hlive : e.isDead = false := by
        cases e with
        | deadentry key => cases hentry
        | _ => rfl
      rw [yieldLive_cons hentry, scanEntries_cons (BucketEntry.key_of_asLedgerEntry hentry)
        (entryType_of_asLedgerEntry hentry), hlive]
      by_cases htype : ledgerKeyType (entryToKey live) ∈ types
      · simp only [hseen _ htype, if_pos htype]
        split
        · exact ih hseen
        · simpa [htype, hentry] using ih (hboth (entryToKey live))
      · rw [if_neg htype, ite_self]
        split
        · exact ih hseen
        · simpa [htype] using ih (hother _ htype)
    | none =>
      cases e with
      | metaentry metadata => exact ih hseen
      | deadentry key =>
        rw [scanEntries_cons (show (BucketEntry.deadentry key).key = key from rfl) rfl]
        change _ ∧ _ = ((yieldLive (key :: seen) entries).filter _).map some
        by_cases htype : ledgerKeyType key ∈ types
        · simp only [if_pos htype]
          split
          next hmem =>
            refine ih fun k hk => ?_
            rw [List.mem_cons, hseen k hk]
            exact ⟨.inr, fun h => h.elim (fun h => h ▸ (hseen key htype).mp hmem) id⟩
          · exact ih (hboth key)
        · rw [if_neg htype, ite_self]
          exact ih (hother key htype)
      | _ => cases hentry

/-- The part of a map with keys of some types. -/
def ofTypes (types : List LedgerEntryType) (map : LedgerMap I D) : LedgerMap I D :=
  fun key => if ledgerKeyType key ∈ types then map key else none

omit [LinearOrder I] in
theorem Enumerates.filter {map : LedgerMap I D} {live : List (LedgerEntry I D)}
    (henum : Enumerates live map) (types : List LedgerEntryType) :
    Enumerates (live.filter fun entry => ledgerKeyType (entryToKey entry) ∈ types)
      (ofTypes types map) where
  nodup := henum.nodup.sublist (List.filter_sublist.map entryToKey)
  mem key entry := by
    have hmem := henum.mem key entry
    unfold ofTypes
    rw [List.mem_filter, decide_eq_true_iff]
    split
    next htype =>
      rw [← hmem]
      constructor
      · rintro ⟨⟨hentry, -⟩, hkey⟩
        exact ⟨hentry, hkey⟩
      · rintro ⟨hentry, rfl⟩
        exact ⟨⟨hentry, htype⟩, rfl⟩
    next htype =>
      simp only [reduceCtorEq, iff_false]
      rintro ⟨⟨-, h⟩, rfl⟩
      exact htype h

end BucketList

/-! ### Buckets in a row -/

variable {hasher : Hasher (BucketEntry I D) H} {h : LiveHistory I D}
  {bucket : Bucket I D H} {buckets : List (Bucket I D H)} {a b c : ℕ}

/-- Buckets, the newest first, that represent all ledgers before one. -/
inductive Chain (hasher : Hasher (BucketEntry I D) H) (h : LiveHistory I D) :
    List (Bucket I D H) → ℕ → Prop where
  | nil : Chain hasher h [] 0
  | cons {bucket : Bucket I D H} {buckets : List (Bucket I D H)} {a c : ℕ}
      (hrep : LiveRepresents hasher h bucket a c) (hac : a ≤ c)
      (hrest : Chain hasher h buckets a) : Chain hasher h (bucket :: buckets) c

omit [LinearOrder I] in
theorem live_tells (hac : a ≤ c) :
    Tells BucketEntry.asLedgerEntry liveEntryAt h.toTimeline a c where
  found k e hfound := by
    rw [Timeline.before_eq hac]
    rcases hbefore : h.before a k with _ | before <;>
      rcases hnet : h.net a c k with _ | _ | entry <;>
      rw [hbefore, hnet] at hfound <;> cases hfound <;> rfl
  missing k hmissing := by
    rw [Timeline.before_eq hac]
    rcases hbefore : h.before a k with _ | before <;>
      rcases hnet : h.net a c k with _ | _ | entry <;>
      rw [hbefore, hnet] at hmissing <;> first | rfl | cases hmissing

theorem Chain.firstHit (hchain : Chain hasher h buckets c) (key : LedgerKey I) :
    BucketList.firstHit (buckets.flatMap Bucket.entries) key = h.before c key := by
  induction hchain with
  | nil => rfl
  | @cons bucket buckets a c hrep hac hrest ih =>
    obtain ⟨body, hbody, hentries, -⟩ := hrep
    rw [← hbody.search (live_tells hac) ih, List.flatMap_cons, hentries]
    have hheader : lookup BucketEntry.key (key : WithBot (LedgerKey I))
        (((h.headerVersion a c).map fun v => BucketEntry.metaentry (.ofVersion .live v)).toList ++
          body) = lookup BucketEntry.key (key : WithBot (LedgerKey I)) body := by
      cases h.headerVersion a c with
      | none => rfl
      | some version =>
        exact lookup_cons.trans (if_neg (by simp [BucketEntry.key]))
    unfold BucketList.firstHit
    rw [BucketList.lookup_append, hheader]
    cases lookup BucketEntry.key (key : WithBot (LedgerKey I)) body <;> rfl

theorem Chain.flatMap_filter [DecidableEq H] (hzero : hasher.NonZero)
    (hchain : Chain hasher h buckets c) :
    (buckets.filter fun bucket => !bucket.isEmpty hasher).flatMap Bucket.entries =
      buckets.flatMap Bucket.entries := by
  induction hchain with
  | nil => rfl
  | @cons bucket buckets a c hrep hac hrest ih =>
    rw [List.filter_cons]
    cases hempty : bucket.isEmpty hasher with
    | false => simp [ih]
    | true =>
      have hnil := (isEmpty_iff hzero hrep).mp hempty
      simp [ih, hnil]

end Henyey.Buckets
