import Henyey.Buckets.MergePaths

/-!
# Laws of merges

Below every key a merge combines what its inputs have there. Over a legal history three buckets
in a row can be merged in either order.
-/

namespace Henyey.Buckets

open Foundation Ledger

variable {I D H : Type}

/-- An entry of one input only: a tombstone goes if the policy says so. -/
def carried (policy : DeadEntryPolicy) : BucketEntry I D → Option (BucketEntry I D)
  | .deadentry key => if policy = .remove then none else some (.deadentry key)
  | e => some e

/-- What a merge is to leave under a key. -/
def combination (policy : DeadEntryPolicy) :
    Option (BucketEntry I D) → Option (BucketEntry I D) → Option (BucketEntry I D)
  | some (.initentry _), some (.deadentry _) => none
  | some (.initentry _), some (.liveentry entry) => some (.initentry entry)
  | some (.deadentry _), some (.initentry entry) => some (.liveentry entry)
  | _, some new => carried policy new
  | old, none => old.bind (carried policy)

/-- An init entry is of a key that the older bucket has no entry of, or a tombstone. -/
def Compatible (olds news : List (BucketEntry I D)) : Prop :=
  ∀ old ∈ olds, ∀ new ∈ news, old.key = new.key → (∃ entry, new = .initentry entry) →
    old.isDead = true

theorem shouldKeepEntry_eq (policy : DeadEntryPolicy) (e : BucketEntry I D) :
    (if shouldKeepEntry policy e then some e else none) = carried policy e := by
  cases e <;> cases policy <;> rfl

/-- The code combines two entries as it should. -/
theorem mergeEntries_eq {policy : DeadEntryPolicy} {old new : BucketEntry I D}
    (hold : old.isMetadata = false) (hnew : new.isMetadata = false)
    (hinit : (∃ entry, new = .initentry entry) → old.isDead = true) :
    mergeEntries (H := H) policy old new = .ok (combination policy (some old) (some new)) := by
  cases new with
  | metaentry metadata => cases hnew
  | initentry entry =>
    cases old with
    | deadentry key => rfl
    | metaentry metadata => cases hold
    | _ => cases hinit ⟨entry, rfl⟩
  | liveentry entry =>
    cases old with
    | metaentry metadata => cases hold
    | _ => rfl
  | deadentry key =>
    cases old with
    | metaentry metadata => cases hold
    | initentry entry => rfl
    | _ => cases policy <;> rfl

variable [LinearOrder I]

theorem eq_of_lookup {es es' : List (BucketEntry I D)} (hes : Ascending BucketEntry.key es)
    (hes' : Ascending BucketEntry.key es')
    (hlookup : ∀ key, lookup BucketEntry.key key es = lookup BucketEntry.key key es') :
    es = es' := by
  have hmem (e : BucketEntry I D) : e ∈ es ↔ e ∈ es' := by
    constructor
    · intro he
      have hsome := hes.lookup_of_mem he
      rw [hlookup] at hsome
      exact (mem_of_lookup hsome).1
    · intro he
      have hsome := hes'.lookup_of_mem he
      rw [← hlookup] at hsome
      exact (mem_of_lookup hsome).1
  have hperm : es.Perm es' :=
    (List.perm_ext_iff_of_nodup (hes.imp fun hlt heq => hlt.ne (congrArg _ heq))
      (hes'.imp fun hlt heq => hlt.ne (congrArg _ heq))).mpr hmem
  exact hperm.eq_of_pairwise (fun _ _ _ _ hlt hgt => absurd hlt hgt.asymm) hes hes'

/-! ### The metadata of a merge -/

def metadataOf (bucket : Bucket I D H) : Option BucketMetadata :=
  (advanceSkipMetadata none bucket.entries).1

def versionOf (bucket : Bucket I D H) : ℕ := (metadataOf bucket).elim 0 (·.ledgerVersion)

/-- A bucket from before protocol 11 tells no version. -/
def toldVersion (version : ℕ) : Option ℕ := if version < 11 then none else some version

def outputVersion (opts : MergeOptions) (old new : Bucket I D H) : ℕ :=
  match opts.metadataPolicy with
  | .inputDerived => max (versionOf old) (versionOf new)
  | .currentProtocol => opts.maxProtocolVersion

/-- The metadata of an input is not of a later protocol than the merge. -/
def Admits (opts : MergeOptions) (bucket : Bucket I D H) : Prop :=
  opts.metadataPolicy = .inputDerived → 0 < opts.maxProtocolVersion →
    versionOf bucket ≤ opts.maxProtocolVersion

theorem buildOutputMetadata_eq {opts : MergeOptions} {old new : Bucket I D H}
    (hold : Admits opts old) (hnew : Admits opts new) :
    buildOutputMetadata (H := H) (metadataOf old) (metadataOf new) opts.maxProtocolVersion
      opts.metadataPolicy =
        .ok ((toldVersion (outputVersion opts old new)).map (.ofVersion .live)) := by
  unfold buildOutputMetadata outputVersion toldVersion
  cases hpolicy : opts.metadataPolicy with
  | currentProtocol =>
    simp only [bind, Except.bind]
    split <;> rfl
  | inputDerived =>
    have hle : 0 < opts.maxProtocolVersion →
        max (versionOf old) (versionOf new) ≤ opts.maxProtocolVersion := fun hpos =>
      max_le (hold hpolicy hpos) (hnew hpolicy hpos)
    have hfits : (decide (0 < opts.maxProtocolVersion) &&
        decide (opts.maxProtocolVersion < max (versionOf old) (versionOf new))) = false := by
      simpa using hle
    unfold versionOf at hfits ⊢
    simp only [hfits, Bool.false_eq_true, if_false, bind, Except.bind]
    split <;> rfl

def outputEntries (version : Option ℕ) (merged : List (BucketEntry I D)) : List (BucketEntry I D) :=
  ((version.map (.ofVersion .live)).map .metaentry).toList ++ merged

variable {bucket : Bucket I D H} {merged : List (BucketEntry I D)}

theorem versionOf_output {version : Option ℕ}
    (hbucket : bucket.entries = outputEntries version merged)
    (hkeyed : ∀ e ∈ merged, e.key ≠ ⊥) : versionOf bucket = version.getD 0 := by
  unfold versionOf metadataOf
  rw [hbucket, outputEntries, ← header_eq, advanceSkipMetadata_header version hkeyed]
  cases version <;> rfl

theorem bodyOf_output {version : Option ℕ} (hbucket : bucket.entries = outputEntries version merged)
    (hkeyed : ∀ e ∈ merged, e.key ≠ ⊥) : bodyOf bucket = merged := by
  unfold bodyOf
  rw [hbucket, outputEntries, filter_isMetadata_header _ hkeyed]

def mergeVersion (opts : MergeOptions) (old new : Bucket I D H) : Option ℕ :=
  if old.entries = [] ∧ new.entries = [] then none else toldVersion (outputVersion opts old new)

theorem key_ne_bot_of_mem_bodyOf {e : BucketEntry I D} (he : e ∈ bodyOf bucket) : e.key ≠ ⊥ := by
  rw [ne_eq, BucketEntry.key_eq_bot_iff]
  simpa using (List.mem_filter.mp he).2

theorem isMetadata_of_lookup {key : WithBot (LedgerKey I)} {e : BucketEntry I D}
    (he : lookup BucketEntry.key key (bodyOf bucket) = some e) : e.isMetadata = false := by
  simpa using (List.mem_filter.mp (mem_of_lookup he).1).2

theorem bodyOf_of_nil (hnil : bucket.entries = []) : bodyOf bucket = [] := by
  unfold bodyOf
  rw [hnil]
  rfl

theorem versionOf_of_nil (hnil : bucket.entries = []) : versionOf bucket = 0 := by
  unfold versionOf metadataOf
  rw [hnil]
  rfl

/-- What a merge gives: sorted entries, one leading metadata entry at most, and below every key
the combination of both inputs. -/
structure IsMerge (opts : MergeOptions) (old new bucket : Bucket I D H) : Prop where
  sorted : Ascending BucketEntry.key bucket.entries
  output : bucket.entries = outputEntries (mergeVersion opts old new) (bodyOf bucket)
  combined : ∀ key, lookup BucketEntry.key key (bodyOf bucket) =
    combination opts.keepDeadEntries (lookup BucketEntry.key key (bodyOf old))
      (lookup BucketEntry.key key (bodyOf new))

omit [LinearOrder I] in
/-- The code combines what it finds under a key as it should. -/
theorem mergedAt_eq {policy : DeadEntryPolicy} {old new : Option (BucketEntry I D)}
    (hold : ∀ o, old = some o → o.isMetadata = false)
    (hnew : ∀ n, new = some n → n.isMetadata = false)
    (hinit : ∀ o n, old = some o → new = some n → (∃ entry, n = .initentry entry) →
      o.isDead = true) :
    mergedAt (shouldKeepEntry policy) (mergeEntries (H := H) policy) old new =
      .ok (combination policy old new) := by
  cases old with
  | none =>
    cases new with
    | none => rfl
    | some new => exact congrArg Except.ok (shouldKeepEntry_eq policy new)
  | some old =>
    cases new with
    | none =>
      refine (congrArg Except.ok (shouldKeepEntry_eq policy old)).trans ?_
      cases old <;> rfl
    | some new => exact mergeEntries_eq (hold old rfl) (hnew new rfl) (hinit old new rfl rfl)

/-! ### One merge -/

section Laws

variable [DecidableEq H] {hasher : Hasher (BucketEntry I D) H} {opts : MergeOptions}
  {old new bucket a b c ab bc : Bucket I D H}
  {live between after last : WithBot (LedgerKey I) → Bool}

omit [DecidableEq H] in
theorem ok_of_hashAndEntries {result : Except (BucketError H) (Bucket I D H)} {hash : H}
    {entries : List (BucketEntry I D)} (hok : hashAndEntries result = .ok (hash, entries)) :
    ∃ bucket, result = .ok bucket ∧ bucket.hash = hash ∧ bucket.entries = entries := by
  cases result with
  | error e => cases hok
  | ok bucket =>
    cases hok
    exact ⟨bucket, rfl, rfl, rfl⟩

theorem mergeBuckets_isMerge (hempty : new.isEmpty hasher = true → old.isEmpty hasher = true →
      old.entries = [] ∧ new.entries = [])
    (hold : Admits opts old) (hnew : Admits opts new)
    (hcompatible : Compatible (bodyOf old) (bodyOf new)) :
    ∃ bucket, mergeBuckets hasher old new opts = .ok bucket ∧ IsMerge opts old new bucket ∧
      (bucket.entries ≠ [] → bucket.hash = hasher.file bucket.entries) := by
  have hat (key : WithBot (LedgerKey I)) :
      mergedAt (shouldKeepEntry opts.keepDeadEntries)
          (mergeEntries (H := H) opts.keepDeadEntries) (lookup BucketEntry.key key (bodyOf old))
          (lookup BucketEntry.key key (bodyOf new)) =
        .ok (combination opts.keepDeadEntries (lookup BucketEntry.key key (bodyOf old))
          (lookup BucketEntry.key key (bodyOf new))) :=
    mergedAt_eq (fun _ ho => isMetadata_of_lookup ho) (fun _ hn => isMetadata_of_lookup hn)
      fun o n ho hn => hcompatible o (mem_of_lookup ho).1 n (mem_of_lookup hn).1
        ((mem_of_lookup ho).2.trans (mem_of_lookup hn).2.symm)
  have hmetadata := buildOutputMetadata_eq hold hnew
  obtain ⟨plain, hplain, hmerges⟩ :=
    @mergeSorted_bodyOf I D H _ opts.keepDeadEntries old new fun o ho n hn heq =>
      ⟨_, mergeEntries_eq (by simpa using (List.mem_filter.mp ho).2)
        (by simpa using (List.mem_filter.mp hn).2) (hcompatible o ho n hn heq)⟩
  rw [← mergeBucketsNormalizing_preserve]
  rcases @mergeBucketsNormalizing_cases I D H _ _ hasher old new opts .preserve with
    ⟨hnewEmpty, holdEmpty, hmemory, -⟩ | ⟨e, -, -, herror⟩ |
      ⟨outputMeta, merged, hfull, hmeta, hmerged, hmemory, -⟩
  · obtain ⟨holdNil, hnewNil⟩ := hempty hnewEmpty holdEmpty
    refine ⟨_, hmemory, ⟨(Bucket.empty hasher).sorted, ?_, fun key => ?_⟩,
      fun hne => absurd rfl hne⟩
    · unfold mergeVersion
      rw [if_pos ⟨holdNil, hnewNil⟩]
      rfl
    · rw [bodyOf_of_nil holdNil, bodyOf_of_nil hnewNil]
      rfl
  · rcases herror with hmeta | hmerged
    · cases hmetadata.symm.trans hmeta
    · rw [mergeNormalizing_preserve, hplain] at hmerged
      cases hmerged
  · rw [mergeNormalizing_preserve, hplain, Except.ok.injEq] at hmerged
    subst hmerged
    have hversion : mergeVersion opts old new = toldVersion (outputVersion opts old new) := by
      refine if_neg fun hnil => hfull ?_
      unfold Bucket.isEmpty
      rw [hnil.1, hnil.2]
      simp
    have hsome : outputMeta = (mergeVersion opts old new).map (.ofVersion .live) := by
      rw [hversion]
      exact (Except.ok.inj (hmetadata.symm.trans hmeta)).symm
    have hkeyed : ∀ e ∈ plain, e.key ≠ ⊥ := by
      intro e he
      obtain ⟨source, hsource, hkey⟩ := hmerges.source e he
      rw [← hkey]
      rcases List.mem_append.mp hsource with h | h
      · exact key_ne_bot_of_mem_bodyOf h
      · exact key_ne_bot_of_mem_bodyOf h
    -- the empty output has the same shape
    obtain ⟨hash, hresult, hhash⟩ : ∃ hash,
        hashAndEntries (mergeBucketsNormalizing hasher old new opts .preserve) =
          .ok (hash, outputEntries (mergeVersion opts old new) plain) ∧
        (outputEntries (mergeVersion opts old new) plain ≠ [] →
          hash = hasher.file (outputEntries (mergeVersion opts old new) plain)) := by
      rw [hmemory]
      unfold outputEntries
      rw [← hsome]
      by_cases hnone : outputMeta = none ∧ plain = []
      · obtain ⟨rfl, rfl⟩ := hnone
        exact ⟨hasher.zero, rfl, fun hne => absurd rfl hne⟩
      · rw [if_neg hnone]
        exact ⟨_, rfl, fun _ => rfl⟩
    obtain ⟨bucket, hbucket, rfl, hentries⟩ := ok_of_hashAndEntries hresult
    have hbody := bodyOf_output hentries hkeyed
    refine ⟨bucket, hbucket, ⟨bucket.sorted, ?_, fun key => ?_⟩, ?_⟩
    · rw [hbody]
      exact hentries
    · rw [hbody]
      exact (Except.ok.inj ((hat key).symm.trans (hmerges.outcome key))).symm
    · rw [hentries]
      exact hhash

/-! ### Three buckets in a row -/

/-- Whether a key is live after a bucket. What is not live is created, and what is live is updated
or deleted. -/
def liveAfter (live : Bool) : Option (BucketEntry I D) → Option Bool
  | none => some live
  | some (.initentry _) => if live then none else some true
  | some (.liveentry _) => if live then some true else none
  | some (.deadentry _) => if live then some false else none
  | some (.metaentry _) => none

def Leads (live after : WithBot (LedgerKey I) → Bool) (bucket : Bucket I D H) : Prop :=
  ∀ key, liveAfter (live key) (lookup BucketEntry.key key (bodyOf bucket)) = some (after key)

def LegalHistory (live : WithBot (LedgerKey I) → Bool) : List (Bucket I D H) → Prop
  | [] => True
  | bucket :: buckets => ∃ after, Leads live after bucket ∧ LegalHistory after buckets

section

omit [LinearOrder I]

theorem liveAfter_combination {live between after : Bool} {x y : Option (BucketEntry I D)}
    (hx : liveAfter live x = some between) (hy : liveAfter between y = some after) :
    liveAfter live (combination .keep x y) = some after := by
  rcases x with _ | (_ | _ | _ | _) <;> rcases y with _ | (_ | _ | _ | _) <;>
    cases live <;> cases between <;> simp_all [liveAfter, combination, carried]

/-- Only the keys of tombstones are at stake where the history is legal. -/
theorem combination_assoc {live first second third : Bool} {x y z : Option (BucketEntry I D)}
    {key : WithBot (LedgerKey I)} (hkeyx : ∀ e, x = some e → e.key = key)
    (hkeyz : ∀ e, z = some e → e.key = key) (hx : liveAfter live x = some first)
    (hy : liveAfter first y = some second) (hz : liveAfter second z = some third) :
    combination .keep (combination .keep x y) z = combination .keep x (combination .keep y z) := by
  rcases x with _ | (_ | _ | _ | old) <;> rcases y with _ | (_ | _ | _ | _) <;>
    cases live <;> cases first <;> simp [liveAfter] at hx hy <;>
    rcases z with _ | (_ | _ | _ | new) <;> subst_vars <;>
    simp_all [liveAfter, combination, carried]
  -- deleted, created again and deleted again
  exact WithBot.coe_injective (hkeyz.trans hkeyx.symm)

theorem isDead_of_liveAfter {before : Bool} {e : BucketEntry I D}
    (hdead : liveAfter before (some e) = some false) : e.isDead = true := by
  cases e <;> cases before <;> simp_all [liveAfter, BucketEntry.isDead]

end

omit [DecidableEq H] in
theorem Leads.compatible (hfirst : Leads live between a) (hsecond : Leads between after b) :
    Compatible (bodyOf a) (bodyOf b) := by
  rintro old hold new hnew heq ⟨entry, rfl⟩
  have hold := (congrArg (liveAfter (live old.key))
    ((ascending_bodyOf a).lookup_of_mem hold)).symm.trans (hfirst old.key)
  have hnew := (congrArg (liveAfter (between old.key))
    (heq ▸ (ascending_bodyOf b).lookup_of_mem hnew)).symm.trans (hsecond old.key)
  -- a creation shows that the key was not live
  have hnotLive : between old.key = false := by
    cases hlive : between old.key with
    | false => rfl
    | true =>
      rw [hlive] at hnew
      cases hnew
  rw [hnotLive] at hold
  exact isDead_of_liveAfter hold

omit [DecidableEq H] in
theorem IsMerge.leads (hkeep : opts.keepDeadEntries = .keep) (hmerge : IsMerge opts a b ab)
    (hfirst : Leads live between a) (hsecond : Leads between after b) : Leads live after ab := by
  intro key
  rw [hmerge.combined, hkeep]
  exact liveAfter_combination (hfirst key) (hsecond key)

omit [LinearOrder I] [DecidableEq H] in
theorem toldVersion_getD (version : ℕ) :
    (toldVersion version).getD 0 = if version < 11 then 0 else version := by
  unfold toldVersion
  split <;> rfl

section

omit [DecidableEq H]

theorem mergeVersion_inputDerived (hpolicy : opts.metadataPolicy = .inputDerived) :
    mergeVersion opts a b = toldVersion (max (versionOf a) (versionOf b)) := by
  unfold mergeVersion outputVersion
  rw [hpolicy]
  split
  next hnil =>
    rw [versionOf_of_nil hnil.1, versionOf_of_nil hnil.2]
    rfl
  · rfl

theorem IsMerge.versionOf_eq (hmerge : IsMerge opts a b ab) :
    versionOf ab = (mergeVersion opts a b).getD 0 :=
  versionOf_output hmerge.output fun _ he => key_ne_bot_of_mem_bodyOf he

theorem IsMerge.nil_iff (hmerge : IsMerge opts a b ab)
    (htold : toldVersion (outputVersion opts a b) ≠ none) :
    ab.entries = [] ↔ a.entries = [] ∧ b.entries = [] := by
  constructor
  · intro hnil
    by_contra hne
    have houtput := hmerge.output
    unfold mergeVersion at houtput
    rw [if_neg hne, hnil] at houtput
    cases htoldVersion : toldVersion (outputVersion opts a b) with
    | none => exact htold htoldVersion
    | some version =>
      rw [htoldVersion] at houtput
      cases houtput
  · rintro ⟨hfirst, hsecond⟩
    have hbody : bodyOf ab = [] := by
      rw [List.eq_nil_iff_forall_not_mem]
      intro e he
      have hcombined := hmerge.combined e.key
      rw [(ascending_bodyOf ab).lookup_of_mem he, bodyOf_of_nil hfirst, bodyOf_of_nil hsecond]
        at hcombined
      cases hcombined
    rw [hmerge.output, hbody]
    unfold mergeVersion
    rw [if_pos ⟨hfirst, hsecond⟩]
    rfl

/-- The metadata of three buckets in a row does not depend on the order of the merges. -/
theorem mergeVersion_assoc (hab : IsMerge opts a b ab) (hbc : IsMerge opts b c bc) :
    mergeVersion opts ab c = mergeVersion opts a bc := by
  cases hpolicy : opts.metadataPolicy with
  | inputDerived =>
    rw [mergeVersion_inputDerived hpolicy, mergeVersion_inputDerived hpolicy, hab.versionOf_eq,
      hbc.versionOf_eq, mergeVersion_inputDerived hpolicy, mergeVersion_inputDerived hpolicy,
      toldVersion_getD, toldVersion_getD]
    generalize versionOf a = u, versionOf b = v, versionOf c = w
    unfold toldVersion
    split_ifs <;> first | rfl | omega | (congr 1; omega)
  | currentProtocol =>
    have hversion (x y : Bucket I D H) : outputVersion opts x y = opts.maxProtocolVersion := by
      unfold outputVersion
      rw [hpolicy]
    unfold mergeVersion
    rw [hversion, hversion]
    by_cases htold : toldVersion opts.maxProtocolVersion = none
    · rw [htold, ite_self, ite_self]
    · have hnilab := hab.nil_iff (by rwa [hversion])
      have hnilbc := hbc.nil_iff (by rwa [hversion])
      exact if_congr (by rw [hnilab, hnilbc, and_assoc]) rfl rfl

theorem IsMerge.admits (hmerge : IsMerge opts a b ab) (ha : Admits opts a) (hb : Admits opts b) :
    Admits opts ab := by
  intro hpolicy hpos
  rw [hmerge.versionOf_eq, mergeVersion_inputDerived hpolicy, toldVersion_getD]
  have hle := max_le (ha hpolicy hpos) (hb hpolicy hpos)
  split
  · exact Nat.zero_le _
  · exact hle

end

/-- The output of a merge counts as empty only if it is. -/
theorem entries_of_isEmpty (hzero : hasher.NonZero)
    (hhash : bucket.entries ≠ [] → bucket.hash = hasher.file bucket.entries)
    (hempty : bucket.isEmpty hasher = true) : bucket.entries = [] := by
  by_contra hne
  unfold Bucket.isEmpty at hempty
  rw [hhash hne] at hempty
  simp [hzero _ hne, hne] at hempty

omit [DecidableEq H] in
theorem IsMerge.assoc {left right : Bucket I D H} (hkeep : opts.keepDeadEntries = .keep)
    (hfirst : Leads live between a) (hsecond : Leads between after b) (hthird : Leads after last c)
    (hab : IsMerge opts a b ab) (hbc : IsMerge opts b c bc) (hleft : IsMerge opts ab c left)
    (hright : IsMerge opts a bc right) : left.entries = right.entries := by
  have hbody : bodyOf left = bodyOf right := by
    refine eq_of_lookup (ascending_bodyOf left) (ascending_bodyOf right) fun key => ?_
    rw [hleft.combined, hright.combined, hab.combined, hbc.combined, hkeep]
    exact combination_assoc (fun e he => (mem_of_lookup he).2) (fun e he => (mem_of_lookup he).2)
      (hfirst key) (hsecond key) (hthird key)
  rw [hleft.output, hright.output, hbody, mergeVersion_assoc hab hbc]

/-- Merges combine compatible buckets key by key, and over a legal history in any order. -/
theorem mergeBuckets_semantics (hzero : hasher.NonZero) (opts : MergeOptions) :
    (∀ old new : Bucket I D H,
      (new.isEmpty hasher = true → old.isEmpty hasher = true →
        old.entries = [] ∧ new.entries = []) →
      Admits opts old → Admits opts new → Compatible (bodyOf old) (bodyOf new) →
      ∃ bucket, mergeBuckets hasher old new opts = .ok bucket ∧ IsMerge opts old new bucket) ∧
    ∀ (live : WithBot (LedgerKey I) → Bool) (a b c : Bucket I D H),
      opts.keepDeadEntries = .keep → LegalHistory live [a, b, c] →
      (∀ bucket ∈ [a, b, c],
        (bucket.isEmpty hasher = true → bucket.entries = []) ∧ Admits opts bucket) →
      ∃ ab bc left right, mergeBuckets hasher a b opts = .ok ab ∧
        mergeBuckets hasher b c opts = .ok bc ∧ mergeBuckets hasher ab c opts = .ok left ∧
        mergeBuckets hasher a bc opts = .ok right ∧ left.entries = right.entries := by
  constructor
  · intro old new hempty hold hnew hcompatible
    obtain ⟨bucket, hbucket, hmerge, -⟩ := mergeBuckets_isMerge hempty hold hnew hcompatible
    exact ⟨bucket, hbucket, hmerge⟩
  · rintro live a b c hkeep ⟨between, hfirst, after, hsecond, last, hthird, -⟩ hall
    obtain ⟨haEmpty, ha⟩ := hall a (by simp)
    obtain ⟨hbEmpty, hb⟩ := hall b (by simp)
    obtain ⟨hcEmpty, hc⟩ := hall c (by simp)
    obtain ⟨ab, habOk, hab, habHash⟩ := mergeBuckets_isMerge
      (fun hnew hold => ⟨haEmpty hold, hbEmpty hnew⟩) ha hb (hfirst.compatible hsecond)
    obtain ⟨bc, hbcOk, hbc, hbcHash⟩ := mergeBuckets_isMerge
      (fun hnew hold => ⟨hbEmpty hold, hcEmpty hnew⟩) hb hc (hsecond.compatible hthird)
    obtain ⟨left, hleftOk, hleft, -⟩ := mergeBuckets_isMerge
      (fun hnew hold => ⟨entries_of_isEmpty hzero habHash hold, hcEmpty hnew⟩)
      (hab.admits ha hb) hc ((hab.leads hkeep hfirst hsecond).compatible hthird)
    obtain ⟨right, hrightOk, hright, -⟩ := mergeBuckets_isMerge
      (fun hnew hold => ⟨haEmpty hold, entries_of_isEmpty hzero hbcHash hnew⟩)
      ha (hbc.admits hb hc) (hfirst.compatible (hbc.leads hkeep hsecond hthird))
    exact ⟨ab, bc, left, right, habOk, hbcOk, hleftOk, hrightOk,
      hab.assoc hkeep hfirst hsecond hthird hbc hleft hright⟩

end Laws

section Example

def createdEntry : BucketEntry ℕ ℕ := .initentry ⟨6, .contractCode 7 100, none⟩

theorem leads_diskBucket {live : WithBot (LedgerKey ℕ) → Bool} {e : BucketEntry ℕ ℕ} {is : Bool}
    (hkeyed : e.isMetadata = false) (hlive : liveAfter (live e.key) (some e) = some is) :
    Leads live (Function.update live e.key is) (diskBucket e) := by
  intro key
  have hbody : bodyOf (diskBucket e) = [e] := by
    refine List.filter_eq_self.mpr fun e' he' => ?_
    rw [List.mem_singleton.mp he', hkeyed]
    rfl
  rw [hbody, lookup_cons]
  by_cases hkey : e.key = key
  · subst hkey
    rw [if_pos rfl, Function.update_self]
    exact hlive
  · rw [if_neg hkey, Function.update_of_ne (Ne.symm hkey)]
    rfl

/-- Created, deleted and created again. -/
theorem mergeBuckets_semantics_recreated :
    (∃ bucket,
      mergeBuckets recordingHasher (diskBucket deletedEntry) (diskBucket createdEntry)
          { keepDeadEntries := .keep, maxProtocolVersion := 23 } = .ok bucket ∧
        IsMerge { keepDeadEntries := .keep, maxProtocolVersion := 23 } (diskBucket deletedEntry)
          (diskBucket createdEntry) bucket) ∧
      ∃ ab bc left right,
        mergeBuckets recordingHasher (diskBucket createdEntry) (diskBucket deletedEntry)
            { keepDeadEntries := .keep, maxProtocolVersion := 23 } = .ok ab ∧
          mergeBuckets recordingHasher (diskBucket deletedEntry) (diskBucket createdEntry)
            { keepDeadEntries := .keep, maxProtocolVersion := 23 } = .ok bc ∧
          mergeBuckets recordingHasher ab (diskBucket createdEntry)
            { keepDeadEntries := .keep, maxProtocolVersion := 23 } = .ok left ∧
          mergeBuckets recordingHasher (diskBucket createdEntry) bc
            { keepDeadEntries := .keep, maxProtocolVersion := 23 } = .ok right ∧
          left.entries = right.entries := by
  obtain ⟨hmerge, hassoc⟩ := @mergeBuckets_semantics ℕ ℕ _ _ _ recordingHasher
    (fun _ _ => nofun) { keepDeadEntries := .keep, maxProtocolVersion := 23 }
  have hadmits (e : BucketEntry ℕ ℕ) (hkeyed : e.isMetadata = false) :
      Admits { keepDeadEntries := .keep, maxProtocolVersion := 23 } (diskBucket e) := by
    intro _ _
    cases e with
    | metaentry metadata => cases hkeyed
    | _ => exact Nat.zero_le _
  refine ⟨hmerge _ _ nofun (hadmits _ rfl) (hadmits _ rfl) ?_, ?_⟩
  · intro old hold new hnew _ _
    rw [show bodyOf (diskBucket deletedEntry) = [deletedEntry] from rfl, List.mem_singleton] at hold
    rw [hold]
    rfl
  · refine hassoc (fun _ => false) _ _ _ rfl
      ⟨_, leads_diskBucket rfl rfl, _, leads_diskBucket rfl rfl, _, leads_diskBucket rfl rfl,
        trivial⟩ ?_
    intro bucket hbucket
    simp only [List.mem_cons, List.not_mem_nil, or_false] at hbucket
    rcases hbucket with rfl | rfl | rfl
    · exact ⟨nofun, hadmits _ rfl⟩
    · exact ⟨nofun, hadmits _ rfl⟩
    · exact ⟨nofun, hadmits _ rfl⟩

/-- Metadata of a later protocol than the merge is refused. -/
theorem mergeBuckets_refuses_later :
    Compatible (bodyOf (diskBucket (.metaentry (.ofVersion .live 24))))
        (bodyOf (diskBucket writtenEntry)) ∧
      ∀ bucket, mergeBuckets recordingHasher (diskBucket (.metaentry (.ofVersion .live 24)))
        (diskBucket writtenEntry) { keepDeadEntries := .keep, maxProtocolVersion := 23 } ≠
          .ok bucket :=
  ⟨nofun, nofun⟩

end Example

end Henyey.Buckets
