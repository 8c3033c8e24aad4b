import Henyey.Catchup.TrustedChain

/-!
# What the reverse walk accepts

The headers are walked from the highest checkpoint to the lowest. Within a checkpoint each
header has to have the next number; between checkpoints only the hashes are compared.
-/

namespace Henyey.Catchup

open List

open History (CheckpointFrequency)

variable {H T R D X : Type}

/-! ### What is to be verified -/

/-- The later header stands right behind the earlier one. -/
def Numbered (earlier later : LedgerHeader H X) : Prop :=
  later.ledgerSeq = earlier.ledgerSeq + 1

def SupportedVersion (config : ReverseWalkConfig H) (header : LedgerHeader H X) : Prop :=
  header.ledgerVersion = 0 ∨ config.minSupportedVersion ≤ header.ledgerVersion ∧
    header.ledgerVersion ≤ config.maxSupportedVersion

def Anchored (format : Format H T R D X) (config : ReverseWalkConfig H)
    (headers : List (LedgerHeader H X)) : Prop :=
  match config.trustSource with
  | .scp seq hash => ∃ top ∈ headers, top.ledgerSeq = seq ∧ format.computeHeaderHash top = hash
  | .none => True

def MeetsLcl (format : Format H T R D X) (config : ReverseWalkConfig H)
    (headers : List (LedgerHeader H X)) : Prop :=
  ∀ lcl ∈ config.lcl, ∀ header ∈ headers,
    (header.ledgerSeq = lcl.1 → format.computeHeaderHash header = lcl.2) ∧
      (header.ledgerSeq = lcl.1 + 1 → header.previousLedgerHash = lcl.2)

/-- Everything but what concerns the last closed ledger. -/
structure Chained (format : Format H T R D X) (config : ReverseWalkConfig H)
    (headers : List (LedgerHeader H X)) : Prop where
  numbered : headers.IsChain Numbered
  linked : headers.IsChain (Linked format)
  versions : ∀ header ∈ headers, SupportedVersion config header
  anchored : Anchored format config headers

/-! ### What is verified -/

def SameCheckpoint (freq : CheckpointFrequency) (earlier later : LedgerHeader H X) : Prop :=
  freq.checkpointLedger later.ledgerSeq = freq.checkpointLedger earlier.ledgerSeq

/-- One header after the other: the numbers count only within a checkpoint. -/
def Walkable (format : Format H T R D X) (freq : CheckpointFrequency)
    (earlier later : LedgerHeader H X) : Prop :=
  Linked format earlier later ∧ (SameCheckpoint freq earlier later → Numbered earlier later)

/-- The last header whose number does not exceed a given one. -/
def upTo (seq : Nat) (headers : List (LedgerHeader H X)) : Option (LedgerHeader H X) :=
  headers.reverse.find? fun header => header.ledgerSeq ≤ seq

/-- Where the anchor falls, the header is the one that it names. -/
def AnchorMatches (format : Format H T R D X) (config : ReverseWalkConfig H)
    (headers : List (LedgerHeader H X)) : Prop :=
  match config.trustSource with
  | .scp seq hash => ∀ top ∈ upTo seq headers,
      top.ledgerSeq = seq ∧ format.computeHeaderHash top = hash
  | .none => True

/-- What is still pending once these headers have been walked. -/
def pendingAfter (config : ReverseWalkConfig H) (headers : List (LedgerHeader H X)) :
    Option (Nat × H) :=
  match config.trustSource with
  | .scp seq hash => if (upTo seq headers).isSome then none else some (seq, hash)
  | .none => none

/-- What holds of the headers walked so far. -/
structure Walked (format : Format H T R D X) (freq : CheckpointFrequency)
    (config : ReverseWalkConfig H) (headers : List (LedgerHeader H X)) : Prop where
  steps : headers.IsChain (Walkable format freq)
  anchor : AnchorMatches format config headers

/-- What the walk checks, less what concerns the last closed ledger. -/
structure Checked (format : Format H T R D X) (freq : CheckpointFrequency)
    (config : ReverseWalkConfig H) (headers : List (LedgerHeader H X)) : Prop
    extends Walked format freq config headers where
  versions : ∀ header ∈ headers, SupportedVersion config header
  reached : pendingAfter config headers = none

/-- Neither a panic nor the verdict that the last closed ledger is wrong. -/
def HistoryError.Ordinary (error : HistoryError) : Prop :=
  error ≠ .panicked ∧ error ≠ .fatalChainDisagreement

section Numbers

variable {headers : List (LedgerHeader H X)} {first last top : LedgerHeader H X} {seq : Nat}

theorem pairwise_of_numbered (hnumbered : headers.IsChain Numbered) :
    headers.Pairwise fun earlier later => earlier.ledgerSeq < later.ledgerSeq := by
  have hchain : headers.IsChain fun earlier later => earlier.ledgerSeq < later.ledgerSeq :=
    hnumbered.imp fun earlier later hnext => by
      rw [Numbered] at hnext
      omega
  have : IsTrans (LedgerHeader H X) fun earlier later => earlier.ledgerSeq < later.ledgerSeq :=
    ⟨fun _ _ _ => Nat.lt_trans⟩
  exact isChain_iff_pairwise.mp hchain

/-- Numbers that ascend without a hole. -/
theorem exists_numbered (hnumbered : (first :: headers).IsChain Numbered)
    (hlast : (first :: headers).getLast? = some last) (hfirst : first.ledgerSeq ≤ seq)
    (hle : seq ≤ last.ledgerSeq) : ∃ top ∈ first :: headers, top.ledgerSeq = seq := by
  induction headers generalizing first with
  | nil =>
    cases hlast
    exact ⟨first, mem_cons_self, Nat.le_antisymm hfirst hle⟩
  | cons second rest ih =>
    rcases Nat.eq_or_lt_of_le hfirst with heq | hlt
    · exact ⟨first, mem_cons_self, heq⟩
    · rw [isChain_cons_cons] at hnumbered
      obtain ⟨hnext, hrest⟩ := hnumbered
      rw [Numbered] at hnext
      obtain ⟨top, htop, hseq⟩ := ih hrest (by simpa using hlast) (by omega)
      exact ⟨top, mem_cons_of_mem _ htop, hseq⟩

theorem upTo_append (lower upper : List (LedgerHeader H X)) :
    upTo seq (lower ++ upper) = (upTo seq upper).or (upTo seq lower) := by
  rw [upTo, reverse_append, find?_append]
  rfl

theorem upTo_of_mem (hnumbered : headers.IsChain Numbered) (htop : top ∈ headers) :
    upTo top.ledgerSeq headers = some top := by
  obtain ⟨before, after, rfl⟩ := append_of_mem htop
  have hsorted := pairwise_of_numbered hnumbered
  rw [pairwise_append] at hsorted
  have hafter := (pairwise_cons.mp hsorted.2.1).1
  rw [upTo, reverse_append, reverse_cons, append_assoc, find?_append, find?_eq_none.mpr]
  · simp
  · intro header hheader
    have hlt := hafter header (mem_reverse.mp hheader)
    simpa using hlt

theorem upTo_eq_none (hless : ∀ header ∈ headers, seq < header.ledgerSeq) :
    upTo seq headers = none := by
  refine find?_eq_none.mpr fun header hheader => ?_
  simpa using hless header (mem_reverse.mp hheader)

theorem upTo_eq_last (hlast : headers.getLast? = some last) (hle : last.ledgerSeq ≤ seq) :
    upTo seq headers = some last := by
  obtain ⟨before, rfl⟩ := getLast?_eq_some_iff.mp hlast
  simp [upTo, hle]

theorem first_le (hnumbered : (first :: headers).IsChain Numbered) :
    ∀ header ∈ first :: headers, first.ledgerSeq ≤ header.ledgerSeq := by
  intro header hheader
  rcases mem_cons.mp hheader with rfl | hrest
  · exact Nat.le_refl _
  · exact ((pairwise_cons.mp (pairwise_of_numbered hnumbered)).1 header hrest).le

end Numbers

/-! ### One checkpoint -/

section Group

variable [DecidableEq H] {format : Format H T R D X} {freq : CheckpointFrequency}
  {config : ReverseWalkConfig H} {group done : List (LedgerHeader H X)}

omit [DecidableEq H] in
theorem succ32_eq_iff {earlier later : LedgerHeader H X} (hfreq : freq.value < 2 ^ 32)
    (hsame : SameCheckpoint freq earlier later) (hearlier : earlier.ledgerSeq < 2 ^ 32)
    (hlater : later.ledgerSeq < 2 ^ 32) :
    later.ledgerSeq = succ32 earlier.ledgerSeq ↔ Numbered earlier later := by
  unfold succ32 Numbered
  rcases Nat.eq_or_lt_of_le (Nat.succ_le_of_lt hearlier) with hmax | hroom
  · -- The first and the last of all numbers lie in different checkpoints.
    have hdiff : later.ledgerSeq ≠ 0 := by
      intro hzero
      rw [SameCheckpoint, hzero, CheckpointFrequency.checkpointLedger,
        CheckpointFrequency.checkpointLedger, Nat.zero_div, Nat.zero_mul] at hsame
      have hpos : 1 ≤ earlier.ledgerSeq / freq.value :=
        (Nat.one_le_div_iff freq.pos).mpr (by omega)
      have hle := Nat.mul_le_mul_right freq.value hpos
      have hfreqPos := freq.pos
      omega
    have hwrap : (earlier.ledgerSeq + 1) % 2 ^ 32 = 0 := by rw [← hmax, Nat.mod_self]
    rw [hwrap]
    exact iff_of_false hdiff (by omega)
  · rw [Nat.mod_eq_of_lt hroom]

/-- Errors end the walk for an ordinary reason. -/
def Fails {α : Type} (program : Except HistoryError α) : Prop :=
  ∃ error, program = .error error ∧ error.Ordinary

variable (format) in
theorem verifyHeaderChainInner_cases (hfreq : freq.value < 2 ^ 32)
    (hsame : group.IsChain (SameCheckpoint freq))
    (hsmall : ∀ header ∈ group, header.ledgerSeq < 2 ^ 32) :
    group.IsChain (Walkable format freq) ∧ verifyHeaderChainInner format group = .ok () ∨
      ¬ group.IsChain (Walkable format freq) ∧ Fails (verifyHeaderChainInner format group) := by
  induction group with
  | nil => exact Or.inl ⟨.nil, rfl⟩
  | cons prev rest ih =>
    cases rest with
    | nil => exact Or.inl ⟨.singleton prev, rfl⟩
    | cons curr rest =>
      rw [isChain_cons_cons] at hsame ⊢
      have hnext := succ32_eq_iff hfreq hsame.1 (hsmall prev mem_cons_self)
        (hsmall curr (mem_cons_of_mem _ mem_cons_self))
      rw [verifyHeaderChainInner]
      by_cases hseq : curr.ledgerSeq = succ32 prev.ledgerSeq
      · rw [if_neg (not_not.mpr hseq)]
        by_cases hhash : format.computeHeaderHash prev = curr.previousLedgerHash
        · rw [if_neg (not_not.mpr hhash)]
          have hstep : Walkable format freq prev curr := ⟨hhash.symm, fun _ => hnext.mp hseq⟩
          rcases ih hsame.2 fun header hheader => hsmall header (mem_cons_of_mem _ hheader)
            with ⟨hchain, hok⟩ | ⟨hbroken, hfails⟩
          · exact Or.inl ⟨⟨hstep, hchain⟩, hok⟩
          · exact Or.inr ⟨fun hall => hbroken hall.2, hfails⟩
        · rw [if_pos hhash]
          exact Or.inr ⟨fun hall => hhash hall.1.1.symm, _, rfl, by simp [HistoryError.Ordinary]⟩
      · rw [if_pos hseq]
        exact Or.inr ⟨fun hall => hseq (hnext.mpr (hall.1.2 hsame.1)), _, rfl,
          by simp [HistoryError.Ordinary]⟩

def walkAfter (format : Format H T R D X) (config : ReverseWalkConfig H)
    (done : List (LedgerHeader H X)) : Walk H where
  crossCheckpointLink := done.head?.map fun first =>
    (pred32 first.ledgerSeq, first.previousLedgerHash)
  pendingTrustAnchor := pendingAfter config done
  localStateDisagrees := done.any (disagreesWithLcl format config.lcl)

variable (format config done) in
theorem verifyCrossCheckpointLink_cases (last : LedgerHeader H X) :
    (∀ first ∈ done.head?, Linked format last first) ∧
        verifyCrossCheckpointLink format (walkAfter format config done).crossCheckpointLink last =
          .ok () ∨
      ¬ (∀ first ∈ done.head?, Linked format last first) ∧
        Fails (verifyCrossCheckpointLink format
          (walkAfter format config done).crossCheckpointLink last) := by
  cases done with
  | nil => exact Or.inl ⟨by simp, rfl⟩
  | cons first rest =>
    simp only [walkAfter, head?_cons, Option.map_some, verifyCrossCheckpointLink,
      Option.mem_def, Option.some.injEq, forall_eq']
    by_cases hhash : format.computeHeaderHash last = first.previousLedgerHash
    · rw [if_neg (not_not.mpr hhash)]
      exact Or.inl ⟨hhash.symm, rfl⟩
    · rw [if_pos hhash]
      exact Or.inr ⟨fun hlinked => hhash hlinked.symm, _, rfl, by simp [HistoryError.Ordinary]⟩

theorem verifyTrustAnchor_cases {first last : LedgerHeader H X} (hnumbered : group.IsChain Numbered)
    (hfirst : group.head? = some first) (hlast : group.getLast? = some last)
    (hdone : AnchorMatches format config done) :
    AnchorMatches format config (group ++ done) ∧
        verifyTrustAnchor format group first last (pendingAfter config done) =
          .ok (pendingAfter config (group ++ done)) ∨
      ¬ AnchorMatches format config (group ++ done) ∧
        Fails (verifyTrustAnchor format group first last (pendingAfter config done)) := by
  unfold AnchorMatches pendingAfter at *
  cases hsource : config.trustSource with
  | none => exact Or.inl ⟨trivial, rfl⟩
  | scp seq hash =>
    simp only [hsource] at hdone ⊢
    rw [upTo_append]
    cases habove : upTo seq done with
    | some top =>
      rw [habove] at hdone
      exact Or.inl ⟨hdone, rfl⟩
    | none =>
      simp only [Option.isSome_none, Bool.false_eq_true, if_false, Option.none_or,
        verifyTrustAnchor]
      obtain ⟨rest, rfl⟩ : ∃ rest, group = first :: rest := head?_eq_some_iff.mp hfirst
      by_cases hbeyond : seq > last.ledgerSeq
      · -- The last header comes too early.
        rw [upTo_eq_last hlast hbeyond.le, if_pos hbeyond]
        refine Or.inr ⟨fun hall => ?_, _, rfl, by simp [HistoryError.Ordinary]⟩
        exact hbeyond.ne (hall last rfl).1
      · rw [if_neg hbeyond]
        by_cases hamong : seq ≥ first.ledgerSeq
        · rw [if_pos hamong]
          obtain ⟨top, htop, hseq⟩ :=
            exists_numbered hnumbered hlast hamong (Nat.not_lt.mp hbeyond)
          cases hfind : (first :: rest).find? fun header => header.ledgerSeq == seq with
          | none =>
            have hno := find?_eq_none.mp hfind top htop
            exact absurd (beq_iff_eq.mpr hseq) hno
          | some target =>
            have hfound := find?_some hfind
            have htarget : target.ledgerSeq = seq := beq_iff_eq.mp hfound
            have hupTo := upTo_of_mem hnumbered (mem_of_find?_eq_some hfind)
            rw [htarget] at hupTo
            rw [hupTo]
            by_cases hhash : format.computeHeaderHash target = hash
            · refine Or.inl ⟨?_, ?_⟩
              · rintro _ ⟨⟩
                exact ⟨htarget, hhash⟩
              · simp [hhash]
            · refine Or.inr ⟨fun hall => hhash (hall target rfl).2, ?_⟩
              simp only [ne_eq, hhash, not_false_eq_true, if_true]
              exact ⟨_, rfl, by simp [HistoryError.Ordinary]⟩
        · rw [if_neg hamong, upTo_eq_none]
          · exact Or.inl ⟨by simp, rfl⟩
          · intro header hheader
            exact (Nat.not_le.mp hamong).trans_le (first_le hnumbered header hheader)

omit [DecidableEq H] in
theorem numbered_of_walkable (hsame : group.IsChain (SameCheckpoint freq))
    (hsteps : group.IsChain (Walkable format freq)) : group.IsChain Numbered := by
  induction group with
  | nil => exact .nil
  | cons prev rest ih =>
    cases rest with
    | nil => exact .singleton prev
    | cons curr rest =>
      rw [isChain_cons_cons] at hsame hsteps ⊢
      exact ⟨hsteps.1.2 hsame.1, ih hsame.2 hsteps.2⟩

structure Group (freq : CheckpointFrequency) (group done : List (LedgerHeader H X)) : Prop where
  ne_nil : group ≠ []
  same : group.IsChain (SameCheckpoint freq)
  small : ∀ header ∈ group, header.ledgerSeq < 2 ^ 32
  apart : ∀ last ∈ group.getLast?, ∀ first ∈ done.head?, ¬ SameCheckpoint freq last first

/-- One checkpoint is walked exactly if its headers go with those above. -/
theorem verifyGroup_cases (hfreq : freq.value < 2 ^ 32) (hgroup : Group freq group done)
    (hdone : Walked format freq config done) :
    Walked format freq config (group ++ done) ∧
        verifyGroup format config (walkAfter format config done) group =
          .ok (walkAfter format config (group ++ done)) ∨
      ¬ Walked format freq config (group ++ done) ∧
        Fails (verifyGroup format config (walkAfter format config done) group) := by
  obtain ⟨first, hfirst⟩ : ∃ first, group.head? = some first :=
    ⟨_, head?_eq_some_head hgroup.ne_nil⟩
  obtain ⟨last, hlast⟩ : ∃ last, group.getLast? = some last :=
    ⟨_, getLast?_eq_some_getLast hgroup.ne_nil⟩
  have hsteps : (group ++ done).IsChain (Walkable format freq) ↔
      group.IsChain (Walkable format freq) ∧ ∀ first ∈ done.head?, Linked format last first := by
    rw [isChain_append, hlast]
    constructor
    · rintro ⟨hinner, -, hcross⟩
      exact ⟨hinner, fun above habove => (hcross last rfl above habove).1⟩
    · rintro ⟨hinner, hcross⟩
      refine ⟨hinner, hdone.steps, ?_⟩
      rintro _ ⟨⟩ above habove
      exact ⟨hcross above habove, fun hsame =>
        absurd hsame (hgroup.apart last hlast above habove)⟩
  have hpending : (walkAfter format config done).pendingTrustAnchor = pendingAfter config done :=
    rfl
  unfold verifyGroup
  simp only [hfirst, hlast, bind, Except.bind]
  rcases verifyHeaderChainInner_cases format hfreq hgroup.same hgroup.small with
    ⟨hinner, hok⟩ | ⟨hbroken, error, herror, hordinary⟩
  · rw [hok]
    simp only
    rcases verifyCrossCheckpointLink_cases format config done last with ⟨hcross, hok⟩ |
      ⟨hbroken, error, herror, hordinary⟩
    · rw [hok]
      simp only
      rcases verifyTrustAnchor_cases (numbered_of_walkable hgroup.same hinner) hfirst hlast
        hdone.anchor with ⟨hanchor, hok⟩ | ⟨hbroken, error, herror, hordinary⟩
      · refine Or.inl ⟨⟨hsteps.mpr ⟨hinner, hcross⟩, hanchor⟩, ?_⟩
        rw [hpending, hok]
        simp only [walkAfter, head?_append, hfirst, Option.some_or, Option.map_some,
          any_append, Bool.or_comm]
        rfl
      · refine Or.inr ⟨fun hall => hbroken hall.anchor, error, ?_, hordinary⟩
        rw [hpending, herror]
    · rw [herror]
      exact Or.inr ⟨fun hall => hbroken (hsteps.mp hall.steps).2, error, rfl, hordinary⟩
  · rw [herror]
    exact Or.inr ⟨fun hall => hbroken (hsteps.mp hall.steps).1, error, rfl, hordinary⟩

/-! ### All checkpoints -/

omit [DecidableEq H] in
/-- What has been walked stays walkable when more is asked. -/
theorem Walked.of_append {lower upper : List (LedgerHeader H X)}
    (hwalked : Walked format freq config (lower ++ upper)) : Walked format freq config upper where
  steps := (isChain_append.mp hwalked.steps).2.1
  anchor := by
    have hall := hwalked.anchor
    unfold AnchorMatches at hall ⊢
    split
    next seq hash hsource =>
      rw [hsource] at hall
      simp only [upTo_append] at hall
      intro top htop
      exact hall top (by rw [Option.mem_def.mp htop]; rfl)
    · trivial

/-- From the highest group to the lowest. -/
inductive Groups (freq : CheckpointFrequency) :
    List (List (LedgerHeader H X)) → List (LedgerHeader H X) → Prop where
  | nil (done : List (LedgerHeader H X)) : Groups freq [] done
  | cons {group done : List (LedgerHeader H X)} {groups : List (List (LedgerHeader H X))}
      (hgroup : Group freq group done) (hrest : Groups freq groups (group ++ done)) :
      Groups freq (group :: groups) done

theorem verifyGroups_cases (hfreq : freq.value < 2 ^ 32) {groups : List (List (LedgerHeader H X))}
    (hgroups : Groups freq groups done) (hdone : Walked format freq config done) :
    Walked format freq config (groups.reverse.flatten ++ done) ∧
        groups.foldlM (verifyGroup format config) (walkAfter format config done) =
          .ok (walkAfter format config (groups.reverse.flatten ++ done)) ∨
      ¬ Walked format freq config (groups.reverse.flatten ++ done) ∧
        Fails (groups.foldlM (verifyGroup format config) (walkAfter format config done)) := by
  induction hgroups with
  | nil done => exact Or.inl ⟨hdone, rfl⟩
  | @cons group done groups hgroup hrest ih =>
    have hshape : (group :: groups).reverse.flatten ++ done =
        groups.reverse.flatten ++ (group ++ done) := by simp
    rw [hshape, foldlM_cons]
    rcases verifyGroup_cases hfreq hgroup hdone with
      ⟨hwalked, hok⟩ | ⟨hbroken, error, herror, hordinary⟩
    · rw [hok]
      exact ih hwalked
    · rw [herror]
      exact Or.inr ⟨fun hall => hbroken hall.of_append, error, rfl, hordinary⟩

end Group

/-! ### The verdict -/

section Verdict

variable [DecidableEq H] {format : Format H T R D X} {freq : CheckpointFrequency}
  {config : ReverseWalkConfig H} {headers : List (LedgerHeader H X)}

section

omit [DecidableEq H]

theorem groups_of_split {groups : List (List (LedgerHeader H X))} (hnil : [] ∉ groups)
    (hsame : ∀ group ∈ groups, group.IsChain (SameCheckpoint freq))
    (hsmall : ∀ group ∈ groups, ∀ header ∈ group, header.ledgerSeq < 2 ^ 32)
    (happart : groups.IsChain fun lower upper => ∀ last ∈ lower.getLast?,
      ∀ first ∈ upper.head?, ¬ SameCheckpoint freq last first)
    {done : List (LedgerHeader H X)} (hdone : ∀ group ∈ groups.getLast?,
      ∀ last ∈ group.getLast?, ∀ first ∈ done.head?, ¬ SameCheckpoint freq last first) :
    Groups freq groups.reverse done := by
  induction groups using reverseRecOn generalizing done with
  | nil => exact .nil done
  | append_singleton groups group ih =>
    rw [reverse_append, reverse_singleton, singleton_append]
    simp only [mem_append, mem_singleton, not_or] at hnil hsame hsmall
    have hne : group ≠ [] := fun heq => hnil.2 heq.symm
    rw [isChain_append] at happart
    refine .cons ⟨hne, hsame group (Or.inr rfl), hsmall group (Or.inr rfl), ?_⟩ ?_
    · exact hdone group (by simp)
    · refine ih hnil.1 (fun other hother => hsame other (Or.inl hother))
        (fun other hother => hsmall other (Or.inl hother)) happart.1 ?_
      intro lower hlower last hlast first hfirst
      rw [head?_append_of_ne_nil _ hne] at hfirst
      exact happart.2.2 lower hlower group rfl last hlast first hfirst

theorem groups_checkpointGroups (hsmall : ∀ header ∈ headers, header.ledgerSeq < 2 ^ 32) :
    Groups freq (checkpointGroups freq headers).reverse ([] : List (LedgerHeader H X)) := by
  refine groups_of_split (nil_notMem_splitBy _ _) ?_ ?_ ?_ nofun
  · intro group hgroup
    exact (isChain_of_mem_splitBy hgroup).imp fun _ _ hsame => beq_iff_eq.mp hsame
  · intro group hgroup header hheader
    refine hsmall header ?_
    rw [← flatten_splitBy (fun prev curr : LedgerHeader H X =>
      freq.checkpointLedger curr.ledgerSeq == freq.checkpointLedger prev.ledgerSeq) headers]
    exact mem_flatten_of_mem hgroup hheader
  · refine (isChain_getLast_head_splitBy _ headers).imp ?_
    rintro lower upper ⟨hlower, hupper, hdiffer⟩ last hlast first hfirst
    rw [getLast?_eq_some_getLast hlower] at hlast
    rw [head?_eq_some_head hupper] at hfirst
    cases hlast
    cases hfirst
    exact beq_eq_false_iff_ne.mp hdiffer

theorem verifySupportedVersion_cases (config : ReverseWalkConfig H) (header : LedgerHeader H X) :
    SupportedVersion config header ∧ verifySupportedVersion config header = .ok () ∨
      ¬ SupportedVersion config header ∧ Fails (verifySupportedVersion config header) := by
  unfold SupportedVersion verifySupportedVersion
  split
  next hbad =>
    refine Or.inr ⟨?_, _, rfl, nofun, nofun⟩
    omega
  next hgood =>
    refine Or.inl ⟨?_, rfl⟩
    omega

theorem forM_verifySupportedVersion_cases (config : ReverseWalkConfig H)
    (headers : List (LedgerHeader H X)) :
    (∀ header ∈ headers, SupportedVersion config header) ∧
        headers.forM (verifySupportedVersion config) = .ok () ∨
      ¬ (∀ header ∈ headers, SupportedVersion config header) ∧
        Fails (headers.forM (verifySupportedVersion config)) := by
  induction headers with
  | nil => exact Or.inl ⟨nofun, rfl⟩
  | cons header rest ih =>
    have hcons : (header :: rest).forM (verifySupportedVersion config) = (do
        verifySupportedVersion config header
        rest.forM (verifySupportedVersion config)) := rfl
    rw [forall_mem_cons, hcons]
    rcases verifySupportedVersion_cases config header with
      ⟨hgood, hok⟩ | ⟨hbad, error, herror, hordinary⟩
    · rw [hok]
      rcases ih with ⟨hrest, hok⟩ | ⟨hbad, hfails⟩
      · exact Or.inl ⟨⟨hgood, hrest⟩, hok⟩
      · exact Or.inr ⟨fun hall => hbad hall.2, hfails⟩
    · rw [herror]
      exact Or.inr ⟨fun hall => hbad hall.1, error, rfl, hordinary⟩

end

inductive WalkEnds (format : Format H T R D X) (freq : CheckpointFrequency)
    (config : ReverseWalkConfig H) (headers : List (LedgerHeader H X)) :
    Except HistoryError Unit → Prop where
  | accepted (hchecked : Checked format freq config headers)
      (hagrees : headers.any (disagreesWithLcl format config.lcl) = false) :
      WalkEnds format freq config headers (.ok ())
  | fatal {seq : Nat} {hash : H} (hchecked : Checked format freq config headers)
      (hsource : config.trustSource = .scp seq hash)
      (hdisagrees : headers.any (disagreesWithLcl format config.lcl) = true) :
      WalkEnds format freq config headers (.error .fatalChainDisagreement)
  | unanchored {error : HistoryError} (hsource : config.trustSource = .none)
      (hdisagrees : headers.any (disagreesWithLcl format config.lcl) = true)
      (hordinary : error.Ordinary) : WalkEnds format freq config headers (.error error)
  | refused {error : HistoryError} (hunchecked : ¬ Checked format freq config headers)
      (hordinary : error.Ordinary) : WalkEnds format freq config headers (.error error)

theorem verifyReverseWalk_ends (hfreq : freq.value < 2 ^ 32) (hheaders : headers ≠ [])
    (hsmall : ∀ header ∈ headers, header.ledgerSeq < 2 ^ 32) :
    WalkEnds format freq config headers (verifyReverseWalk format freq headers config) := by
  have hstart : Walked format freq config ([] : List (LedgerHeader H X)) := {
    steps := .nil
    anchor := by
      unfold AnchorMatches
      split
      · nofun
      · trivial }
  have hall : (checkpointGroups freq headers).reverse.reverse.flatten ++ [] = headers := by
    rw [reverse_reverse, append_nil, checkpointGroups, flatten_splitBy]
  have hgroups : Groups freq (checkpointGroups freq headers).reverse [] :=
    groups_checkpointGroups hsmall
  have hwalk := verifyGroups_cases hfreq hgroups hstart
  rw [hall] at hwalk
  unfold verifyReverseWalk
  rw [if_neg (by simpa using hheaders)]
  rcases forM_verifySupportedVersion_cases config headers with
    ⟨hversions, hok⟩ | ⟨hbad, error, herror, hordinary⟩
  · rw [hok]
    simp only [bind, Except.bind]
    generalize hresult : foldlM (verifyGroup format config) _
      (checkpointGroups freq headers).reverse = result
    change foldlM (verifyGroup format config) (walkAfter format config [])
      (checkpointGroups freq headers).reverse = result at hresult
    rw [hresult] at hwalk
    rcases hwalk with ⟨hwalked, rfl⟩ | ⟨hbroken, error, rfl, hordinary⟩
    · simp only
      cases hpending : pendingAfter config headers with
      | some anchor =>
        have hstuck : (walkAfter format config headers).pendingTrustAnchor = some anchor := hpending
        rw [hstuck]
        refine .refused (fun hchecked => ?_) ⟨nofun, nofun⟩
        rw [hchecked.reached] at hpending
        cases hpending
      | none =>
        have hdone : (walkAfter format config headers).pendingTrustAnchor = none := hpending
        have hchecked : Checked format freq config headers :=
          { toWalked := hwalked, versions := hversions, reached := hpending }
        rw [hdone]
        cases hdisagrees : headers.any (disagreesWithLcl format config.lcl) with
        | false =>
          have hagrees : (walkAfter format config headers).localStateDisagrees = false :=
            hdisagrees
          simp only [hagrees]
          exact .accepted hchecked hdisagrees
        | true =>
          have hlocal : (walkAfter format config headers).localStateDisagrees = true := hdisagrees
          simp only [hlocal]
          cases hsource : config.trustSource with
          | scp seq hash => exact .fatal hchecked hsource hdisagrees
          | none => exact .unanchored hsource hdisagrees ⟨nofun, nofun⟩
    · exact .refused (fun hchecked => hbroken hchecked.toWalked) hordinary
  · rw [herror]
    exact .refused (fun hchecked => hbad hchecked.versions) hordinary

section

omit [DecidableEq H]

theorem chained_of_checked (hchecked : Checked format freq config headers)
    (hnumbered : headers.IsChain Numbered) : Chained format config headers where
  numbered := hnumbered
  linked := hchecked.steps.imp fun _ _ hstep => hstep.1
  versions := hchecked.versions
  anchored := by
    have hreached := hchecked.reached
    have hmatches := hchecked.anchor
    unfold pendingAfter at hreached
    unfold AnchorMatches at hmatches
    unfold Anchored
    split
    next seq hash hsource =>
      rw [hsource] at hreached hmatches
      cases htop : upTo seq headers with
      | none => simp [htop] at hreached
      | some top =>
        have hmem := mem_reverse.mp (mem_of_find?_eq_some htop)
        exact ⟨top, hmem, hmatches top htop⟩
    · trivial

theorem walkable_of_numbered (hnumbered : headers.IsChain Numbered)
    (hlinked : headers.IsChain (Linked format)) : headers.IsChain (Walkable format freq) := by
  induction headers with
  | nil => exact .nil
  | cons prev rest ih =>
    cases rest with
    | nil => exact .singleton prev
    | cons curr rest =>
      rw [isChain_cons_cons] at hnumbered hlinked ⊢
      exact ⟨⟨hlinked.1, fun _ => hnumbered.1⟩, ih hnumbered.2 hlinked.2⟩

theorem checked_of_chained (hchained : Chained format config headers) :
    Checked format freq config headers := by
  have hanchored := hchained.anchored
  refine {
    steps := walkable_of_numbered hchained.numbered hchained.linked
    anchor := ?_
    versions := hchained.versions
    reached := ?_ }
  all_goals
    unfold Anchored at hanchored
  · unfold AnchorMatches
    split
    next seq hash hsource =>
      rw [hsource] at hanchored
      obtain ⟨top, htop, rfl, hhash⟩ := hanchored
      rw [upTo_of_mem hchained.numbered htop]
      rintro _ ⟨⟩
      exact ⟨rfl, hhash⟩
    · trivial
  · unfold pendingAfter
    split
    next seq hash hsource =>
      rw [hsource] at hanchored
      obtain ⟨top, htop, rfl, -⟩ := hanchored
      rw [upTo_of_mem hchained.numbered htop]
      rfl
    · rfl

end

/-- The number behind the last closed ledger has wrapped around to genesis, whose header is
taken for one that should name the last closed ledger. -/
def WrapsAtLcl (config : ReverseWalkConfig H) (headers : List (LedgerHeader H X)) : Prop :=
  ∃ lcl ∈ config.lcl, lcl.1 + 1 = 2 ^ 32 ∧
    ∃ header ∈ headers, header.ledgerSeq = 0 ∧ header.previousLedgerHash ≠ lcl.2

theorem disagrees_iff {header : LedgerHeader H X} {lcl : Nat × H} (hlcl : config.lcl = some lcl) :
    disagreesWithLcl format config.lcl header = false ↔
      (header.ledgerSeq = lcl.1 → format.computeHeaderHash header = lcl.2) ∧
        (header.ledgerSeq ≠ lcl.1 → header.ledgerSeq = succ32 lcl.1 →
          header.previousLedgerHash = lcl.2) := by
  rw [hlcl, disagreesWithLcl]
  by_cases hat : header.ledgerSeq = lcl.1
  · simp [hat]
  · simp only [if_neg hat]
    by_cases hbehind : header.ledgerSeq = succ32 lcl.1
    · rw [if_pos hbehind, decide_eq_false_iff_not, not_not]
      exact ⟨fun hhash => ⟨fun heq => absurd heq hat, fun _ _ => hhash⟩,
        fun hall => hall.2 hat hbehind⟩
    · rw [if_neg hbehind]
      exact iff_of_true rfl ⟨fun heq => absurd heq hat, fun _ heq => absurd heq hbehind⟩

theorem meetsLcl_of_agrees (hsmall : ∀ header ∈ headers, header.ledgerSeq < 2 ^ 32)
    (hagrees : headers.any (disagreesWithLcl format config.lcl) = false) :
    MeetsLcl format config headers := by
  intro lcl hlcl header hheader
  obtain ⟨hat, hbehind⟩ := (disagrees_iff hlcl).mp
    (Bool.not_eq_true _ ▸ any_eq_false.mp hagrees header hheader)
  refine ⟨hat, fun hnext => hbehind (by omega) ?_⟩
  have hroom := hsmall header hheader
  rw [succ32, Nat.mod_eq_of_lt (by omega), hnext]

theorem agrees_of_meetsLcl (hlcl : ∀ lcl ∈ config.lcl, lcl.1 < 2 ^ 32)
    (hmeets : MeetsLcl format config headers) (hwraps : ¬ WrapsAtLcl config headers) :
    headers.any (disagreesWithLcl format config.lcl) = false := by
  refine any_eq_false.mpr fun header hheader => ?_
  rw [Bool.not_eq_true]
  cases hsome : config.lcl with
  | none => rfl
  | some lcl =>
    rw [← hsome, disagrees_iff hsome]
    obtain ⟨hat, hbehind⟩ := hmeets lcl hsome header hheader
    refine ⟨hat, fun _ hnext => ?_⟩
    have hbound := hlcl lcl hsome
    rcases Nat.eq_or_lt_of_le (Nat.succ_le_of_lt hbound) with hmax | hroom
    · have hmax : lcl.1 + 1 = 2 ^ 32 := hmax
      rw [succ32, hmax, Nat.mod_self] at hnext
      by_contra hother
      exact hwraps ⟨lcl, hsome, hmax, header, hheader, hnext, hother⟩
    · rw [succ32, Nat.mod_eq_of_lt hroom] at hnext
      exact hbehind hnext

/-- What the walk is to tell. -/
structure Verdict (format : Format H T R D X) (freq : CheckpointFrequency)
    (config : ReverseWalkConfig H) (headers : List (LedgerHeader H X)) : Prop where
  exact : verifyReverseWalk format freq headers config = .ok () ↔
    headers = [] ∨ Chained format config headers ∧ MeetsLcl format config headers
  total : verifyReverseWalk format freq headers config ≠ .error .panicked
  fatal : verifyReverseWalk format freq headers config = .error .fatalChainDisagreement →
    Chained format config headers ∧ ∃ seq hash, config.trustSource = .scp seq hash

/-- Numbers are left out between two checkpoints, and nothing else stops the walk. -/
def GapUnnoticed (format : Format H T R D X) (freq : CheckpointFrequency)
    (config : ReverseWalkConfig H) (headers : List (LedgerHeader H X)) : Prop :=
  Checked format freq config headers ∧ ¬ headers.IsChain Numbered ∧
    (headers.any (disagreesWithLcl format config.lcl) = false ∨
      ∃ seq hash, config.trustSource = .scp seq hash)

/-- The walk tells what it is to tell, unless it misses numbers that are left out between two
checkpoints or takes genesis for the ledger behind the last of all ledgers. -/
theorem verdict_iff (hfreq : freq.value < 2 ^ 32)
    (hsmall : ∀ header ∈ headers, header.ledgerSeq < 2 ^ 32)
    (hlcl : ∀ lcl ∈ config.lcl, lcl.1 < 2 ^ 32) :
    Verdict format freq config headers ↔
      ¬ GapUnnoticed format freq config headers ∧
        ¬ (Chained format config headers ∧ MeetsLcl format config headers ∧
          WrapsAtLcl config headers) := by
  by_cases hheaders : headers = []
  · subst hheaders
    have hok : verifyReverseWalk format freq ([] : List (LedgerHeader H X)) config = .ok () := rfl
    constructor
    · intro _
      refine ⟨fun hgap => hgap.2.1 .nil, ?_⟩
      rintro ⟨-, -, lcl, -, -, header, hheader, -⟩
      cases hheader
    · intro _
      exact ⟨iff_of_true hok (Or.inl rfl), by rw [hok]; nofun, by rw [hok]; nofun⟩
  · have hends : WalkEnds format freq config headers (verifyReverseWalk format freq headers config) :=
      verifyReverseWalk_ends hfreq hheaders hsmall
    constructor
    · intro hverdict
      constructor
      · -- A gap: the walk accepts, or blames the last closed ledger.
        rintro ⟨hchecked, hgap, hpasses⟩
        have hexact := hverdict.exact
        have hfatal := hverdict.fatal
        generalize hresult : verifyReverseWalk format freq headers config = result at *
        cases hends with
        | accepted _ _ =>
          rcases hexact.mp rfl with hnil | hall
          · exact hheaders hnil
          · exact hgap hall.1.numbered
        | fatal _ _ _ => exact hgap (hfatal rfl).1.numbered
        | unanchored hsource hdisagrees _ =>
          rcases hpasses with hagrees | ⟨seq, hash, hscp⟩
          · rw [hdisagrees] at hagrees
            cases hagrees
          · rw [hsource] at hscp
            cases hscp
        | refused hunchecked _ => exact hunchecked hchecked
      · -- Genesis does not name the last closed ledger.
        rintro ⟨hchained, hmeets, lcl, hsome, hmax, header, hheader, hzero, hother⟩
        have hok := hverdict.exact.mpr (Or.inr ⟨hchained, hmeets⟩)
        rw [hok] at hends
        cases hends with
        | accepted _ hagrees =>
          have hagree := (disagrees_iff hsome).mp
            (Bool.not_eq_true _ ▸ any_eq_false.mp hagrees header hheader)
          refine hother (hagree.2 (by omega) ?_)
          rw [hzero, succ32, hmax, Nat.mod_self]
    · rintro ⟨hgap, hwraps⟩
      have hnumbered : Checked format freq config headers →
          (headers.any (disagreesWithLcl format config.lcl) = false ∨
            ∃ seq hash, config.trustSource = .scp seq hash) → headers.IsChain Numbered :=
        fun hchecked hpasses => by_contra fun hbroken => hgap ⟨hchecked, hbroken, hpasses⟩
      have hpassed : Chained format config headers ∧ MeetsLcl format config headers →
          Checked format freq config headers ∧
            headers.any (disagreesWithLcl format config.lcl) = false :=
        fun hall => ⟨checked_of_chained hall.1, agrees_of_meetsLcl hlcl hall.2 fun hwrapped =>
          hwraps ⟨hall.1, hall.2, hwrapped⟩⟩
      generalize hresult : verifyReverseWalk format freq headers config = result at hends
      cases hends with
      | accepted hchecked hagrees =>
        have hall : Chained format config headers ∧ MeetsLcl format config headers :=
          ⟨chained_of_checked hchecked (hnumbered hchecked (Or.inl hagrees)),
            meetsLcl_of_agrees hsmall hagrees⟩
        exact ⟨iff_of_true hresult (Or.inr hall), by rw [hresult]; nofun, by rw [hresult]; nofun⟩
      | @fatal seq hash hchecked hsource hdisagrees =>
        refine ⟨iff_of_false (by rw [hresult]; nofun) ?_, by rw [hresult]; nofun, fun _ => ?_⟩
        · rintro (hnil | hall)
          · exact hheaders hnil
          · rw [(hpassed hall).2] at hdisagrees
            cases hdisagrees
        · exact ⟨chained_of_checked hchecked (hnumbered hchecked (Or.inr ⟨seq, hash, hsource⟩)),
            seq, hash, hsource⟩
      | @unanchored error hsource hdisagrees hordinary =>
        refine ⟨iff_of_false (by rw [hresult]; nofun) ?_, ?_, ?_⟩
        · rintro (hnil | hall)
          · exact hheaders hnil
          · rw [(hpassed hall).2] at hdisagrees
            cases hdisagrees
        · rw [hresult]
          exact fun heq => hordinary.1 (Except.error.inj heq)
        · rw [hresult]
          exact fun heq => absurd (Except.error.inj heq) hordinary.2
      | @refused error hunchecked hordinary =>
        refine ⟨iff_of_false (by rw [hresult]; nofun) ?_, ?_, ?_⟩
        · rintro (hnil | hall)
          · exact hheaders hnil
          · exact hunchecked (hpassed hall).1
        · rw [hresult]
          exact fun heq => hordinary.1 (Except.error.inj heq)
        · rw [hresult]
          exact fun heq => absurd (Except.error.inj heq) hordinary.2

end Verdict

/-! ### A gap between two checkpoints -/

/-- The last header of the first checkpoint, and the header of a ledger that names it. -/
def namedBy (later : Nat) : List (LedgerHeader Digest Unit) :=
  [plainHeader 63 0 (.number 0),
    plainHeader later 0 (plainFormat.computeHeaderHash (plainHeader 63 0 (.number 0)))]

def trustless : ReverseWalkConfig Digest where
  trustSource := .none
  lcl := none
  maxSupportedVersion := 27
  minSupportedVersion := 24

theorem verdict_iff_next :
    Verdict plainFormat History.defaultCheckpointFrequency trustless (namedBy 64) ↔
      ¬ GapUnnoticed plainFormat History.defaultCheckpointFrequency trustless (namedBy 64) ∧
        ¬ (Chained plainFormat trustless (namedBy 64) ∧ MeetsLcl plainFormat trustless (namedBy 64) ∧
          WrapsAtLcl trustless (namedBy 64)) :=
  verdict_iff (by decide) (by decide) nofun

/-- Ledger 200 is accepted behind ledger 63. -/
theorem gap_accepted :
    ¬ Verdict plainFormat History.defaultCheckpointFrequency trustless (namedBy 200) := by
  intro hverdict
  rcases hverdict.exact.mp rfl with hnil | ⟨hchained, -⟩
  · cases hnil
  · exact absurd (isChain_cons_cons.mp hchained.numbered).1 (by unfold Numbered; decide)

end Henyey.Catchup
