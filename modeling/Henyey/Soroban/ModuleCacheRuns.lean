import Henyey.Soroban.ModuleCache

/-!
# The module cache over whole runs

Whatever ledgers do, the cache is one for the protocol of the next ledger and has a
module for all live code, as long as no node is taken from before Soroban to a protocol
that shares the first host. Two nodes charge the same for code that is live, and for all
code if no scan came upon code that was deleted.
-/

namespace Henyey.Soroban

open WasmHost List

variable {Code Hash : Type} [DecidableEq Hash]

/-- Caches can be created, and valid code compiles for the host of the protocol. -/
structure WasmHost.Works (host : WasmHost Code Hash) : Prop where
  creates : ∀ variant, host.creates variant = true
  compiles : ∀ protocolVersion code,
    host.compiles (CacheVariant.forProtocol protocolVersion) protocolVersion code = true

namespace CodeClose

variable (host : WasmHost Code Hash)

def written (close : CodeClose Code Hash) : List Hash :=
  (close.initEntries ++ close.liveEntries).map host.sha256

/-- Upgrades go up, as far as the node supports; no code is both written and deleted; and
the bucket list has what the batch writes over what it had. -/
structure Legal (node : CachingNode Code Hash) (close : CodeClose Code Hash) : Prop where
  upgrade : ∀ version ∈ close.versionUpgrade, node.ledgerVersion < version ∧ version ≤ 27
  once : ∀ hash ∈ close.deadEntries, hash ∉ close.written host
  batch : ∀ hash, host.codeLive close.levels hash = true ↔
    hash ∈ close.written host ∨ (hash ∉ close.deadEntries ∧ host.codeLive node.levels hash = true)

end CodeClose

namespace CachingNode

variable (host : WasmHost Code Hash)

/-- No level holds code that a newer level has deleted. -/
def ScansClean (levels : List (CodeLevel Code Hash)) : Prop :=
  ∀ level ∈ levels, ∀ hash, host.holds level.entries hash = true → host.codeLive levels hash = true

/-- No bucket holds code that is not live. -/
def RebuildsClean (levels : List (CodeLevel Code Hash)) : Prop :=
  ∀ entry ∈ levels.flatMap CodeLevel.entries, ∀ code ∈ entry.code?,
    host.codeLive levels (host.sha256 code) = true

/-- The runs of a node in which no ledger goes from before Soroban to a protocol below 25.
In the clean ones, no scan and no rebuild comes upon deleted code. -/
inductive Run (clean : Bool) : CachingNode Code Hash → Prop where
  | start (levels : List (CodeLevel Code Hash)) (ledgerVersion : ℕ)
      (hsupported : ledgerVersion = 0 ∨ (24 ≤ ledgerVersion ∧ ledgerVersion ≤ 27))
      (hclean : clean = true → 20 ≤ ledgerVersion → ScansClean host levels) :
      Run clean (initialized host levels ledgerVersion)
  | step {node node' : CachingNode Code Hash} (hrun : Run clean node)
      (close : CodeClose Code Hash) (hlegal : close.Legal host node)
      (hentry : node.ledgerVersion < 20 → 20 ≤ node.upgraded close → 25 ≤ node.upgraded close)
      (hclean : clean = true → node.Rebuilds close → RebuildsClean host close.levels)
      (hclose : node.closeLedger host close = .ok node') : Run clean node'

/-- The caches that the executors of the next ledger get. -/
def given (node : CachingNode Code Hash) : List (Option (PersistentModuleCache Hash)) :=
  [node.persistentCache, node.clusterCache]

/-- No executor aborts a host function for want of its cache, and the cache has a module
for all live code. -/
def Fits (node : CachingNode Code Hash) : Prop :=
  20 ≤ node.ledgerVersion → ∀ moduleCache ∈ node.given, ∃ cache,
    executeHostFunctionWithCache node.ledgerVersion moduleCache = .ok cache ∧
      ∀ hash, host.codeLive node.levels hash = true → hash ∈ cache.modules

/-- Invocations of allowed code cost the same on both nodes. -/
def MetersLike (node node' : CachingNode Code Hash) (allowed : Hash → Prop) : Prop :=
  ∀ moduleCache ∈ node.given, ∀ moduleCache' ∈ node'.given, ∀ cache cache',
    executeHostFunctionWithCache node.ledgerVersion moduleCache = .ok cache →
    executeHostFunctionWithCache node'.ledgerVersion moduleCache' = .ok cache' →
      ∀ hashes, (∀ hash ∈ hashes, allowed hash) →
        host.instantiationCost cache hashes = host.instantiationCost cache' hashes

/-! ### Filling the cache -/

variable {host} {protocolVersion : ℕ} {cache : PersistentModuleCache Hash} {hash : Hash}
  {levels : List (CodeLevel Code Hash)}

theorem addWasm_eq (hworks : host.Works)
    (hvariant : cache.variant = CacheVariant.forProtocol protocolVersion) (code : Code) :
    host.addWasm protocolVersion cache code =
      { cache with modules := insert (host.sha256 code) cache.modules } := by
  unfold addWasm
  rw [hvariant, if_pos (hworks.compiles protocolVersion code)]

structure Filled (protocolVersion : ℕ) (cache : PersistentModuleCache Hash)
    (held : Hash → Prop) : Prop where
  variant : cache.variant = CacheVariant.forProtocol protocolVersion
  modules : ∀ hash, hash ∈ cache.modules ↔ held hash

variable {held : Hash → Prop}

theorem Filled.addWasm (hfilled : Filled protocolVersion cache held) (hworks : host.Works)
    (code : Code) : Filled protocolVersion (host.addWasm protocolVersion cache code)
      fun hash => hash = host.sha256 code ∨ held hash := by
  rw [addWasm_eq hworks hfilled.variant]
  refine ⟨hfilled.variant, fun hash => ?_⟩
  rw [Finset.mem_insert, hfilled.modules]

omit [DecidableEq Hash] in
theorem Filled.congr {held' : Hash → Prop} (hfilled : Filled protocolVersion cache held)
    (hheld : ∀ hash, held hash ↔ held' hash) : Filled protocolVersion cache held' :=
  ⟨hfilled.variant, fun hash => (hfilled.modules hash).trans (hheld hash)⟩

omit [DecidableEq Hash] in
theorem filled_newForProtocol (hworks : host.Works) (protocolVersion : ℕ) :
    ∃ cache, host.newForProtocol protocolVersion = some cache ∧
      Filled protocolVersion cache fun _ => False := by
  refine ⟨⟨.forProtocol protocolVersion, ∅⟩, ?_, rfl, fun hash => by simp⟩
  unfold newForProtocol
  exact if_pos (hworks.creates _)

theorem Filled.warm (hfilled : Filled protocolVersion cache held) (hworks : host.Works)
    (codes : List Code) :
    Filled protocolVersion (codes.foldl (host.addWasm protocolVersion) cache)
      fun hash => hash ∈ codes.map host.sha256 ∨ held hash := by
  induction codes generalizing cache held with
  | nil => exact hfilled.congr fun hash => by simp
  | cons code codes ih =>
    refine (ih (hfilled.addWasm hworks code)).congr fun hash => ?_
    rw [map_cons, mem_cons]
    tauto

theorem Filled.prune (hfilled : Filled protocolVersion cache held) (hashes : List Hash) :
    Filled protocolVersion (hashes.foldl PersistentModuleCache.removeContract cache)
      fun hash => hash ∉ hashes ∧ held hash := by
  induction hashes generalizing cache held with
  | nil => exact hfilled.congr fun hash => by simp
  | cons removed hashes ih =>
    have herased : Filled protocolVersion (cache.removeContract removed)
        fun hash => hash ≠ removed ∧ held hash := by
      refine ⟨hfilled.variant, fun hash => ?_⟩
      rw [← hfilled.modules]
      exact Finset.mem_erase
    refine (ih herased).congr fun hash => ?_
    rw [mem_cons]
    tauto

/-! ### Scans -/

variable {entry : CodeBucketEntry Code Hash}

omit [DecidableEq Hash] in
theorem key_of_code? {code : Code}
    (hcode : entry.code? = some code) : host.key entry = host.sha256 code := by
  cases entry with
  | live code' => exact congrArg host.sha256 (Option.some.inj hcode)
  | init code' => exact congrArg host.sha256 (Option.some.inj hcode)
  | dead hash => cases hcode

theorem holds_cons (entry : CodeBucketEntry Code Hash)
    (entries : List (CodeBucketEntry Code Hash)) :
    host.holds (entry :: entries) hash =
      if host.key entry = hash then entry.code?.isSome else host.holds entries hash := by
  unfold holds
  by_cases hkey : host.key entry = hash
  · simp only [find?_cons, hkey, decide_true, if_true]
  · simp only [find?_cons, hkey, decide_false, if_false]

theorem Filled.scanSingleLevel (hfilled : Filled protocolVersion cache held) (hworks : host.Works)
    (level : CodeLevel Code Hash) :
    Filled protocolVersion (host.scanSingleLevel protocolVersion cache level)
      fun hash => held hash ∨ host.holds level.entries hash = true := by
  -- a key that was seen is settled; the others are as in the rest of the level
  have hscan (seen : List Hash) (entries : List (CodeBucketEntry Code Hash)) :
      Filled protocolVersion (entries.foldl (host.processEntry protocolVersion) (seen, cache)).2
        fun hash => held hash ∨ (hash ∉ seen ∧ host.holds entries hash = true) := by
    induction entries generalizing seen cache held with
    | nil => exact hfilled.congr fun hash => by simp [holds]
    | cons entry entries ih =>
      rw [foldl_cons]
      unfold processEntry
      split
      next hseen =>
        refine (ih hfilled seen).congr fun hash => ?_
        rw [holds_cons]
        split
        next hkey =>
          subst hkey
          simp [hseen]
        · rfl
      next hnew =>
        cases hcode : entry.code? with
        | none =>
          refine (ih hfilled _).congr fun hash => ?_
          rw [holds_cons, hcode, mem_cons]
          split
          next hkey =>
            subst hkey
            simp
          next hkey => simp [Ne.symm hkey]
        | some code =>
          refine (ih (hfilled.addWasm hworks code) _).congr fun hash => ?_
          rw [holds_cons, hcode, mem_cons, ← key_of_code? hcode]
          split
          next hkey =>
            subst hkey
            simp [hnew]
          next hkey => simp [Ne.symm hkey]
  exact (hscan [] level.entries).congr fun hash => by simp

theorem Filled.scanLevels (hfilled : Filled protocolVersion cache held) (hworks : host.Works)
    (levels : List (CodeLevel Code Hash)) :
    Filled protocolVersion (levels.foldl (host.scanSingleLevel protocolVersion) cache)
      fun hash => held hash ∨ ∃ level ∈ levels, host.holds level.entries hash = true := by
  induction levels generalizing cache held with
  | nil => exact hfilled.congr fun hash => by simp
  | cons level levels ih =>
    refine (ih (hfilled.scanSingleLevel hworks level)).congr fun hash => ?_
    rw [exists_mem_cons_iff, or_assoc]

omit [DecidableEq Hash] in
theorem exists_code_cons {code : Code} {entries : List (CodeBucketEntry Code Hash)}
    (hcode : entry.code? = some code) (hash : Hash) :
    (∃ entry' ∈ entry :: entries, ∃ code' ∈ entry'.code?, host.sha256 code' = hash) ↔
      hash = host.sha256 code ∨ ∃ entry' ∈ entries, ∃ code' ∈ entry'.code?,
        host.sha256 code' = hash := by
  rw [exists_mem_cons_iff, hcode]
  simp only [Option.mem_some_iff, exists_eq_left', eq_comm]

theorem Filled.rebuildEntries (hfilled : Filled protocolVersion cache held) (hworks : host.Works)
    (entries : List (CodeBucketEntry Code Hash)) (seen : List Hash)
    (hseen : ∀ hash ∈ seen, held hash) :
    Filled protocolVersion (entries.foldl (host.rebuildEntry protocolVersion) (seen, cache)).2
      fun hash => held hash ∨ ∃ entry ∈ entries, ∃ code ∈ entry.code?, host.sha256 code = hash := by
  induction entries generalizing seen cache held with
  | nil => exact hfilled.congr fun hash => by simp
  | cons entry entries ih =>
    rw [foldl_cons]
    unfold rebuildEntry
    split
    next code hcode =>
      split
      next hmem =>
        refine (ih hfilled seen hseen).congr fun hash => ?_
        have hheld := hseen _ hmem
        rw [exists_code_cons hcode]
        constructor
        · exact fun h => h.imp_right Or.inr
        · rintro (h | rfl | h)
          · exact .inl h
          · exact .inl hheld
          · exact .inr h
      · refine (ih (hfilled.addWasm hworks code) _ fun hash hmem => ?_).congr fun hash => ?_
        · exact (mem_cons.mp hmem).imp_right (hseen hash)
        · rw [exists_code_cons hcode]
          tauto
    next hcode =>
      refine (ih hfilled seen hseen).congr fun hash => ?_
      rw [exists_mem_cons_iff, hcode]
      simp

theorem exists_level_of_codeLive {hash : Hash} (hlive : host.codeLive levels hash = true) :
    ∃ level ∈ levels, host.holds level.entries hash = true := by
  unfold codeLive holds at hlive
  split at hlive
  next entry hfound =>
    rw [find?_flatMap] at hfound
    obtain ⟨level, hmem, hlevel⟩ := exists_of_findSome?_eq_some hfound
    refine ⟨level, hmem, ?_⟩
    unfold holds
    rw [hlevel]
    exact hlive
  · cases hlive

theorem exists_entry_of_codeLive {hash : Hash} (hlive : host.codeLive levels hash = true) :
    ∃ entry ∈ levels.flatMap CodeLevel.entries, ∃ code ∈ entry.code?, host.sha256 code = hash := by
  unfold codeLive holds at hlive
  split at hlive
  next entry hfound =>
    obtain ⟨code, hcode⟩ := Option.isSome_iff_exists.mp hlive
    refine ⟨entry, mem_of_find?_eq_some hfound, code, hcode, ?_⟩
    rw [← key_of_code? hcode]
    simpa using find?_some hfound
  · cases hlive

/-! ### The invariant -/

variable {clean : Bool} {node node' : CachingNode Code Hash}

/-- From protocol 20 on, there is a cache for the protocol. It has all live code, and
nothing else if the runs are clean. -/
def Ready (host : WasmHost Code Hash) (clean : Bool) (node : CachingNode Code Hash) : Prop :=
  20 ≤ node.ledgerVersion → ∃ cache held, node.moduleCache = some cache ∧
    Filled node.ledgerVersion cache held ∧
    ∀ hash, (host.codeLive node.levels hash = true → held hash) ∧
      (clean = true → held hash → host.codeLive node.levels hash = true)

theorem ready_initialized (hworks : host.Works) {ledgerVersion : ℕ}
    (hclean : clean = true → 20 ≤ ledgerVersion → ScansClean host levels) :
    (initialized host levels ledgerVersion).Ready host clean := by
  intro hsoroban
  change 20 ≤ ledgerVersion at hsoroban
  obtain ⟨cache, hnew, hempty⟩ := filled_newForProtocol hworks ledgerVersion
  refine ⟨_, _, ?_, hempty.scanLevels hworks levels, fun hash => ⟨fun hlive => ?_, ?_⟩⟩
  · change host.scanLevelPairsForCaches levels ledgerVersion = _
    unfold scanLevelPairsForCaches
    rw [if_pos hsoroban, hnew]
    rfl
  · exact .inr (exists_level_of_codeLive hlive)
  · rintro his (hfalse | ⟨level, hmem, hholds⟩)
    · exact hfalse.elim
    · exact hclean his hsoroban level hmem hash hholds

/-- A rebuild has all live code, whatever was there before. -/
theorem ready_rebuilt (hworks : host.Works) {ledgerVersion : ℕ}
    {moduleCache executorCache : Option (PersistentModuleCache Hash)}
    (hclean : clean = true → RebuildsClean host levels) :
    Ready host clean
      { ledgerVersion
        levels
        moduleCache := host.rebuildModuleCache levels ledgerVersion moduleCache
        executorCache } := by
  intro hsoroban
  obtain ⟨cache, hnew, hempty⟩ := filled_newForProtocol hworks ledgerVersion
  refine ⟨_, _, ?_, hempty.rebuildEntries hworks (levels.flatMap CodeLevel.entries) [] nofun,
    fun hash => ⟨fun hlive => ?_, ?_⟩⟩
  · change host.rebuildModuleCache levels ledgerVersion moduleCache = _
    unfold rebuildModuleCache
    rw [hnew]
  · exact .inr (exists_entry_of_codeLive hlive)
  · rintro his (hfalse | ⟨entry, hmem, code, hcode, rfl⟩)
    · exact hfalse.elim
    · exact hclean his entry hmem code hcode

theorem Ready.closeLedger (hready : node.Ready host clean) (hworks : host.Works)
    {close : CodeClose Code Hash} (hlegal : close.Legal host node)
    (hentry : node.ledgerVersion < 20 → 20 ≤ node.upgraded close → 25 ≤ node.upgraded close)
    (hclean : clean = true → node.Rebuilds close → RebuildsClean host close.levels)
    (hclose : node.closeLedger host close = .ok node') : node'.Ready host clean := by
  unfold CachingNode.closeLedger at hclose
  split at hclose
  · cases hclose
  next hsupported =>
    obtain rfl := Except.ok.inj hclose
    split
    next hrebuilds => exact ready_rebuilt hworks fun his => hclean his hrebuilds
    next hkept =>
      intro hsoroban
      change 20 ≤ node.upgraded close at hsoroban
      -- the only upgrade without a rebuild is that from before Soroban to protocol 24
      have hsame : node.upgraded close = node.ledgerVersion := by
        by_contra hup
        have hlt : ¬25 ≤ node.upgraded close := fun hle => hkept ⟨Ne.symm hup, hle⟩
        have hhigher : node.ledgerVersion < node.upgraded close := by
          cases hversion : close.versionUpgrade with
          | none => exact absurd (by simp [upgraded, hversion]) hup
          | some version =>
            have hupgrade := (hlegal.upgrade version hversion).1
            simpa [upgraded, hversion] using hupgrade
        have hbefore : ¬node.ledgerVersion < 20 := fun hlow => hlt (hentry hlow hsoroban)
        omega
      rw [hsame] at hsoroban ⊢
      obtain ⟨cache, held, hcache, hfilled, hheld⟩ := hready hsoroban
      refine ⟨_, _, ?_, (hfilled.warm hworks (close.initEntries ++ close.liveEntries)).prune
        close.deadEntries, fun hash => ?_⟩
      · change node.warmed host close = _
        unfold CachingNode.warmed
        rw [if_pos hsoroban, hcache, hsame]
        rfl
      · change (host.codeLive close.levels hash = true → _) ∧
          (_ → _ → host.codeLive close.levels hash = true)
        rw [hlegal.batch hash]
        have honce := hlegal.once hash
        obtain ⟨hall, honly⟩ := hheld hash
        constructor
        · rintro (hwritten | ⟨hkept, hlive⟩)
          · exact ⟨fun hdead => honce hdead hwritten, .inl hwritten⟩
          · exact ⟨hkept, .inr (hall hlive)⟩
        · rintro his ⟨hkept, hwritten | hbefore⟩
          · exact .inl hwritten
          · exact .inr ⟨hkept, honly his hbefore⟩

theorem Run.ready (hworks : host.Works) (hrun : Run host clean node) : node.Ready host clean := by
  induction hrun with
  | start levels ledgerVersion hsupported hclean => exact ready_initialized hworks hclean
  | step hrun close hlegal hentry hclean hclose ih =>
    exact ih.closeLedger hworks hlegal hentry hclean hclose

theorem Ready.given (hready : node.Ready host clean) (hsoroban : 20 ≤ node.ledgerVersion) :
    ∃ cache held, (∀ moduleCache ∈ node.given, moduleCache = some cache) ∧
      Filled node.ledgerVersion cache held ∧
      ∀ hash, (host.codeLive node.levels hash = true → held hash) ∧
        (clean = true → held hash → host.codeLive node.levels hash = true) := by
  obtain ⟨cache, held, hcache, hfilled, hheld⟩ := hready hsoroban
  refine ⟨cache, held, fun moduleCache hmem => ?_, hfilled, hheld⟩
  simp only [CachingNode.given, mem_cons, not_mem_nil, or_false] at hmem
  rcases hmem with rfl | rfl
  · unfold CachingNode.persistentCache
    rw [hcache]
    rfl
  · exact hcache

omit [DecidableEq Hash] in
theorem Filled.execute (hfilled : Filled protocolVersion cache held) :
    executeHostFunctionWithCache protocolVersion (some cache) = .ok cache := by
  unfold executeHostFunctionWithCache
  exact if_pos hfilled.variant

/-- In every run that does not go from before Soroban to a protocol below 25, the caches
fit the ledger, and two nodes in one ledger charge the same for what is live there. In
clean runs they charge the same for all code. -/
theorem moduleCache_fits (hworks : host.Works) (hrun : Run host clean node) :
    node.Fits host ∧ ∀ node', Run host clean node' →
      20 ≤ node.ledgerVersion → node'.ledgerVersion = node.ledgerVersion →
      (∀ hash, host.codeLive node'.levels hash = host.codeLive node.levels hash) →
        node.MetersLike host node' fun hash =>
          clean = true ∨ host.codeLive node.levels hash = true := by
  have hready := hrun.ready hworks
  refine ⟨fun hsoroban moduleCache hmem => ?_, fun node' hrun' hsoroban hversion hlive => ?_⟩
  · obtain ⟨cache, held, hgiven, hfilled, hheld⟩ := hready.given hsoroban
    refine ⟨cache, ?_, fun hash hlive => (hfilled.modules hash).mpr ((hheld hash).1 hlive)⟩
    rw [hgiven moduleCache hmem]
    exact hfilled.execute
  · intro moduleCache hmem moduleCache' hmem' cache cache' hexecute hexecute' hashes hallowed
    obtain ⟨filled, held, hgiven, hfilled, hheld⟩ := hready.given hsoroban
    obtain ⟨filled', held', hgiven', hfilled', hheld'⟩ :=
      (hrun'.ready hworks).given (hversion ▸ hsoroban)
    rw [hgiven moduleCache hmem, hfilled.execute] at hexecute
    rw [hgiven' moduleCache' hmem', hfilled'.execute] at hexecute'
    obtain rfl := Except.ok.inj hexecute
    obtain rfl := Except.ok.inj hexecute'
    unfold instantiationCost
    refine congrArg sum (map_congr_left fun hash hmem => ?_)
    -- both have the module, or neither
    have hsame : hash ∈ filled.modules ↔ hash ∈ filled'.modules := by
      rw [hfilled.modules, hfilled'.modules]
      obtain ⟨hall, honly⟩ := hheld hash
      obtain ⟨hall', honly'⟩ := hheld' hash
      rw [hlive] at hall' honly'
      rcases hallowed hash hmem with his | hislive
      · exact ⟨fun h => hall' (honly his h), fun h => hall (honly' his h)⟩
      · exact ⟨fun _ => hall' hislive, fun _ => hall hislive⟩
    simp only [hsame]

/-- Code that is its own hash; a module that is not cached costs ten times as much. -/
def plainHost : WasmHost ℕ ℕ where
  sha256 := id
  creates _ := true
  compiles _ _ _ := true
  instantiation _ := 10
  cachedInstantiation _ := 1

theorem plainHost_works : plainHost.Works := ⟨fun _ => rfl, fun _ _ => rfl⟩

/-- One code is replaced by another in the ledger that upgrades to protocol 25. -/
def replacing : CodeClose ℕ ℕ where
  initEntries := [8]
  liveEntries := []
  deadEntries := [7]
  versionUpgrade := some 25
  levels := [⟨[.init 8], []⟩]

theorem replacing_legal :
    replacing.Legal plainHost (initialized plainHost [⟨[.init 7], []⟩] 24) where
  upgrade version hversion := by
    obtain rfl := Option.some.inj hversion
    decide
  once := by decide
  batch hash := by
    by_cases hnew : 8 = hash
    · subst hnew
      decide
    · by_cases hold : 7 = hash
      · subst hold
        decide
      · simp [codeLive, holds, key, CodeLevel.entries, initialized,
          replacing, plainHost, CodeClose.written, hnew, hold, Ne.symm hnew]

/-- After the upgrade, a node that has run all along is like one that starts there. -/
theorem moduleCache_fits_replacing : ∃ node, Run plainHost true node ∧
    node.ledgerVersion = 25 ∧ node.Fits plainHost ∧
    node.MetersLike plainHost (initialized plainHost [⟨[.init 8], []⟩] 25) fun _ => True := by
  have hnew : RebuildsClean plainHost [⟨[.init 8], []⟩] := by
    intro entry hmem code hcode
    obtain rfl := mem_singleton.mp hmem
    obtain rfl := Option.some.inj hcode
    rfl
  have hscan (hash : ℕ) : ScansClean plainHost [⟨[.init hash], []⟩] := by
    intro level hmem hash' hholds
    obtain rfl := mem_singleton.mp hmem
    exact hholds
  have hrun : Run plainHost true _ :=
    .step (.start [⟨[.init 7], []⟩] 24 (by decide) fun _ _ => hscan 7) replacing replacing_legal
      (by decide) (fun _ _ => hnew) rfl
  have hrestarted : Run plainHost true (initialized plainHost [⟨[.init 8], []⟩] 25) :=
    .start _ 25 (by decide) fun _ _ => hscan 8
  obtain ⟨hfits, hmeters⟩ := moduleCache_fits plainHost_works hrun
  refine ⟨_, hrun, rfl, hfits, ?_⟩
  intro moduleCache hmem moduleCache' hmem' cache cache' hexecute hexecute' hashes _
  exact hmeters _ hrestarted (by decide) rfl (fun _ => rfl) moduleCache hmem moduleCache' hmem'
    cache cache' hexecute hexecute' hashes fun _ _ => .inl rfl

/-- A node that goes from before Soroban to protocol 24 has no cache for the first
contract call; and one that has evicted some code charges more, when it is restored, than
one that starts while an older level still holds it. -/
theorem moduleCache_misfits :
    (∃ close node, close.Legal plainHost (initialized plainHost [] 0) ∧
      (initialized plainHost [] 0).closeLedger plainHost close = .ok node ∧
      node.ledgerVersion = 24 ∧ ¬node.Fits plainHost ∧
      node.given.map (executeHostFunctionWithCache 24) =
        [.error "Module cache must be provided for Soroban TX execution",
          .error "Module cache must be provided for Soroban TX execution"]) ∧
    ∃ close node, close.Legal plainHost (initialized plainHost [⟨[], []⟩, ⟨[.live 7], []⟩] 24) ∧
      (initialized plainHost [⟨[], []⟩, ⟨[.live 7], []⟩] 24).closeLedger plainHost close =
        .ok node ∧
      ¬node.MetersLike plainHost (initialized plainHost node.levels node.ledgerVersion)
        fun _ => True := by
  refine ⟨⟨⟨[], [], [], some 24, []⟩, _, ⟨?_, by decide, fun hash => ?_⟩, rfl, rfl, ?_, rfl⟩,
    ⟨[], [], [7], none, [⟨[.dead 7], []⟩, ⟨[.live 7], []⟩]⟩, _, ⟨nofun, by decide, fun hash => ?_⟩,
    rfl, ?_⟩
  · intro version hversion
    obtain rfl := Option.some.inj hversion
    decide
  · simp [codeLive, holds, CodeClose.written, initialized]
  · intro hfits
    obtain ⟨cache, hexecute, _⟩ := hfits (by decide) none (.tail _ (.head _))
    cases hexecute
  · by_cases hold : 7 = hash
    · subst hold
      decide
    · simp [codeLive, holds, key, CodeLevel.entries, initialized,
        plainHost, CodeClose.written, hold]
  · intro hmeters
    have hcost := hmeters _ (.head _) _ (.head _) _ _ rfl rfl [7] fun _ _ => trivial
    revert hcost
    decide

end CachingNode

end Henyey.Soroban
