import PtokensCore.Eth.EthState

/-! `eth_init_utils.rs`: the steps that seed the ETH side of the store from its first block.

Each step reads the block the state carries and writes one key, or changes the block.
`EthInitStep` names the steps; what a step does to the store's ETH keys is `EthInitStep.write`,
and what it does to the state's block is `EthInitStep.blockAfter`. A run of steps refines
the runs of that abstract machine, so whatever the order the steps are taken in, the four
pointers end up at the seeding block and the settings at the values given.
-/

set_option autoImplicit false

namespace PtokensCore.Eth

open PtokensCore.Btc

section Steps

variable {σ : Type} (db : DatabaseInterface σ) (keys : EthDbKeys)

/-- The shape of each `..._and_return_state` that writes: the write, then the state with the
store after it (`.map(|_| state)`). -/
def writeAndReturnState (write : σ → Result σ) (state : EthState σ) : Result (EthState σ) :=
  (write state.db).map fun store => { state with db := store }

def putEthTailBlockHashInDbAndReturnState (state : EthState σ) : Result (EthState σ) := do
  let blockAndReceipts ← state.getEthBlockAndReceipts
  writeAndReturnState (putEthTailBlockHashInDb db keys · blockAndReceipts.block.hash) state

def setHashFromBlockInState (state : EthState σ) (hashType : String) : Result (EthState σ) := do
  let hash := (← state.getEthBlockAndReceipts).block.hash
  let store ← match hashType with
    | "canon" => putEthCanonBlockHashInDb db keys state.db hash
    | "latest" => putEthLatestBlockHashInDb db keys state.db hash
    | "anchor" => putEthAnchorBlockHashInDb db keys state.db hash
    | _ => .error (.error (.custom "✘ Hash type not recognized!"))
  pure { state with db := store }

def setEthLatestBlockHashAndReturnState (state : EthState σ) : Result (EthState σ) :=
  setHashFromBlockInState db keys state "latest"

def setEthAnchorBlockHashAndReturnState (state : EthState σ) : Result (EthState σ) :=
  setHashFromBlockInState db keys state "anchor"

def setEthCanonBlockHashAndReturnState (state : EthState σ) : Result (EthState σ) :=
  setHashFromBlockInState db keys state "canon"

def putCanonToTipLengthInDbAndReturnState (canonToTipLength : UInt64) (state : EthState σ) :
    Result (EthState σ) :=
  writeAndReturnState (putEthCanonToTipLengthInDb db keys · canonToTipLength) state

def putEthChainIdInDbAndReturnState (chainId : UInt8) (state : EthState σ) : Result (EthState σ) :=
  writeAndReturnState (putEthChainIdInDb db keys · chainId) state

def putEthGasPriceInDbAndReturnState (gasPrice : UInt64) (state : EthState σ) : Result (EthState σ) :=
  writeAndReturnState (putEthGasPriceInDb db keys · gasPrice) state

/-- The nonce starts at one: the contract's deployment spends nonce zero. -/
def putEthAccountNonceInDbAndReturnState (state : EthState σ) : Result (EthState σ) :=
  writeAndReturnState (putEthAccountNonceInDb db keys · 1) state

def removeReceiptsFromBlockInState (state : EthState σ) : Result (EthState σ) := do
  let blockWithNoReceipts : EthBlockAndReceipts :=
    { block := (← state.getEthBlockAndReceipts).block, receipts := [] }
  state.updateEthBlockAndReceipts blockWithNoReceipts

def addEthBlockToDbAndReturnState (encode : EthBlockAndReceipts → List UInt8) (state : EthState σ) :
    Result (EthState σ) := do
  let blockAndReceipts ← state.getEthBlockAndReceipts
  writeAndReturnState (putEthBlockAndReceiptsInDb db encode · blockAndReceipts) state

end Steps

/-! ## Initialisation as a run of steps -/

/-- The steps of `eth_init_utils.rs` that change the state or the store. -/
inductive EthInitStep
  | putTailBlockHash
  | setCanonBlockHash
  | setLatestBlockHash
  | setAnchorBlockHash
  | putCanonToTipLength (length : UInt64)
  | putChainId (chainId : UInt8)
  | putGasPrice (gasPrice : UInt64)
  | putAccountNonce
  | removeReceipts
  | addBlockToDb
  deriving DecidableEq

section Run

variable {σ : Type} (db : DatabaseInterface σ) (keys : EthDbKeys) (encode : EthBlockAndReceipts → List UInt8)

def EthInitStep.run : EthInitStep → EthState σ → Result (EthState σ)
  | .putTailBlockHash => putEthTailBlockHashInDbAndReturnState db keys
  | .setCanonBlockHash => setEthCanonBlockHashAndReturnState db keys
  | .setLatestBlockHash => setEthLatestBlockHashAndReturnState db keys
  | .setAnchorBlockHash => setEthAnchorBlockHashAndReturnState db keys
  | .putCanonToTipLength length => putCanonToTipLengthInDbAndReturnState db keys length
  | .putChainId chainId => putEthChainIdInDbAndReturnState db keys chainId
  | .putGasPrice gasPrice => putEthGasPriceInDbAndReturnState db keys gasPrice
  | .putAccountNonce => putEthAccountNonceInDbAndReturnState db keys
  | .removeReceipts => removeReceiptsFromBlockInState
  | .addBlockToDb => addEthBlockToDbAndReturnState db encode

/-- The steps one after another, stopping at the first error. -/
def runEthInitSteps : List EthInitStep → EthState σ → Result (EthState σ)
  | [], state => .ok state
  | step :: steps, state => do runEthInitSteps steps (← step.run db keys encode state)

end Run

/-! ## The abstract machine

Its state is what the store holds under the ETH keys and the block being processed. -/

/-- The key a step writes and what it writes there, given the hash of the block. -/
def EthInitStep.write (hash : FixedBytes 32) : EthInitStep → Option (EthDbKey × List UInt8)
  | .putTailBlockHash => some (.tailBlockHash, hash.bytes)
  | .setCanonBlockHash => some (.canonBlockHash, hash.bytes)
  | .setLatestBlockHash => some (.latestBlockHash, hash.bytes)
  | .setAnchorBlockHash => some (.anchorBlockHash, hash.bytes)
  | .putCanonToTipLength length => some (.canonToTipLength, convertU64ToBytes length)
  | .putChainId chainId => some (.chainId, [chainId])
  | .putGasPrice gasPrice => some (.gasPrice, convertU64ToBytes gasPrice)
  | .putAccountNonce => some (.accountNonce, convertU64ToBytes 1)
  | .removeReceipts | .addBlockToDb => none

/-- The block after a step: only `remove_receipts_from_block_in_state` changes it. -/
def EthInitStep.blockAfter : EthInitStep → EthBlockAndReceipts → EthBlockAndReceipts
  | .removeReceipts, blockAndReceipts => { blockAndReceipts with receipts := [] }
  | _, blockAndReceipts => blockAndReceipts

/-- One write, if any. -/
def applyWrite (contents : EthDbKey → Option (List UInt8)) : Option (EthDbKey × List UInt8) →
    EthDbKey → Option (List UInt8)
  | some (key, value) => Function.update contents key (some value)
  | none => contents

/-- The writes of a run, in order. -/
def applyWrites (contents : EthDbKey → Option (List UInt8)) (writes : List (EthDbKey × List UInt8)) :
    EthDbKey → Option (List UInt8) :=
  writes.foldl (fun contents write => applyWrite contents (some write)) contents

@[simp] theorem EthInitStep.blockAfter_block (step : EthInitStep) (blockAndReceipts : EthBlockAndReceipts) :
    (step.blockAfter blockAndReceipts).block = blockAndReceipts.block := by
  cases step <;> rfl

theorem applyWrites_perm {writes writes' : List (EthDbKey × List UInt8)} (distinct : (writes.map Prod.fst).Nodup)
    (perm : writes.Perm writes') (contents : EthDbKey → Option (List UInt8)) :
    applyWrites contents writes = applyWrites contents writes' := by
  refine perm.foldl_eq' (fun first mem second mem' contents => ?_) contents
  by_cases same : first.1 = second.1
  · rw [List.inj_on_of_nodup_map distinct mem mem' same]
  · exact Function.update_comm same _ _ _

/-- What a step writes to the store, key and bytes: the ETH key `write` names, or for
`add_eth_block_to_db_and_return_state` the block under its hash. -/
def EthInitStep.storeWrite (keys : EthDbKeys) (encode : EthBlockAndReceipts → List UInt8)
    (blockAndReceipts : EthBlockAndReceipts) : EthInitStep → Option (List UInt8 × List UInt8)
  | .addBlockToDb => some (blockAndReceipts.block.hash.bytes, encode blockAndReceipts)
  | step => (step.write blockAndReceipts.block.hash).map fun write => (keys.key write.1, write.2)

/-- The write, if there is one, on the store. -/
def putWrite {σ : Type} (db : DatabaseInterface σ) (store : σ) : Option (List UInt8 × List UInt8) → Result σ
  | some (key, value) => db.put store key value
  | none => .ok store

theorem applyWrites_filterMap_cons (contents : EthDbKey → Option (List UInt8)) (hash : FixedBytes 32)
    (step : EthInitStep) (steps : List EthInitStep) :
    applyWrites contents ((step :: steps).filterMap (EthInitStep.write hash)) =
      applyWrites (applyWrite contents (step.write hash)) (steps.filterMap (EthInitStep.write hash)) := by
  rw [List.filterMap_cons]
  cases step.write hash <;> rfl

theorem foldl_blockAfter (steps : List EthInitStep) (blockAndReceipts : EthBlockAndReceipts) :
    steps.foldl (fun blockAndReceipts step => step.blockAfter blockAndReceipts) blockAndReceipts =
      if .removeReceipts ∈ steps then { blockAndReceipts with receipts := [] } else blockAndReceipts := by
  induction steps generalizing blockAndReceipts with
  | nil => rfl
  | cons step steps ih =>
    rw [List.foldl_cons, ih]
    cases step <;> by_cases removed : EthInitStep.removeReceipts ∈ steps <;> simp [removed, EthInitStep.blockAfter]

/-- The record a run leaves under the block's hash: the block as it stood at the run's last
`add_eth_block_to_db_and_return_state`, or what the store held there before if there is none. -/
def blockRecordAfter (encode : EthBlockAndReceipts → List UInt8) :
    List EthInitStep → EthBlockAndReceipts → Option (List UInt8) → Option (List UInt8)
  | [], _, record => record
  | step :: steps, blockAndReceipts, record =>
    blockRecordAfter encode steps (step.blockAfter blockAndReceipts)
      (if step = .addBlockToDb then some (encode blockAndReceipts) else record)

theorem blockRecordAfter_append (encode : EthBlockAndReceipts → List UInt8) (before after : List EthInitStep)
    (blockAndReceipts : EthBlockAndReceipts) (record : Option (List UInt8)) :
    blockRecordAfter encode (before ++ after) blockAndReceipts record =
      blockRecordAfter encode after (before.foldl (fun blockAndReceipts step => step.blockAfter blockAndReceipts)
        blockAndReceipts) (blockRecordAfter encode before blockAndReceipts record) := by
  induction before generalizing blockAndReceipts record with
  | nil => rfl
  | cons step before ih => exact ih _ _

theorem blockRecordAfter_of_not_mem (encode : EthBlockAndReceipts → List UInt8) {steps : List EthInitStep}
    (absent : .addBlockToDb ∉ steps) (blockAndReceipts : EthBlockAndReceipts) (record : Option (List UInt8)) :
    blockRecordAfter encode steps blockAndReceipts record = record := by
  induction steps generalizing blockAndReceipts with
  | nil => rfl
  | cons step steps ih =>
    rw [List.mem_cons, not_or] at absent
    rw [blockRecordAfter, if_neg (Ne.symm absent.1), ih absent.2]

/-! ## The code refines the abstract machine -/

section Refinement

variable {σ : Type} {db : DatabaseInterface σ} {keys : EthDbKeys} {encode : EthBlockAndReceipts → List UInt8}
  {state state' : EthState σ} {blockAndReceipts : EthBlockAndReceipts}

/-- Everything a step does on a state that carries a block. -/
theorem EthInitStep.run_eq (step : EthInitStep) (has : state.ethBlockAndReceipts = some blockAndReceipts) :
    step.run db keys encode state = (putWrite db state.db (step.storeWrite keys encode blockAndReceipts)).map
      fun store => { db := store, ethBlockAndReceipts := some (step.blockAfter blockAndReceipts) } := by
  cases step <;>
    simp only [EthInitStep.run, putEthTailBlockHashInDbAndReturnState, setEthCanonBlockHashAndReturnState,
      setEthLatestBlockHashAndReturnState, setEthAnchorBlockHashAndReturnState, setHashFromBlockInState,
      putCanonToTipLengthInDbAndReturnState, putEthChainIdInDbAndReturnState, putEthGasPriceInDbAndReturnState,
      putEthAccountNonceInDbAndReturnState, removeReceiptsFromBlockInState, addEthBlockToDbAndReturnState,
      EthState.getEthBlockAndReceipts_of_some has, Except.ok_bind, writeAndReturnState, has] <;>
    rfl

theorem EthInitStep.run_inversion {step : EthInitStep} (has : state.ethBlockAndReceipts = some blockAndReceipts)
    (ran : step.run db keys encode state = .ok state') :
    putWrite db state.db (step.storeWrite keys encode blockAndReceipts) = .ok state'.db ∧
      state'.ethBlockAndReceipts = some (step.blockAfter blockAndReceipts) := by
  rw [step.run_eq has] at ran
  cases wrote : putWrite db state.db (step.storeWrite keys encode blockAndReceipts) <;>
    simp only [wrote, Except.map, reduceCtorEq, Except.ok.injEq] at ran
  subst ran
  exact ⟨rfl, rfl⟩

theorem EthInitStep.run_ok (total : db.PutSucceeds) (step : EthInitStep)
    (has : state.ethBlockAndReceipts = some blockAndReceipts) : ∃ state', step.run db keys encode state = .ok state' := by
  rw [step.run_eq has]
  rcases step.storeWrite keys encode blockAndReceipts with _ | ⟨key, value⟩
  · exact ⟨_, rfl⟩
  · obtain ⟨store, put⟩ := total state.db key value
    exact ⟨_, by rw [putWrite, put]; rfl⟩

section Lawful

variable (lawful : db.Lawful)
include lawful

theorem EthInitStep.contents_of_writesTo {step : EthInitStep} {store store' : σ}
    (away : ∀ key, keys.key key ≠ blockAndReceipts.block.hash.bytes)
    (wrote : putWrite db store (step.storeWrite keys encode blockAndReceipts) = .ok store') :
    contents db keys store' = applyWrite (contents db keys store) (step.write blockAndReceipts.block.hash) := by
  cases step
  case addBlockToDb => exact contents_of_put_other lawful keys wrote away
  case removeReceipts => cases wrote; rfl
  all_goals exact contents_of_put lawful keys wrote

theorem EthInitStep.get_of_writesTo {step : EthInitStep} {store store' : σ} {other : List UInt8}
    (notKey : ∀ key, keys.key key ≠ other) (notBlock : blockAndReceipts.block.hash.bytes ≠ other)
    (wrote : putWrite db store (step.storeWrite keys encode blockAndReceipts) = .ok store') :
    db.get store' other = db.get store other := by
  cases step
  case removeReceipts => cases wrote; rfl
  case addBlockToDb => exact lawful.get_put_ne other wrote notBlock.symm
  all_goals exact lawful.get_put_ne other wrote (notKey _).symm

/-- A run makes the abstract machine's writes in order, touches no other key but the block's,
and leaves the block as the steps say. -/
theorem runEthInitSteps_refines {steps : List EthInitStep} (has : state.ethBlockAndReceipts = some blockAndReceipts)
    (away : ∀ key, keys.key key ≠ blockAndReceipts.block.hash.bytes)
    (ran : runEthInitSteps db keys encode steps state = .ok state') :
    contents db keys state'.db =
        applyWrites (contents db keys state.db) (steps.filterMap (EthInitStep.write blockAndReceipts.block.hash)) ∧
      (∀ other, (∀ key, keys.key key ≠ other) → blockAndReceipts.block.hash.bytes ≠ other →
        db.get state'.db other = db.get state.db other) ∧
      state'.ethBlockAndReceipts =
        some (steps.foldl (fun blockAndReceipts step => step.blockAfter blockAndReceipts) blockAndReceipts) := by
  induction steps generalizing state blockAndReceipts with
  | nil =>
    cases ran
    exact ⟨rfl, fun _ _ _ => rfl, has⟩
  | cons step steps ih =>
    obtain ⟨middle, first, rest⟩ := Except.bind_eq_ok.1 ran
    obtain ⟨wrote, kept⟩ := step.run_inversion has first
    have sameHash := congrArg (·.hash) (step.blockAfter_block blockAndReceipts)
    obtain ⟨contentsAfter, frame, block⟩ :=
      ih kept (by simpa only [sameHash] using away) rest
    simp only [sameHash] at contentsAfter frame
    refine ⟨?_, fun other notKey notBlock => ?_, block⟩
    · rw [contentsAfter, step.contents_of_writesTo lawful away wrote, applyWrites_filterMap_cons]
    · rw [frame other notKey notBlock, step.get_of_writesTo lawful notKey notBlock wrote]

theorem EthInitStep.get_hash_of_writesTo {step : EthInitStep} {store store' : σ}
    (away : ∀ key, keys.key key ≠ blockAndReceipts.block.hash.bytes)
    (wrote : putWrite db store (step.storeWrite keys encode blockAndReceipts) = .ok store') :
    db.get store' blockAndReceipts.block.hash.bytes =
      if step = .addBlockToDb then some (encode blockAndReceipts) else db.get store blockAndReceipts.block.hash.bytes := by
  cases step
  case removeReceipts => cases wrote; rfl
  case addBlockToDb => exact lawful.get_put_self wrote
  all_goals exact lawful.get_put_ne _ wrote (away _).symm

theorem runEthInitSteps_record {steps : List EthInitStep} (has : state.ethBlockAndReceipts = some blockAndReceipts)
    (away : ∀ key, keys.key key ≠ blockAndReceipts.block.hash.bytes)
    (ran : runEthInitSteps db keys encode steps state = .ok state') :
    db.get state'.db blockAndReceipts.block.hash.bytes =
      blockRecordAfter encode steps blockAndReceipts (db.get state.db blockAndReceipts.block.hash.bytes) := by
  induction steps generalizing state blockAndReceipts with
  | nil => cases ran; rfl
  | cons step steps ih =>
    obtain ⟨middle, first, rest⟩ := Except.bind_eq_ok.1 ran
    obtain ⟨wrote, kept⟩ := step.run_inversion has first
    have sameHash := congrArg (·.hash) (step.blockAfter_block blockAndReceipts)
    have after := ih kept (by simpa only [sameHash] using away) rest
    simp only [sameHash] at after
    rw [after, blockRecordAfter, step.get_hash_of_writesTo lawful away wrote]

end Lawful

theorem runEthInitSteps_ok (total : db.PutSucceeds) (steps : List EthInitStep)
    (has : state.ethBlockAndReceipts = some blockAndReceipts) :
    ∃ state', runEthInitSteps db keys encode steps state = .ok state' := by
  induction steps generalizing state blockAndReceipts with
  | nil => exact ⟨_, rfl⟩
  | cons step steps ih =>
    obtain ⟨middle, first⟩ := step.run_ok total has
    obtain ⟨state', rest⟩ := ih (step.run_inversion has first).2
    exact ⟨state', Except.bind_eq_ok.2 ⟨middle, first, rest⟩⟩

theorem runEthInitSteps_append (before after : List EthInitStep) (state : EthState σ) :
    runEthInitSteps db keys encode (before ++ after) state =
      runEthInitSteps db keys encode before state >>= runEthInitSteps db keys encode after := by
  induction before generalizing state with
  | nil => rfl
  | cons step before ih =>
    simp only [List.cons_append, runEthInitSteps]
    cases step.run db keys encode state <;> simp [ih]

theorem EthInitStep.run_error {step : EthInitStep} (has : state.ethBlockAndReceipts = some blockAndReceipts)
    {fault : Fault AppError} :
    step.run db keys encode state = .error fault ↔
      putWrite db state.db (step.storeWrite keys encode blockAndReceipts) = .error fault := by
  rw [step.run_eq has]
  cases putWrite db state.db (step.storeWrite keys encode blockAndReceipts) <;> simp [Except.map]

/-- A run fails exactly at the first write the store refuses, with the store's own error. -/
theorem eth_initialization_fails_only_on_refused_write {steps : List EthInitStep}
    (has : state.ethBlockAndReceipts = some blockAndReceipts) {fault : Fault AppError} :
    runEthInitSteps db keys encode steps state = .error fault ↔
      ∃ before step after middle blockAndReceipts', steps = before ++ step :: after ∧
        runEthInitSteps db keys encode before state = .ok middle ∧
        middle.ethBlockAndReceipts = some blockAndReceipts' ∧
        putWrite db middle.db (step.storeWrite keys encode blockAndReceipts') = .error fault := by
  constructor
  · intro failed
    induction steps generalizing state blockAndReceipts with
    | nil => cases failed
    | cons step steps ih =>
      cases ran : step.run db keys encode state with
      | error first =>
        simp only [runEthInitSteps, ran, Except.error_bind] at failed
        cases failed
        exact ⟨[], step, steps, state, blockAndReceipts, rfl, rfl, has, (step.run_error has).1 ran⟩
      | ok middle =>
        simp only [runEthInitSteps, ran, Except.ok_bind] at failed
        obtain ⟨before, failing, after, middle', blockAndReceipts', rfl, earlier, has', wrote⟩ :=
          ih (step.run_inversion has ran).2 failed
        exact ⟨step :: before, failing, after, middle', blockAndReceipts', rfl,
          by simp [runEthInitSteps, ran, earlier], has', wrote⟩
  · rintro ⟨before, step, after, middle, blockAndReceipts', rfl, earlier, has', wrote⟩
    rw [runEthInitSteps_append, earlier, Except.ok_bind, runEthInitSteps, (step.run_error has').2 wrote,
      Except.error_bind]

end Refinement

theorem eth_initialization_fails_only_on_refused_write_on_full_store :
    let db : DatabaseInterface Unit := ⟨fun _ _ => none, fun _ _ _ => .error (.error (.custom "full"))⟩
    let keys : EthDbKeys := ⟨fun key => [UInt8.ofNat key.toCtorIdx], by decide⟩
    let blockAndReceipts : EthBlockAndReceipts := ⟨⟨⟨List.replicate 32 7, rfl⟩⟩, []⟩
    let state : EthState Unit := ⟨(), some blockAndReceipts⟩
    let steps : List EthInitStep := [.setLatestBlockHash, .setCanonBlockHash, .setAnchorBlockHash, .putTailBlockHash]
    state.ethBlockAndReceipts = some blockAndReceipts ∧
      (runEthInitSteps db keys (fun _ => []) steps state = .error (.error (.custom "full")) ↔
        ∃ before step after middle blockAndReceipts', steps = before ++ step :: after ∧
          runEthInitSteps db keys (fun _ => []) before state = .ok middle ∧
          middle.ethBlockAndReceipts = some blockAndReceipts' ∧
          putWrite db middle.db (step.storeWrite keys (fun _ => []) blockAndReceipts') = .error (.error (.custom "full"))) :=
  ⟨rfl, eth_initialization_fails_only_on_refused_write rfl⟩

/-- The steps of the initialisation, each once. The order the caller takes them in is not
among the sources, and plays no part. -/
def ethInitSteps (canonToTipLength : UInt64) (chainId : UInt8) (gasPrice : UInt64) : List EthInitStep :=
  [.removeReceipts, .addBlockToDb, .putTailBlockHash, .setCanonBlockHash, .setLatestBlockHash,
    .setAnchorBlockHash, .putCanonToTipLength canonToTipLength, .putChainId chainId, .putGasPrice gasPrice,
    .putAccountNonce]

theorem ethInitSteps_writes_distinct (hash : FixedBytes 32) (canonToTipLength : UInt64) (chainId : UInt8)
    (gasPrice : UInt64) :
    (((ethInitSteps canonToTipLength chainId gasPrice).filterMap (EthInitStep.write hash)).map Prod.fst).Nodup := by
  simp [ethInitSteps, EthInitStep.write]

theorem ethInitSteps_nodup (canonToTipLength : UInt64) (chainId : UInt8) (gasPrice : UInt64) :
    (ethInitSteps canonToTipLength chainId gasPrice).Nodup := by
  simp [ethInitSteps]

/-- In any order of its steps, the initialisation sets the four pointers to the block and the
settings to the values given, whatever the store held. -/
theorem eth_initialization_seeds_chain_pointers {σ : Type} {db : DatabaseInterface σ} (lawful : db.Lawful)
    (total : db.PutSucceeds) (keys : EthDbKeys) (encode : EthBlockAndReceipts → List UInt8)
    {state : EthState σ} {blockAndReceipts : EthBlockAndReceipts}
    (has : state.ethBlockAndReceipts = some blockAndReceipts)
    (away : ∀ key, keys.key key ≠ blockAndReceipts.block.hash.bytes)
    {canonToTipLength : UInt64} {chainId : UInt8} {gasPrice : UInt64} {steps : List EthInitStep}
    (perm : steps.Perm (ethInitSteps canonToTipLength chainId gasPrice)) :
    ∃ state', runEthInitSteps db keys encode steps state = .ok state' ∧
      ChainPointers.ofContents (contents db keys state'.db) =
        { latest := some blockAndReceipts.block.hash, canon := some blockAndReceipts.block.hash,
          anchor := some blockAndReceipts.block.hash, tail := some blockAndReceipts.block.hash,
          canonToTipLength := some canonToTipLength, chainId := some chainId, gasPrice := some gasPrice,
          accountNonce := some 1 } ∧
      state'.ethBlockAndReceipts = some { blockAndReceipts with receipts := [] } ∧
      ∀ other, (∀ key, keys.key key ≠ other) → blockAndReceipts.block.hash.bytes ≠ other →
        db.get state'.db other = db.get state.db other := by
  obtain ⟨state', ran⟩ := runEthInitSteps_ok total steps has
  obtain ⟨contentsAfter, frame, block⟩ := runEthInitSteps_refines lawful has away ran
  have writes := perm.filterMap (EthInitStep.write blockAndReceipts.block.hash)
  have removed : EthInitStep.removeReceipts ∈ steps := perm.mem_iff.2 (by simp [ethInitSteps])
  refine ⟨state', ran, ?_, by rw [block, foldl_blockAfter, if_pos removed], frame⟩
  rw [contentsAfter, applyWrites_perm ((writes.map Prod.fst).nodup_iff.2 (ethInitSteps_writes_distinct _ _ _ _)) writes]
  simp [ethInitSteps, EthInitStep.write, applyWrites, applyWrite, ChainPointers.ofContents]

theorem eth_initialization_seeds_chain_pointers_in_map_database :
    let keys : EthDbKeys := ⟨fun key => [UInt8.ofNat key.toCtorIdx], by decide⟩
    let blockAndReceipts : EthBlockAndReceipts := ⟨⟨⟨List.replicate 32 7, rfl⟩⟩, [[1, 2]]⟩
    let state : EthState (List (List UInt8 × List UInt8)) := ⟨[], some blockAndReceipts⟩
    let steps : List EthInitStep := [.putTailBlockHash, .setLatestBlockHash, .setAnchorBlockHash,
      .setCanonBlockHash, .putCanonToTipLength 10, .putChainId 1, .putGasPrice 20000000000, .putAccountNonce,
      .removeReceipts, .addBlockToDb]
    mapDatabase.Lawful ∧ mapDatabase.PutSucceeds ∧ state.ethBlockAndReceipts = some blockAndReceipts ∧
      (∀ key, keys.key key ≠ blockAndReceipts.block.hash.bytes) ∧ steps.Perm (ethInitSteps 10 1 20000000000) ∧
      ∃ state', runEthInitSteps mapDatabase keys (fun _ => [0]) steps state = .ok state' ∧
        ChainPointers.ofContents (contents mapDatabase keys state'.db) =
          { latest := some blockAndReceipts.block.hash, canon := some blockAndReceipts.block.hash,
            anchor := some blockAndReceipts.block.hash, tail := some blockAndReceipts.block.hash,
            canonToTipLength := some 10, chainId := some 1, gasPrice := some 20000000000, accountNonce := some 1 } ∧
        state'.ethBlockAndReceipts = some { blockAndReceipts with receipts := [] } ∧
        ∀ other, (∀ key, keys.key key ≠ other) → blockAndReceipts.block.hash.bytes ≠ other →
          mapDatabase.get state'.db other = mapDatabase.get state.db other :=
  ⟨mapDatabase_lawful, mapDatabase_putSucceeds, rfl, by decide, by decide,
    eth_initialization_seeds_chain_pointers mapDatabase_lawful mapDatabase_putSucceeds _ _ rfl (by decide) (by decide)⟩

/-- Unlike the pointers, the stored block record depends on the order of the steps. -/
theorem eth_initialization_stores_block_record {σ : Type} {db : DatabaseInterface σ} (lawful : db.Lawful)
    (total : db.PutSucceeds) (keys : EthDbKeys) (encode : EthBlockAndReceipts → List UInt8)
    {state : EthState σ} {blockAndReceipts : EthBlockAndReceipts}
    (has : state.ethBlockAndReceipts = some blockAndReceipts)
    (away : ∀ key, keys.key key ≠ blockAndReceipts.block.hash.bytes)
    {canonToTipLength : UInt64} {chainId : UInt8} {gasPrice : UInt64} {steps : List EthInitStep}
    (perm : steps.Perm (ethInitSteps canonToTipLength chainId gasPrice)) :
    ∃ state', runEthInitSteps db keys encode steps state = .ok state' ∧
      ∀ before after, steps = before ++ .addBlockToDb :: after →
        db.get state'.db blockAndReceipts.block.hash.bytes =
          some (encode (if .removeReceipts ∈ before then { blockAndReceipts with receipts := [] } else blockAndReceipts)) := by
  obtain ⟨state', ran⟩ := runEthInitSteps_ok total steps has
  refine ⟨state', ran, fun before after split => ?_⟩
  have distinct := perm.nodup_iff.2 (ethInitSteps_nodup canonToTipLength chainId gasPrice)
  rw [split] at distinct
  have last := (List.nodup_cons.1 (List.nodup_append.1 distinct).2.1).1
  rw [runEthInitSteps_record lawful has away ran, split, blockRecordAfter_append, blockRecordAfter, if_pos rfl,
    blockRecordAfter_of_not_mem encode last, foldl_blockAfter]

theorem eth_initialization_stores_block_record_in_map_database :
    let keys : EthDbKeys := ⟨fun key => [UInt8.ofNat key.toCtorIdx], by decide⟩
    let encode : EthBlockAndReceipts → List UInt8 := fun blockAndReceipts => blockAndReceipts.receipts.flatten
    let blockAndReceipts : EthBlockAndReceipts := ⟨⟨⟨List.replicate 32 7, rfl⟩⟩, [[1, 2]]⟩
    let state : EthState (List (List UInt8 × List UInt8)) := ⟨[], some blockAndReceipts⟩
    let steps : List EthInitStep := [.putTailBlockHash, .setLatestBlockHash, .setAnchorBlockHash,
      .setCanonBlockHash, .putCanonToTipLength 10, .putChainId 1, .putGasPrice 20000000000, .putAccountNonce,
      .removeReceipts, .addBlockToDb]
    mapDatabase.Lawful ∧ mapDatabase.PutSucceeds ∧ state.ethBlockAndReceipts = some blockAndReceipts ∧
      (∀ key, keys.key key ≠ blockAndReceipts.block.hash.bytes) ∧ steps.Perm (ethInitSteps 10 1 20000000000) ∧
      ∃ state', runEthInitSteps mapDatabase keys encode steps state = .ok state' ∧
        ∀ before after, steps = before ++ .addBlockToDb :: after →
          mapDatabase.get state'.db blockAndReceipts.block.hash.bytes =
            some (encode (if .removeReceipts ∈ before then { blockAndReceipts with receipts := [] }
              else blockAndReceipts)) :=
  ⟨mapDatabase_lawful, mapDatabase_putSucceeds, rfl, by decide, by decide,
    eth_initialization_stores_block_record mapDatabase_lawful mapDatabase_putSucceeds _ _ rfl (by decide)
      (by decide : List.Perm _ (ethInitSteps 10 1 20000000000))⟩

end PtokensCore.Eth
