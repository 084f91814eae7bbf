import PtokensCore.Btc.FilterP2shDepositTxs
import PtokensCore.Btc.BlockInDbFormat
import PtokensCore.Traits

/-! The BTC state, and the two steps of a block's submission that find its deposits:
`get_deposit_info_hash_map_and_put_in_state` of `get_deposit_info_hash_map.rs` and
`filter_p2sh_deposit_txs_and_add_to_state` of `filter_p2sh_deposit_txs.rs`.

`btc_state.rs` and `btc_database_utils.rs` are not among the sources. Modelled from the spec:
the state carries the store, the submitted block, and what earlier steps found; an `add_...`
refuses to replace what is already set; the network and the enclave's key are read from the
store, the network as its eight bytes.
-/

set_option autoImplicit false

namespace PtokensCore.Btc

open PtokensCore.Bitcoin

/-- `BtcState`: the store, the submitted block and what the steps have found so far. -/
structure BtcState (σ : Type) where
  db : σ
  btcBlockAndId : Option BtcBlockAndId
  depositInfoHashMap : Option DepositInfoHashMap
  p2shDepositTxs : Option BtcTransactions

namespace BtcState

variable {σ : Type}

/-- `get_btc_block_and_id`. Modelled from the spec; the text of the error is not known. -/
def getBtcBlockAndId (state : BtcState σ) : Result BtcBlockAndId :=
  match state.btcBlockAndId with
  | some btcBlockAndId => .ok btcBlockAndId
  | none => .error (.error (.custom "✘ No BTC block in state!"))

/-- `get_deposit_info_hash_map`. Modelled from the spec; the text of the error is not known. -/
def getDepositInfoHashMap (state : BtcState σ) : Result DepositInfoHashMap :=
  match state.depositInfoHashMap with
  | some hashMap => .ok hashMap
  | none => .error (.error (.custom "✘ No deposit info hash map in state!"))

/-- `add_deposit_info_hash_map`. Modelled from the spec: a map already there is not replaced;
the text of the error is not known. -/
def addDepositInfoHashMap (state : BtcState σ) (hashMap : DepositInfoHashMap) : Result (BtcState σ) :=
  match state.depositInfoHashMap with
  | some _ => .error (.error (.custom "✘ Cannot overwrite deposit info hash map in state!"))
  | none => .ok { state with depositInfoHashMap := some hashMap }

/-- `add_p2sh_deposit_txs`. Modelled from the spec, as `add_deposit_info_hash_map`. -/
def addP2shDepositTxs (state : BtcState σ) (transactions : BtcTransactions) : Result (BtcState σ) :=
  match state.p2shDepositTxs with
  | some _ => .error (.error (.custom "✘ Cannot overwrite p2sh deposit txs in state!"))
  | none => .ok { state with p2shDepositTxs := some transactions }

end BtcState

/-! ## The store and the steps -/

/-- The keys of `constants.rs` the BTC side reads here. -/
structure BtcDbKeys where
  btcNetworkKey : List UInt8
  btcPrivateKeyKey : List UInt8

section DatabaseUtils

variable {σ : Type} (db : DatabaseInterface σ) (keys : BtcDbKeys)

/-- A key the store must hold. The text of the error is not known. -/
def getFromDb (store : σ) (key : List UInt8) : Result (List UInt8) :=
  match db.get store key with
  | some bytes => .ok bytes
  | none => .error (.error (.custom "✘ Cannot find item in database!"))

/-- `get_btc_network_from_db`: the network's eight bytes, any number but 1 and 2 read as
`Bitcoin`. -/
def getBtcNetworkFromDb (store : σ) : Result Network := do
  convertBytesToBtcNetwork (← getFromDb db store keys.btcNetworkKey)

/-- `get_btc_private_key_from_db`, as the stored bytes of the key: the `Err` of
`BtcPrivateKey::from_slice` on bytes that are no secp256k1 secret key is not modelled. -/
def getBtcPrivateKeyFromDb (store : σ) : Result (List UInt8) :=
  getFromDb db store keys.btcPrivateKeyKey

end DatabaseUtils

section Steps

variable {σ : Type} (hashes : Hashes) (toPublicKeySlice : List UInt8 → List UInt8)
  (db : DatabaseInterface σ) (keys : BtcDbKeys)

def getDepositInfoHashMapAndPutInState (state : BtcState σ) : Result (BtcState σ) := do
  let hashMap ← createHashMapFromDepositInfoList (← state.getBtcBlockAndId).depositAddressList
  state.addDepositInfoHashMap hashMap

/-- `toPublicKeySlice` is `to_public_key_slice`, the enclave key's compressed public key, which
the secp256k1 library computes. -/
def filterP2shDepositTxsAndAddToState (state : BtcState σ) : Result (BtcState σ) := do
  let depositInfo ← state.getDepositInfoHashMap
  let enclavePublicKeySlice := toPublicKeySlice (← getBtcPrivateKeyFromDb db keys state.db)
  let transactions := (← state.getBtcBlockAndId).block.txdata
  let btcNetwork ← getBtcNetworkFromDb db keys state.db
  let txs ← filterP2shDepositTxs hashes depositInfo enclavePublicKeySlice transactions btcNetwork
  state.addP2shDepositTxs txs

end Steps

/-! ## What the steps do -/

section Spec

variable {σ : Type} {state : BtcState σ} {btcBlockAndId : BtcBlockAndId}

@[simp] theorem BtcState.getBtcBlockAndId_of_some (has : state.btcBlockAndId = some btcBlockAndId) :
    state.getBtcBlockAndId = .ok btcBlockAndId := by
  simp [BtcState.getBtcBlockAndId, has]

theorem getDepositInfoHashMapAndPutInState_of_fresh (has : state.btcBlockAndId = some btcBlockAndId)
    (fresh : state.depositInfoHashMap = none) :
    getDepositInfoHashMapAndPutInState state =
      .ok { state with depositInfoHashMap := some (insertAll btcBlockAndId.depositAddressList ∅) } := by
  simp [getDepositInfoHashMapAndPutInState, has, createHashMapFromDepositInfoList_bind,
    BtcState.addDepositInfoHashMap, fresh]

/-- From a fresh state with a block, a key below the push limit and a readable network, the two
steps succeed and keep exactly the block's locked deposits. -/
theorem deposit_steps_find_locked_deposits (hashes : Hashes) (toPublicKeySlice : List UInt8 → List UInt8)
    (db : DatabaseInterface σ) (keys : BtcDbKeys) (has : state.btcBlockAndId = some btcBlockAndId)
    (fresh : state.depositInfoHashMap = none) (freshTxs : state.p2shDepositTxs = none) {privateKey : List UInt8}
    (storedKey : db.get state.db keys.btcPrivateKeyKey = some privateKey)
    (fits : (toPublicKeySlice privateKey).length < 2 ^ 32) {btcNetwork : Network}
    (storedNetwork : getBtcNetworkFromDb db keys state.db = .ok btcNetwork) :
    ∃ state', (getDepositInfoHashMapAndPutInState state >>=
        filterP2shDepositTxsAndAddToState hashes toPublicKeySlice db keys) = .ok state' ∧
      state'.db = state.db ∧ state'.btcBlockAndId = some btcBlockAndId ∧
      (∃ hashMap, state'.depositInfoHashMap = some hashMap ∧
        ∀ address, hashMap.lookup address = lastDepositInfo btcBlockAndId.depositAddressList address) ∧
      state'.p2shDepositTxs = some (btcBlockAndId.block.txdata.filter (·.output.any
        (lockedDepositOutput hashes btcBlockAndId.depositAddressList (toPublicKeySlice privateKey) btcNetwork))) := by
  rw [getDepositInfoHashMapAndPutInState_of_fresh has fresh, Except.ok_bind]
  simp only [filterP2shDepositTxsAndAddToState, BtcState.getDepositInfoHashMap, getBtcPrivateKeyFromDb, getFromDb,
    storedKey, BtcState.getBtcBlockAndId, has, storedNetwork, Except.ok_bind,
    filterP2shDepositTxs_of_lt hashes _ btcNetwork fits, BtcState.addP2shDepositTxs, freshTxs]
  exact ⟨_, rfl, rfl, rfl, ⟨_, rfl, lookup_insertAll _⟩, rfl⟩

theorem deposit_steps_find_locked_deposits_on_testnet :
    let keys : BtcDbKeys := ⟨[0], [1]⟩
    let btcBlockAndId : BtcBlockAndId := ⟨7, ⟨List.replicate 32 1, rfl⟩,
      ⟨⟨1, ⟨List.replicate 32 0, rfl⟩, ⟨List.replicate 32 0, rfl⟩, 0, 0, 0⟩, [testnetDepositTx]⟩, [testnetDepositInfo]⟩
    let state : BtcState (List (List UInt8 × List UInt8)) :=
      ⟨[([0], convertU64ToBytes 1), ([1], List.replicate 32 1)], some btcBlockAndId, none, none⟩
    let toPublicKeySlice : List UInt8 → List UInt8 := fun _ => List.replicate 33 2
    state.btcBlockAndId = some btcBlockAndId ∧ state.depositInfoHashMap = none ∧ state.p2shDepositTxs = none ∧
      mapDatabase.get state.db keys.btcPrivateKeyKey = some (List.replicate 32 1) ∧
      (toPublicKeySlice (List.replicate 32 1)).length < 2 ^ 32 ∧
      getBtcNetworkFromDb mapDatabase keys state.db = .ok .testnet ∧
      ∃ state', (getDepositInfoHashMapAndPutInState state >>=
          filterP2shDepositTxsAndAddToState zeroHashes toPublicKeySlice mapDatabase keys) = .ok state' ∧
        state'.db = state.db ∧ state'.btcBlockAndId = some btcBlockAndId ∧
        (∃ hashMap, state'.depositInfoHashMap = some hashMap ∧
          ∀ address, hashMap.lookup address = lastDepositInfo btcBlockAndId.depositAddressList address) ∧
        state'.p2shDepositTxs = some (btcBlockAndId.block.txdata.filter (·.output.any
          (lockedDepositOutput zeroHashes btcBlockAndId.depositAddressList (toPublicKeySlice (List.replicate 32 1))
            .testnet))) := by
  intro keys btcBlockAndId state toPublicKeySlice
  have storedKey : mapDatabase.get state.db keys.btcPrivateKeyKey = some (List.replicate 32 1) := rfl
  exact ⟨rfl, rfl, rfl, storedKey, by decide, rfl,
    deposit_steps_find_locked_deposits zeroHashes toPublicKeySlice mapDatabase keys
      (show state.btcBlockAndId = some btcBlockAndId from rfl) rfl rfl storedKey (by decide) rfl⟩

end Spec

section Steps

variable {σ : Type}

theorem getBtcNetworkFromDb_ne_panic (db : DatabaseInterface σ) (keys : BtcDbKeys) (store : σ) (message : String) :
    getBtcNetworkFromDb db keys store ≠ .error (.panic message) := by
  unfold getBtcNetworkFromDb getFromDb convertBytesToBtcNetwork convertBytesToU64
  cases db.get store keys.btcNetworkKey with
  | none => simp [bind, Except.bind]
  | some bytes =>
    by_cases eight : bytes.length = 8
    · simp only [eight, if_true, Except.ok_bind]
      split <;> simp [pure, Except.pure]
    · simp [eight, bind, Except.bind]

theorem getBtcNetworkFromDb_error {db : DatabaseInterface σ} {keys : BtcDbKeys} {store : σ} {fault : Fault AppError}
    (failed : getBtcNetworkFromDb db keys store = .error fault) : ∃ e, fault = .error e := by
  cases fault with
  | error e => exact ⟨e, rfl⟩
  | panic message => exact absurd failed (getBtcNetworkFromDb_ne_panic db keys store message)

variable (hashes : Hashes) (toPublicKeySlice : List UInt8 → List UInt8) (db : DatabaseInterface σ) (keys : BtcDbKeys)

theorem depositSteps_of_ready {state : BtcState σ} {btcBlockAndId : BtcBlockAndId} {privateKey : List UInt8}
    {btcNetwork : Network} (has : state.btcBlockAndId = some btcBlockAndId) (fresh : state.depositInfoHashMap = none)
    (storedKey : db.get state.db keys.btcPrivateKeyKey = some privateKey)
    (storedNetwork : getBtcNetworkFromDb db keys state.db = .ok btcNetwork) :
    (getDepositInfoHashMapAndPutInState state >>= filterP2shDepositTxsAndAddToState hashes toPublicKeySlice db keys) =
      (filterP2shDepositTxs hashes (insertAll btcBlockAndId.depositAddressList ∅) (toPublicKeySlice privateKey)
        btcBlockAndId.block.txdata btcNetwork >>= fun txs =>
          { state with depositInfoHashMap := some (insertAll btcBlockAndId.depositAddressList ∅) }.addP2shDepositTxs txs) := by
  rw [getDepositInfoHashMapAndPutInState_of_fresh has fresh, Except.ok_bind]
  simp only [filterP2shDepositTxsAndAddToState, BtcState.getDepositInfoHashMap, getBtcPrivateKeyFromDb, getFromDb,
    storedKey, BtcState.getBtcBlockAndId, has, storedNetwork, Except.ok_bind]

theorem depositSteps_error_of_not_ready {state : BtcState σ}
    (notReady : ¬∃ btcBlockAndId privateKey btcNetwork, state.btcBlockAndId = some btcBlockAndId ∧
      state.depositInfoHashMap = none ∧ db.get state.db keys.btcPrivateKeyKey = some privateKey ∧
      getBtcNetworkFromDb db keys state.db = .ok btcNetwork) :
    ∃ e, (getDepositInfoHashMapAndPutInState state >>=
      filterP2shDepositTxsAndAddToState hashes toPublicKeySlice db keys) = .error (.error e) := by
  rcases state with ⟨store, _ | btcBlockAndId, _ | hashMap, p2shDepositTxs⟩
  · simp [getDepositInfoHashMapAndPutInState, BtcState.getBtcBlockAndId]
  · simp [getDepositInfoHashMapAndPutInState, BtcState.getBtcBlockAndId]
  · have step : getDepositInfoHashMapAndPutInState ⟨store, some btcBlockAndId, none, p2shDepositTxs⟩ =
        .ok ⟨store, some btcBlockAndId, some (insertAll btcBlockAndId.depositAddressList ∅), p2shDepositTxs⟩ :=
      getDepositInfoHashMapAndPutInState_of_fresh rfl rfl
    rw [step, Except.ok_bind]
    cases storedKey : db.get store keys.btcPrivateKeyKey with
    | none => simp [filterP2shDepositTxsAndAddToState, BtcState.getDepositInfoHashMap, getBtcPrivateKeyFromDb,
        getFromDb, storedKey]
    | some privateKey =>
      cases storedNetwork : getBtcNetworkFromDb db keys store with
      | error fault =>
        obtain ⟨e, rfl⟩ := getBtcNetworkFromDb_error storedNetwork
        exact ⟨e, by simp [filterP2shDepositTxsAndAddToState, BtcState.getDepositInfoHashMap, getBtcPrivateKeyFromDb,
          getFromDb, storedKey, storedNetwork, BtcState.getBtcBlockAndId]⟩
      | ok btcNetwork => exact absurd ⟨btcBlockAndId, privateKey, btcNetwork, rfl, rfl, storedKey, storedNetwork⟩ notReady
  · simp [getDepositInfoHashMapAndPutInState, BtcState.getBtcBlockAndId, createHashMapFromDepositInfoList_bind,
      BtcState.addDepositInfoHashMap]

/-- The two steps return exactly when the state is fresh, the store readable, and the key fits
or the block pays no registered address. -/
theorem deposit_steps_succeed_iff (state : BtcState σ) :
    (∃ state', (getDepositInfoHashMapAndPutInState state >>=
        filterP2shDepositTxsAndAddToState hashes toPublicKeySlice db keys) = .ok state') ↔
      ∃ btcBlockAndId privateKey btcNetwork, state.btcBlockAndId = some btcBlockAndId ∧
        state.depositInfoHashMap = none ∧ db.get state.db keys.btcPrivateKeyKey = some privateKey ∧
        getBtcNetworkFromDb db keys state.db = .ok btcNetwork ∧
        ((toPublicKeySlice privateKey).length < 2 ^ 32 ∨ ∀ tx ∈ btcBlockAndId.block.txdata, ∀ output ∈ tx.output,
          output.scriptPubkey.isP2sh → ∀ address, Address.fromScript output.scriptPubkey btcNetwork = some address →
            address ∉ depositAddresses btcBlockAndId.depositAddressList) ∧
        state.p2shDepositTxs = none := by
  by_cases ready : ∃ btcBlockAndId privateKey btcNetwork, state.btcBlockAndId = some btcBlockAndId ∧
      state.depositInfoHashMap = none ∧ db.get state.db keys.btcPrivateKeyKey = some privateKey ∧
      getBtcNetworkFromDb db keys state.db = .ok btcNetwork
  · obtain ⟨btcBlockAndId, privateKey, btcNetwork, has, fresh, storedKey, storedNetwork⟩ := ready
    rw [depositSteps_of_ready hashes toPublicKeySlice db keys has fresh storedKey storedNetwork]
    have returns := @filterP2shDepositTxs_ok_iff hashes btcBlockAndId.depositAddressList (toPublicKeySlice privateKey)
      btcNetwork btcBlockAndId.block.txdata
    constructor
    · rintro ⟨state', ran⟩
      obtain ⟨kept, filtered, added⟩ := Except.bind_eq_ok.1 ran
      refine ⟨btcBlockAndId, privateKey, btcNetwork, has, fresh, storedKey, storedNetwork, returns.1 ⟨kept, filtered⟩, ?_⟩
      revert added
      cases state.p2shDepositTxs <;> simp [BtcState.addP2shDepositTxs]
    · rintro ⟨_, _, _, has', -, storedKey', storedNetwork', fits, freshTxs⟩
      cases has.symm.trans has'
      cases storedKey.symm.trans storedKey'
      cases storedNetwork.symm.trans storedNetwork'
      obtain ⟨kept, filtered⟩ := returns.2 fits
      simp only [filtered, Except.ok_bind, BtcState.addP2shDepositTxs, freshTxs, Except.ok.injEq, exists_eq']
  · obtain ⟨e, failed⟩ := depositSteps_error_of_not_ready hashes toPublicKeySlice db keys ready
    rw [failed]
    refine iff_of_false (fun ⟨_, ran⟩ => by cases ran) ?_
    rintro ⟨btcBlockAndId, privateKey, btcNetwork, has, fresh, storedKey, storedNetwork, -⟩
    exact ready ⟨btcBlockAndId, privateKey, btcNetwork, has, fresh, storedKey, storedNetwork⟩

/-- The one panic of the two steps is `push_slice`'s, on a long key and a registered deposit. -/
theorem deposit_steps_panic_only_on_long_key (state : BtcState σ) :
    (∀ message, (getDepositInfoHashMapAndPutInState state >>=
        filterP2shDepositTxsAndAddToState hashes toPublicKeySlice db keys) = .error (.panic message) →
      message = "tried to put a 4bn+ sized object into a script!") ∧
    ((getDepositInfoHashMapAndPutInState state >>=
        filterP2shDepositTxsAndAddToState hashes toPublicKeySlice db keys) =
          .error (.panic "tried to put a 4bn+ sized object into a script!") ↔
      ∃ btcBlockAndId privateKey btcNetwork, state.btcBlockAndId = some btcBlockAndId ∧
        state.depositInfoHashMap = none ∧ db.get state.db keys.btcPrivateKeyKey = some privateKey ∧
        getBtcNetworkFromDb db keys state.db = .ok btcNetwork ∧ 2 ^ 32 ≤ (toPublicKeySlice privateKey).length ∧
        ∃ tx ∈ btcBlockAndId.block.txdata, ∃ output ∈ tx.output, output.scriptPubkey.isP2sh ∧
          ∃ address, Address.fromScript output.scriptPubkey btcNetwork = some address ∧
            address ∈ depositAddresses btcBlockAndId.depositAddressList) := by
  by_cases ready : ∃ btcBlockAndId privateKey btcNetwork, state.btcBlockAndId = some btcBlockAndId ∧
      state.depositInfoHashMap = none ∧ db.get state.db keys.btcPrivateKeyKey = some privateKey ∧
      getBtcNetworkFromDb db keys state.db = .ok btcNetwork
  · obtain ⟨btcBlockAndId, privateKey, btcNetwork, has, fresh, storedKey, storedNetwork⟩ := ready
    rw [depositSteps_of_ready hashes toPublicKeySlice db keys has fresh storedKey storedNetwork]
    have returns := @filterP2shDepositTxs_ok_iff hashes btcBlockAndId.depositAddressList (toPublicKeySlice privateKey)
      btcNetwork btcBlockAndId.block.txdata
    have found : ∀ btcBlockAndId' privateKey' btcNetwork', state.btcBlockAndId = some btcBlockAndId' →
        db.get state.db keys.btcPrivateKeyKey = some privateKey' → getBtcNetworkFromDb db keys state.db = .ok btcNetwork' →
        btcBlockAndId' = btcBlockAndId ∧ privateKey' = privateKey ∧ btcNetwork' = btcNetwork := by
      intro _ _ _ has' storedKey' storedNetwork'
      exact ⟨Option.some.inj (has'.symm.trans has), Option.some.inj (storedKey'.symm.trans storedKey),
        Except.ok.inj (storedNetwork'.symm.trans storedNetwork)⟩
    cases filtered : filterP2shDepositTxs hashes (insertAll btcBlockAndId.depositAddressList ∅)
        (toPublicKeySlice privateKey) btcBlockAndId.block.txdata btcNetwork with
    | error fault =>
      obtain rfl := filterP2shDepositTxs_error hashes _ btcNetwork filtered
      have refused := mt returns.2 (by simp [filtered])
      push_neg at refused
      refine ⟨fun message failed => (by cases failed; rfl), iff_of_true rfl ?_⟩
      exact ⟨btcBlockAndId, privateKey, btcNetwork, has, fresh, storedKey, storedNetwork, by simpa using refused⟩
    | ok kept =>
      have fits := returns.1 ⟨kept, filtered⟩
      have noPanic : ∀ message, (Except.ok kept >>= fun txs => { state with
          depositInfoHashMap := some (insertAll btcBlockAndId.depositAddressList ∅) }.addP2shDepositTxs txs) ≠
            .error (.panic message) := by
        intro message
        cases txs : state.p2shDepositTxs <;> simp [BtcState.addP2shDepositTxs, txs]
      refine ⟨fun message failed => absurd failed (noPanic message), iff_of_false (noPanic _) ?_⟩
      rintro ⟨_, _, _, has', -, storedKey', storedNetwork', large, registered⟩
      obtain ⟨rfl, rfl, rfl⟩ := found _ _ _ has' storedKey' storedNetwork'
      obtain ⟨tx, member, output, mem, p2sh, address, script, listed⟩ := registered
      exact fits.elim (fun small => by omega) fun none => none tx member output mem p2sh address script listed
  · obtain ⟨e, failed⟩ := depositSteps_error_of_not_ready hashes toPublicKeySlice db keys ready
    rw [failed]
    refine ⟨fun message failed => (by cases failed), iff_of_false (fun failed => by cases failed) ?_⟩
    rintro ⟨btcBlockAndId, privateKey, btcNetwork, has, fresh, storedKey, storedNetwork, -⟩
    exact ready ⟨btcBlockAndId, privateKey, btcNetwork, has, fresh, storedKey, storedNetwork⟩

/-- Whatever the key, what the two steps return holds exactly the block's locked deposits. -/
theorem deposit_steps_return_locked_deposits (state state' : BtcState σ)
    (returned : (getDepositInfoHashMapAndPutInState state >>=
      filterP2shDepositTxsAndAddToState hashes toPublicKeySlice db keys) = .ok state') :
    ∃ btcBlockAndId privateKey btcNetwork, state.btcBlockAndId = some btcBlockAndId ∧
      db.get state.db keys.btcPrivateKeyKey = some privateKey ∧ getBtcNetworkFromDb db keys state.db = .ok btcNetwork ∧
      state'.db = state.db ∧ state'.btcBlockAndId = state.btcBlockAndId ∧
      (∃ hashMap, state'.depositInfoHashMap = some hashMap ∧
        ∀ address, hashMap.lookup address = lastDepositInfo btcBlockAndId.depositAddressList address) ∧
      state'.p2shDepositTxs = some (btcBlockAndId.block.txdata.filter (·.output.any
        (lockedDepositOutput hashes btcBlockAndId.depositAddressList (toPublicKeySlice privateKey) btcNetwork))) := by
  by_cases ready : ∃ btcBlockAndId privateKey btcNetwork, state.btcBlockAndId = some btcBlockAndId ∧
      state.depositInfoHashMap = none ∧ db.get state.db keys.btcPrivateKeyKey = some privateKey ∧
      getBtcNetworkFromDb db keys state.db = .ok btcNetwork
  · obtain ⟨btcBlockAndId, privateKey, btcNetwork, has, fresh, storedKey, storedNetwork⟩ := ready
    rw [depositSteps_of_ready hashes toPublicKeySlice db keys has fresh storedKey storedNetwork] at returned
    obtain ⟨kept, filtered, added⟩ := Except.bind_eq_ok.1 returned
    unfold BtcState.addP2shDepositTxs at added
    split at added
    · cases added
    cases added
    exact ⟨btcBlockAndId, privateKey, btcNetwork, has, storedKey, storedNetwork, rfl, rfl,
      ⟨_, rfl, lookup_insertAll _⟩, by rw [filterP2shDepositTxs_of_ok hashes _ btcNetwork filtered]⟩
  · obtain ⟨e, failed⟩ := depositSteps_error_of_not_ready hashes toPublicKeySlice db keys ready
    rw [failed] at returned
    cases returned

theorem deposit_steps_return_locked_deposits_on_testnet :
    let keys : BtcDbKeys := ⟨[0], [1]⟩
    let btcBlockAndId : BtcBlockAndId := ⟨7, ⟨List.replicate 32 1, rfl⟩,
      ⟨⟨1, ⟨List.replicate 32 0, rfl⟩, ⟨List.replicate 32 0, rfl⟩, 0, 0, 0⟩, [testnetDepositTx]⟩, [testnetDepositInfo]⟩
    let state : BtcState (List (List UInt8 × List UInt8)) :=
      ⟨[([0], convertU64ToBytes 1), ([1], List.replicate 32 1)], some btcBlockAndId, none, none⟩
    let state' : BtcState (List (List UInt8 × List UInt8)) :=
      ⟨state.db, some btcBlockAndId, some (insertAll [testnetDepositInfo] ∅), some [testnetDepositTx]⟩
    let toPublicKeySlice : List UInt8 → List UInt8 := fun _ => List.replicate 33 2
    (getDepositInfoHashMapAndPutInState state >>=
        filterP2shDepositTxsAndAddToState zeroHashes toPublicKeySlice mapDatabase keys) = .ok state' ∧
      ∃ btcBlockAndId privateKey btcNetwork, state.btcBlockAndId = some btcBlockAndId ∧
        mapDatabase.get state.db keys.btcPrivateKeyKey = some privateKey ∧
        getBtcNetworkFromDb mapDatabase keys state.db = .ok btcNetwork ∧
        state'.db = state.db ∧ state'.btcBlockAndId = state.btcBlockAndId ∧
        (∃ hashMap, state'.depositInfoHashMap = some hashMap ∧
          ∀ address, hashMap.lookup address = lastDepositInfo btcBlockAndId.depositAddressList address) ∧
        state'.p2shDepositTxs = some (btcBlockAndId.block.txdata.filter (·.output.any
          (lockedDepositOutput zeroHashes btcBlockAndId.depositAddressList (toPublicKeySlice privateKey) btcNetwork))) := by
  intro keys btcBlockAndId state state' toPublicKeySlice
  have returned : (getDepositInfoHashMapAndPutInState state >>=
      filterP2shDepositTxsAndAddToState zeroHashes toPublicKeySlice mapDatabase keys) = .ok state' := rfl
  exact ⟨returned, deposit_steps_return_locked_deposits zeroHashes toPublicKeySlice mapDatabase keys state state' returned⟩

end Steps

end PtokensCore.Btc
