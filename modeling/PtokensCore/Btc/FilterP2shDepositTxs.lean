import PtokensCore.Btc.GetDepositInfoHashMap
import PtokensCore.Btc.BtcUtils

/-! The deposit filter of `filter_p2sh_deposit_txs.rs`.

A transaction is kept when one of its outputs passes three filters in turn: its script is
pay-to-script-hash, its address is a key of the registry, and that address is the
script-hash address of the redeem script built from the enclave's key and the registered
entry's hash. The redeem script is built only for outputs that reach the third filter,
and building it panics on a key of 2^32 bytes or more.
-/

set_option autoImplicit false

namespace PtokensCore.Btc

open PtokensCore.Bitcoin

section Filter

variable {ε : Type} (hashes : Hashes)

def isAddressLockedToPubKey (btcNetwork : Network) (enclavePublicKeySlice : List UInt8) (addressFromUtxo : Address)
    (depositInfo : DepositInfoHashMap) : Except (Fault ε) Bool :=
  match depositInfo.lookup addressFromUtxo with
  | none => pure false
  | some depositInfo => do
    let redeemScript ← getP2shRedeemScriptSig enclavePublicKeySlice depositInfo.ethAddressAndNonceHash
    pure (Address.p2sh hashes redeemScript btcNetwork == addressFromUtxo)

def isOutputAddressLockedToPubKey (txOutput : TxOut) (btcNetwork : Network) (enclavePublicKeySlice : List UInt8)
    (depositInfo : DepositInfoHashMap) : Except (Fault ε) Bool :=
  match Address.fromScript txOutput.scriptPubkey btcNetwork with
  | none => pure false
  | some addressFromUtxo => isAddressLockedToPubKey hashes btcNetwork enclavePublicKeySlice addressFromUtxo depositInfo

def isOutputAddressInHashMap (txOutput : TxOut) (depositInfo : DepositInfoHashMap) (btcNetwork : Network) : Bool :=
  match Address.fromScript txOutput.scriptPubkey btcNetwork with
  | none => false
  | some address => decide (address ∈ depositInfo)

def filterP2shDepositTxs (depositInfo : DepositInfoHashMap) (enclavePublicKeySlice : List UInt8)
    (transactions : BtcTransactions) (btcNetwork : Network) : Result BtcTransactions :=
  transactions |> filterOrPanic fun txdata => do
    let matched ← ((txdata.output.filter (·.scriptPubkey.isP2sh)).filter
        (isOutputAddressInHashMap · depositInfo btcNetwork)) |>
      filterOrPanic (isOutputAddressLockedToPubKey hashes · btcNetwork enclavePublicKeySlice depositInfo)
    pure (matched.length > 0)

/-- The test on one output that the filter is meant to make, read off the deposit list: a
pay-to-script-hash output whose address is locked to the key under the hash of the last
entry listed for that address. -/
def lockedDepositOutput (depositInfoList : DepositInfoList) (enclavePublicKeySlice : List UInt8)
    (btcNetwork : Network) (output : TxOut) : Bool :=
  output.scriptPubkey.isP2sh &&
    match Address.fromScript output.scriptPubkey btcNetwork with
    | none => false
    | some address =>
      match lastDepositInfo depositInfoList address with
      | none => false
      | some depositInfo =>
        match getP2shRedeemScriptSig (ε := Empty) enclavePublicKeySlice depositInfo.ethAddressAndNonceHash with
        | .ok redeemScript => Address.p2sh hashes redeemScript btcNetwork == address
        | .error _ => false

/-- An output locked to the key under the hash of an entry registered for its address. -/
def LockedToEntry (depositInfoList : DepositInfoList) (enclavePublicKeySlice : List UInt8) (btcNetwork : Network)
    (output : TxOut) : Prop :=
  output.scriptPubkey.isP2sh ∧ ∃ address, Address.fromScript output.scriptPubkey btcNetwork = some address ∧
    ∃ depositInfo ∈ depositInfoList, depositInfo.btcDepositAddress = address ∧
      ∃ redeemScript, getP2shRedeemScriptSig (ε := Empty) enclavePublicKeySlice depositInfo.ethAddressAndNonceHash =
        .ok redeemScript ∧ Address.p2sh hashes redeemScript btcNetwork = address

variable (depositInfoList : DepositInfoList) {enclavePublicKeySlice : List UInt8} (btcNetwork : Network)

theorem lockedDepositOutput_iff (output : TxOut) :
    lockedDepositOutput hashes depositInfoList enclavePublicKeySlice btcNetwork output ↔
      output.scriptPubkey.isP2sh ∧ ∃ address, Address.fromScript output.scriptPubkey btcNetwork = some address ∧
        ∃ depositInfo, lastDepositInfo depositInfoList address = some depositInfo ∧
          ∃ redeemScript, getP2shRedeemScriptSig (ε := Empty) enclavePublicKeySlice
            depositInfo.ethAddressAndNonceHash = .ok redeemScript ∧
            Address.p2sh hashes redeemScript btcNetwork = address := by
  unfold lockedDepositOutput
  rw [Bool.and_eq_true]
  apply and_congr_right
  intro _
  split
  · simp [*]
  · split
    · simp [*]
    · split <;> simp [*]

theorem lockedToEntry_of_lockedDepositOutput {output : TxOut}
    (locked : lockedDepositOutput hashes depositInfoList enclavePublicKeySlice btcNetwork output) :
    LockedToEntry hashes depositInfoList enclavePublicKeySlice btcNetwork output := by
  obtain ⟨p2sh, address, found, depositInfo, registered, redeemScript, built, same⟩ :=
    (lockedDepositOutput_iff hashes depositInfoList btcNetwork output).mp locked
  obtain ⟨member, listed⟩ := lastDepositInfo_mem registered
  exact ⟨p2sh, address, found, depositInfo, member, listed, redeemScript, built, same⟩

theorem lockedDepositOutput_iff_of_nodup (distinct : (depositInfoList.map (·.btcDepositAddress)).Nodup)
    (output : TxOut) :
    lockedDepositOutput hashes depositInfoList enclavePublicKeySlice btcNetwork output ↔
      LockedToEntry hashes depositInfoList enclavePublicKeySlice btcNetwork output := by
  rw [lockedDepositOutput_iff]
  simp only [LockedToEntry, lastDepositInfo_of_nodup distinct, and_assoc]

theorem isOutputAddressLockedToPubKey_of_lt (fits : enclavePublicKeySlice.length < 2 ^ 32) {output : TxOut}
    (p2sh : output.scriptPubkey.isP2sh) :
    isOutputAddressLockedToPubKey (ε := ε) hashes output btcNetwork enclavePublicKeySlice (insertAll depositInfoList ∅) =
      .ok (lockedDepositOutput hashes depositInfoList enclavePublicKeySlice btcNetwork output) := by
  unfold isOutputAddressLockedToPubKey lockedDepositOutput
  rw [p2sh, Bool.true_and]
  cases Address.fromScript output.scriptPubkey btcNetwork with
  | none => rfl
  | some address =>
    simp only [isAddressLockedToPubKey, lookup_insertAll]
    cases lastDepositInfo depositInfoList address with
    | none => rfl
    | some depositInfo => simp [getP2shRedeemScriptSig_of_lt _ _ fits, bind, Except.bind, pure, Except.pure]

theorem inHashMap_of_lockedDepositOutput {output : TxOut}
    (locked : lockedDepositOutput hashes depositInfoList enclavePublicKeySlice btcNetwork output) :
    output.scriptPubkey.isP2sh ∧ isOutputAddressInHashMap output (insertAll depositInfoList ∅) btcNetwork := by
  unfold lockedDepositOutput at locked
  obtain ⟨p2sh, matched⟩ := Bool.and_eq_true _ _ ▸ locked
  refine ⟨p2sh, ?_⟩
  unfold isOutputAddressInHashMap
  split at matched
  · cases matched
  · rename_i address found
    rw [decide_eq_true_iff, ← AList.lookup_isSome, lookup_insertAll]
    split at matched
    · cases matched
    · rename_i registered
      simp [registered]

theorem filterP2shDepositTxs_of_lt (fits : enclavePublicKeySlice.length < 2 ^ 32) (transactions : BtcTransactions) :
    filterP2shDepositTxs hashes (insertAll depositInfoList ∅) enclavePublicKeySlice transactions btcNetwork =
      .ok (transactions.filter (·.output.any (lockedDepositOutput hashes depositInfoList enclavePublicKeySlice btcNetwork))) := by
  apply filterOrPanic_of_ok
  intro txdata _
  have screened : (((txdata.output.filter (·.scriptPubkey.isP2sh)).filter
      (isOutputAddressInHashMap · (insertAll depositInfoList ∅) btcNetwork)).filter
        (lockedDepositOutput hashes depositInfoList enclavePublicKeySlice btcNetwork)) =
      txdata.output.filter (lockedDepositOutput hashes depositInfoList enclavePublicKeySlice btcNetwork) := by
    simp only [List.filter_filter]
    apply List.filter_congr
    intro output _
    by_cases locked : lockedDepositOutput hashes depositInfoList enclavePublicKeySlice btcNetwork output
    · simp [locked, inHashMap_of_lockedDepositOutput hashes depositInfoList btcNetwork locked]
    · simp [locked]
  rw [filterOrPanic_of_ok _ (lockedDepositOutput hashes depositInfoList enclavePublicKeySlice btcNetwork) _
    (fun output member => isOutputAddressLockedToPubKey_of_lt hashes depositInfoList btcNetwork fits
      (List.mem_filter.mp (List.mem_filter.mp member).1).2), screened]
  simp only [bind, Except.bind, pure, Except.pure, Except.ok.injEq]
  rw [Bool.eq_iff_iff]
  simp [List.length_pos, List.filter_eq_nil_iff, List.any_eq_true]

theorem isOutputAddressLockedToPubKey_ok_iff_of_le (large : 2 ^ 32 ≤ enclavePublicKeySlice.length) (output : TxOut) :
    (∃ locked, isOutputAddressLockedToPubKey (ε := ε) hashes output btcNetwork enclavePublicKeySlice
        (insertAll depositInfoList ∅) = .ok locked) ↔
      isOutputAddressInHashMap output (insertAll depositInfoList ∅) btcNetwork = false := by
  unfold isOutputAddressLockedToPubKey isOutputAddressInHashMap isAddressLockedToPubKey
  cases Address.fromScript output.scriptPubkey btcNetwork with
  | none => simp [pure, Except.pure]
  | some address =>
    cases found : (insertAll depositInfoList ∅).lookup address with
    | none => simp [pure, Except.pure, ← AList.lookup_isSome, found]
    | some depositInfo =>
      simp [getP2shRedeemScriptSig_of_le _ _ large, ← AList.lookup_isSome, found, bind, Except.bind]

/-- The filter returns exactly when the key can be pushed or no transaction pays a registered
address by pay-to-script-hash. -/
theorem filterP2shDepositTxs_ok_iff (transactions : BtcTransactions) :
    (∃ kept, filterP2shDepositTxs hashes (insertAll depositInfoList ∅) enclavePublicKeySlice transactions btcNetwork =
        .ok kept) ↔
      enclavePublicKeySlice.length < 2 ^ 32 ∨ ∀ tx ∈ transactions, ∀ output ∈ tx.output, output.scriptPubkey.isP2sh →
        ∀ address, Address.fromScript output.scriptPubkey btcNetwork = some address →
          address ∉ depositAddresses depositInfoList := by
  by_cases fits : enclavePublicKeySlice.length < 2 ^ 32
  · simp only [fits, true_or, iff_true]
    exact ⟨_, filterP2shDepositTxs_of_lt hashes depositInfoList btcNetwork fits transactions⟩
  simp only [fits, false_or]
  unfold filterP2shDepositTxs
  rw [filterOrPanic_ok_iff]
  refine forall₂_congr fun tx _ => ?_
  have tested : ∀ matched : Except (Fault AppError) (List TxOut),
      (∃ kept, (matched >>= fun matched => pure (decide (matched.length > 0)) : Except (Fault AppError) Bool) = .ok kept) ↔
        ∃ matched', matched = .ok matched' := by
    intro matched
    cases matched <;> simp [pure, Except.pure]
  rw [tested, filterOrPanic_ok_iff]
  simp only [List.mem_filter, and_imp]
  refine forall_congr' fun output => ?_
  rw [isOutputAddressLockedToPubKey_ok_iff_of_le hashes depositInfoList btcNetwork (by omega)]
  unfold isOutputAddressInHashMap
  cases Address.fromScript output.scriptPubkey btcNetwork <;> simp [mem_insertAll]

theorem filterP2shDepositTxs_error {transactions : BtcTransactions} {fault : Fault AppError}
    (failed : filterP2shDepositTxs hashes (insertAll depositInfoList ∅) enclavePublicKeySlice transactions btcNetwork =
      .error fault) : fault = .panic "tried to put a 4bn+ sized object into a script!" := by
  obtain ⟨tx, -, failed⟩ := filterOrPanic_error failed
  obtain ⟨matched, testFailed⟩ : ∃ matched, filterOrPanic (isOutputAddressLockedToPubKey hashes · btcNetwork
      enclavePublicKeySlice (insertAll depositInfoList ∅)) matched = .error fault := by
    cases tested : filterOrPanic (isOutputAddressLockedToPubKey hashes · btcNetwork enclavePublicKeySlice
      (insertAll depositInfoList ∅)) ((tx.output.filter (·.scriptPubkey.isP2sh)).filter
        (isOutputAddressInHashMap · (insertAll depositInfoList ∅) btcNetwork)) with
    | error e =>
      rw [tested, Except.error_bind] at failed
      cases failed
      exact ⟨_, tested⟩
    | ok kept =>
      rw [tested, Except.ok_bind] at failed
      cases failed
  obtain ⟨output, -, outputFailed⟩ := filterOrPanic_error testFailed
  unfold isOutputAddressLockedToPubKey isAddressLockedToPubKey at outputFailed
  split at outputFailed
  · cases outputFailed
  split at outputFailed
  · cases outputFailed
  by_cases fits : enclavePublicKeySlice.length < 2 ^ 32
  · simp [getP2shRedeemScriptSig_of_lt _ _ fits, bind, Except.bind, pure, Except.pure] at outputFailed
  · simp [getP2shRedeemScriptSig_of_le enclavePublicKeySlice _ (Nat.le_of_not_lt fits), bind, Except.bind] at outputFailed
    exact outputFailed.symm

theorem filterP2shDepositTxs_of_ok {transactions kept : BtcTransactions}
    (returned : filterP2shDepositTxs hashes (insertAll depositInfoList ∅) enclavePublicKeySlice transactions
      btcNetwork = .ok kept) :
    kept = transactions.filter (·.output.any (lockedDepositOutput hashes depositInfoList enclavePublicKeySlice btcNetwork)) := by
  by_cases fits : enclavePublicKeySlice.length < 2 ^ 32
  · rw [filterP2shDepositTxs_of_lt hashes depositInfoList btcNetwork fits] at returned
    exact (Except.ok.inj returned).symm
  -- a key too long to push: no output is locked to it, and the filter only returns when no
  -- registered address is paid by pay-to-script-hash, so it keeps nothing
  have unregistered := ((filterP2shDepositTxs_ok_iff hashes depositInfoList btcNetwork transactions).1
    ⟨kept, returned⟩).resolve_left fits
  have unlocked : ∀ output, lockedDepositOutput hashes depositInfoList enclavePublicKeySlice btcNetwork output = false := by
    intro output
    rw [Bool.eq_false_iff]
    intro locked
    obtain ⟨_, _, _, _, _, _, built, _⟩ := (lockedDepositOutput_iff hashes depositInfoList btcNetwork output).1 locked
    rw [getP2shRedeemScriptSig_of_le _ _ (Nat.le_of_not_lt fits)] at built
    cases built
  have nothingKept : filterP2shDepositTxs hashes (insertAll depositInfoList ∅) enclavePublicKeySlice transactions
      btcNetwork = .ok (transactions.filter fun _ => false) := by
    apply filterOrPanic_of_ok
    intro tx member
    have screened : (tx.output.filter (·.scriptPubkey.isP2sh)).filter
        (isOutputAddressInHashMap · (insertAll depositInfoList ∅) btcNetwork) = [] := by
      simp only [List.filter_filter, List.filter_eq_nil_iff, Bool.and_eq_true, not_and]
      intro output mem inMap p2sh
      unfold isOutputAddressInHashMap at inMap
      split at inMap
      · cases inMap
      · exact unregistered tx member output mem p2sh _ ‹_› ((mem_insertAll depositInfoList _).1 (by simpa using inMap))
    rw [screened]
    rfl
  rw [nothingKept] at returned
  cases returned
  simp [unlocked]

end Filter

theorem filterP2shDepositTxs_panics_of_le (hashes : Hashes) (depositInfoList : DepositInfoList)
    {enclavePublicKeySlice : List UInt8} (large : 2 ^ 32 ≤ enclavePublicKeySlice.length) (btcNetwork : Network)
    (version lockTime : UInt32) (input : List TxIn) {output : TxOut} {address : Address}
    (p2sh : output.scriptPubkey.isP2sh) (found : Address.fromScript output.scriptPubkey btcNetwork = some address)
    (registered : address ∈ depositAddresses depositInfoList) :
    filterP2shDepositTxs hashes (insertAll depositInfoList ∅) enclavePublicKeySlice
      [⟨version, lockTime, input, [output]⟩] btcNetwork = .error (.panic "tried to put a 4bn+ sized object into a script!") := by
  have present := (mem_insertAll depositInfoList address).mpr registered
  obtain ⟨depositInfo, listed⟩ := Option.isSome_iff_exists.mp (AList.lookup_isSome.mpr present)
  have inMap : isOutputAddressInHashMap output (insertAll depositInfoList ∅) btcNetwork := by
    simpa [isOutputAddressInHashMap, found] using present
  simp [filterP2shDepositTxs, filterOrPanic, p2sh, inMap, isOutputAddressLockedToPubKey, found,
    isAddressLockedToPubKey, listed, getP2shRedeemScriptSig_of_le _ _ large, bind, Except.bind]

/-- The all-zero hash functions, to evaluate the filter at fixed inputs. -/
def zeroHashes : Hashes := ⟨fun _ => ⟨List.replicate 32 0, rfl⟩, fun _ => ⟨List.replicate 20 0, rfl⟩⟩

/-- A testnet entry at the script-hash address that `zeroHashes` gives every redeem script. -/
def testnetDepositInfo : DepositAddressInfo :=
  ⟨0, ⟨List.replicate 20 1, rfl⟩, ⟨.scriptHash ⟨List.replicate 20 0, rfl⟩, .testnet⟩, ⟨List.replicate 32 3, rfl⟩⟩

/-- A transaction paying 5000 satoshis to the address of `testnetDepositInfo`. -/
def testnetDepositTx : Transaction :=
  ⟨1, 0, [⟨⟨⟨List.replicate 32 7, rfl⟩, 0⟩, ⟨[]⟩, 0xffffffff, []⟩],
    [⟨5000, ⟨[opHash160, opPushbytes20] ++ List.replicate 20 0 ++ [opEqual]⟩⟩]⟩

/-- Below the 2^32-byte limit of a push, the registry and the filter keep, in order, exactly the
transactions with an output locked under the last entry registered for its address. -/
theorem filter_p2sh_deposit_txs_keeps_locked_deposits (hashes : Hashes) (depositInfoList : DepositInfoList)
    (enclavePublicKeySlice : List UInt8) (transactions : BtcTransactions) (btcNetwork : Network)
    (fits : enclavePublicKeySlice.length < 2 ^ 32) :
    ∃ kept, (createHashMapFromDepositInfoList depositInfoList >>= fun hashMap =>
        filterP2shDepositTxs hashes hashMap enclavePublicKeySlice transactions btcNetwork) = .ok kept ∧
      kept = transactions.filter (·.output.any (lockedDepositOutput hashes depositInfoList enclavePublicKeySlice btcNetwork)) ∧
      (∀ tx ∈ kept, ∃ output ∈ tx.output, LockedToEntry hashes depositInfoList enclavePublicKeySlice btcNetwork output) ∧
      ((depositInfoList.map (·.btcDepositAddress)).Nodup → ∀ tx ∈ transactions,
        tx ∈ kept ↔ ∃ output ∈ tx.output, LockedToEntry hashes depositInfoList enclavePublicKeySlice btcNetwork output) := by
  refine ⟨_, filterP2shDepositTxs_of_lt hashes depositInfoList btcNetwork fits transactions, rfl, ?_, ?_⟩
  · intro tx member
    obtain ⟨output, listed, locked⟩ := List.any_eq_true.mp (List.mem_filter.mp member).2
    exact ⟨output, listed, lockedToEntry_of_lockedDepositOutput hashes depositInfoList btcNetwork locked⟩
  · intro distinct tx member
    simp only [List.mem_filter, member, true_and, List.any_eq_true,
      lockedDepositOutput_iff_of_nodup hashes depositInfoList btcNetwork distinct]

theorem filter_p2sh_deposit_txs_keeps_locked_deposits_for_33_byte_key :
    (List.replicate 33 (2 : UInt8)).length < 2 ^ 32 ∧
      (∃ kept, (createHashMapFromDepositInfoList [testnetDepositInfo] >>= fun hashMap =>
          filterP2shDepositTxs zeroHashes hashMap (List.replicate 33 2) [testnetDepositTx] .testnet) = .ok kept ∧
        kept = [testnetDepositTx].filter
          (·.output.any (lockedDepositOutput zeroHashes [testnetDepositInfo] (List.replicate 33 2) .testnet)) ∧
        (∀ tx ∈ kept, ∃ output ∈ tx.output,
          LockedToEntry zeroHashes [testnetDepositInfo] (List.replicate 33 2) .testnet output) ∧
        (([testnetDepositInfo].map (·.btcDepositAddress)).Nodup → ∀ tx ∈ [testnetDepositTx],
          tx ∈ kept ↔ ∃ output ∈ tx.output,
            LockedToEntry zeroHashes [testnetDepositInfo] (List.replicate 33 2) .testnet output)) ∧
      (createHashMapFromDepositInfoList [testnetDepositInfo] >>= fun hashMap =>
          filterP2shDepositTxs zeroHashes hashMap (List.replicate 33 2) [testnetDepositTx] .testnet) =
        .ok [testnetDepositTx] :=
  ⟨by decide, filter_p2sh_deposit_txs_keeps_locked_deposits zeroHashes _ _ _ .testnet (by decide), by decide⟩

theorem filter_p2sh_deposit_txs_panics_on_4gib_key :
    let hash : FixedBytes 20 := ⟨List.replicate 20 0, rfl⟩
    let depositInfo : DepositAddressInfo := ⟨0, hash, ⟨.scriptHash hash, .testnet⟩, ⟨List.replicate 32 0, rfl⟩⟩
    let output : TxOut := ⟨0, ⟨[opHash160, opPushbytes20] ++ List.replicate 20 0 ++ [opEqual]⟩⟩
    (createHashMapFromDepositInfoList [depositInfo] >>= fun hashMap =>
        filterP2shDepositTxs zeroHashes hashMap (List.replicate (2 ^ 32) 0) [⟨1, 0, [], [output]⟩] .testnet) =
      .error (.panic "tried to put a 4bn+ sized object into a script!") := by
  intro hash depositInfo output
  rw [createHashMapFromDepositInfoList_bind]
  exact filterP2shDepositTxs_panics_of_le zeroHashes _ (by rw [List.length_replicate]) .testnet 1 0 [] (by decide)
    (show Address.fromScript output.scriptPubkey .testnet = some ⟨.scriptHash hash, .testnet⟩ by decide)
    (by simp [depositAddresses, depositInfo])

/-! ## The order of the deposit list -/

theorem filterP2shDepositTxs_congr (hashes : Hashes) {depositInfo depositInfo' : DepositInfoHashMap}
    (same : ∀ address, depositInfo.lookup address = depositInfo'.lookup address) (enclavePublicKeySlice : List UInt8)
    (transactions : BtcTransactions) (btcNetwork : Network) :
    filterP2shDepositTxs hashes depositInfo enclavePublicKeySlice transactions btcNetwork =
      filterP2shDepositTxs hashes depositInfo' enclavePublicKeySlice transactions btcNetwork := by
  have inMap (output : TxOut) : isOutputAddressInHashMap output depositInfo btcNetwork =
      isOutputAddressInHashMap output depositInfo' btcNetwork := by
    unfold isOutputAddressInHashMap
    split <;> simp [← AList.lookup_isSome, same]
  have locked (output : TxOut) : isOutputAddressLockedToPubKey (ε := AppError) hashes output btcNetwork
      enclavePublicKeySlice depositInfo =
        isOutputAddressLockedToPubKey hashes output btcNetwork enclavePublicKeySlice depositInfo' := by
    unfold isOutputAddressLockedToPubKey isAddressLockedToPubKey
    split <;> simp [same]
  simp only [filterP2shDepositTxs, inMap, locked]

/-- With no address listed twice, the order of the deposit list plays no part. -/
theorem deposit_registry_order_irrelevant (hashes : Hashes) {depositInfoList depositInfoList' : DepositInfoList}
    (perm : depositInfoList.Perm depositInfoList') (distinct : (depositInfoList.map (·.btcDepositAddress)).Nodup)
    (enclavePublicKeySlice : List UInt8) (transactions : BtcTransactions) (btcNetwork : Network) :
    (∃ hashMap hashMap', createHashMapFromDepositInfoList depositInfoList = .ok hashMap ∧
      createHashMapFromDepositInfoList depositInfoList' = .ok hashMap' ∧
      ∀ address, hashMap.lookup address = hashMap'.lookup address) ∧
    (createHashMapFromDepositInfoList depositInfoList >>= fun hashMap =>
        filterP2shDepositTxs hashes hashMap enclavePublicKeySlice transactions btcNetwork) =
      (createHashMapFromDepositInfoList depositInfoList' >>= fun hashMap =>
        filterP2shDepositTxs hashes hashMap enclavePublicKeySlice transactions btcNetwork) := by
  have same (address : Address) :
      (insertAll depositInfoList ∅).lookup address = (insertAll depositInfoList' ∅).lookup address := by
    rw [lookup_insertAll, lookup_insertAll, lastDepositInfo_perm perm distinct]
  exact ⟨⟨_, _, rfl, rfl, same⟩, filterP2shDepositTxs_congr hashes same enclavePublicKeySlice transactions btcNetwork⟩

theorem deposit_registry_order_irrelevant_for_two_entries :
    let second : DepositAddressInfo :=
      ⟨1, ⟨List.replicate 20 1, rfl⟩, ⟨.scriptHash ⟨List.replicate 20 4, rfl⟩, .testnet⟩, ⟨List.replicate 32 5, rfl⟩⟩
    [testnetDepositInfo, second].Perm [second, testnetDepositInfo] ∧
      ([testnetDepositInfo, second].map (·.btcDepositAddress)).Nodup ∧
      (∃ hashMap hashMap', createHashMapFromDepositInfoList [testnetDepositInfo, second] = .ok hashMap ∧
        createHashMapFromDepositInfoList [second, testnetDepositInfo] = .ok hashMap' ∧
        ∀ address, hashMap.lookup address = hashMap'.lookup address) ∧
      (createHashMapFromDepositInfoList [testnetDepositInfo, second] >>= fun hashMap =>
          filterP2shDepositTxs zeroHashes hashMap (List.replicate 33 2) [testnetDepositTx] .testnet) =
        (createHashMapFromDepositInfoList [second, testnetDepositInfo] >>= fun hashMap =>
          filterP2shDepositTxs zeroHashes hashMap (List.replicate 33 2) [testnetDepositTx] .testnet) := by
  intro second
  have perm : [testnetDepositInfo, second].Perm [second, testnetDepositInfo] := List.Perm.swap _ _ _
  have distinct : ([testnetDepositInfo, second].map (·.btcDepositAddress)).Nodup := by decide
  exact ⟨perm, distinct,
    deposit_registry_order_irrelevant zeroHashes perm distinct (List.replicate 33 2) [testnetDepositTx] .testnet⟩

/-! ## What the filter keeps, the enclave can spend -/

/-- Every kept deposit pays the hash of the redeem script of the enclave's key and the entry's
hash, and the unlocking script built from that redeem script pushes exactly it. -/
theorem kept_deposits_spend_with_redeem_script (hashes : Hashes) (depositInfoList : DepositInfoList)
    (enclavePublicKeySlice : List UInt8) (transactions : BtcTransactions) (btcNetwork : Network)
    (fits : enclavePublicKeySlice.length + 40 < 2 ^ 32) :
    ∃ kept, (createHashMapFromDepositInfoList depositInfoList >>= fun hashMap =>
        filterP2shDepositTxs hashes hashMap enclavePublicKeySlice transactions btcNetwork) = .ok kept ∧
      ∀ tx ∈ kept, ∃ output ∈ tx.output, ∃ depositInfo ∈ depositInfoList,
        Address.fromScript output.scriptPubkey btcNetwork = some depositInfo.btcDepositAddress ∧
        ∃ redeemScript : Script,
          getP2shRedeemScriptSig (ε := AppError) enclavePublicKeySlice depositInfo.ethAddressAndNonceHash =
            .ok redeemScript ∧
          redeemScript.instructions = .ok [.pushBytes depositInfo.ethAddressAndNonceHash.bytes, .op opDrop,
            .pushBytes enclavePublicKeySlice, .op opChecksig] ∧
          output.scriptPubkey.bytes =
            opHash160 :: opPushbytes20 :: (hashes.hash160 redeemScript.bytes).bytes ++ [opEqual] ∧
          ∀ signatureSlice : List UInt8, signatureSlice.length < 2 ^ 32 →
            ∃ scriptSig, getP2shScriptSigFromRedeemScript (ε := AppError) signatureSlice redeemScript = .ok scriptSig ∧
              scriptSig.instructions = .ok [.pushBytes signatureSlice, .pushBytes redeemScript.bytes] := by
  have keyFits : enclavePublicKeySlice.length < 2 ^ 32 := by omega
  refine ⟨_, filterP2shDepositTxs_of_lt hashes depositInfoList btcNetwork keyFits transactions, fun tx member => ?_⟩
  obtain ⟨output, listed, locked⟩ := List.any_eq_true.mp (List.mem_filter.mp member).2
  obtain ⟨p2sh, _, found, depositInfo, registered, _, built, same⟩ :=
    (lockedDepositOutput_iff hashes depositInfoList btcNetwork output).mp locked
  obtain ⟨entry, rfl⟩ := lastDepositInfo_mem registered
  obtain ⟨-, rfl⟩ := getP2shRedeemScriptSig_ok built
  have redeem := getP2shRedeemScriptSig_of_lt (ε := AppError) enclavePublicKeySlice
    depositInfo.ethAddressAndNonceHash keyFits
  have redeemFits := length_getP2shRedeemScriptSig_le redeem
  refine ⟨output, listed, depositInfo, entry, found, _, redeem, instructions_encodeAll _ (redeem_encodable _ _ keyFits),
    Script.bytes_of_fromScript_p2sh p2sh (same ▸ found), fun signatureSlice signatureFits =>
      ⟨_, signatureAndPushScript_of_lt _ _ signatureFits (by omega),
        instructions_encodeAll _ (two_pushes_encodable signatureFits (by omega))⟩⟩

theorem kept_deposits_spend_with_redeem_script_for_33_byte_key :
    (List.replicate 33 (2 : UInt8)).length + 40 < 2 ^ 32 ∧
      (∃ kept, (createHashMapFromDepositInfoList [testnetDepositInfo] >>= fun hashMap =>
          filterP2shDepositTxs zeroHashes hashMap (List.replicate 33 2) [testnetDepositTx] .testnet) = .ok kept ∧
        ∀ tx ∈ kept, ∃ output ∈ tx.output, ∃ depositInfo ∈ [testnetDepositInfo],
          Address.fromScript output.scriptPubkey .testnet = some depositInfo.btcDepositAddress ∧
          ∃ redeemScript : Script,
            getP2shRedeemScriptSig (ε := AppError) (List.replicate 33 2) depositInfo.ethAddressAndNonceHash =
              .ok redeemScript ∧
            redeemScript.instructions = .ok [.pushBytes depositInfo.ethAddressAndNonceHash.bytes, .op opDrop,
              .pushBytes (List.replicate 33 2), .op opChecksig] ∧
            output.scriptPubkey.bytes =
              opHash160 :: opPushbytes20 :: (zeroHashes.hash160 redeemScript.bytes).bytes ++ [opEqual] ∧
            ∀ signatureSlice : List UInt8, signatureSlice.length < 2 ^ 32 →
              ∃ scriptSig, getP2shScriptSigFromRedeemScript (ε := AppError) signatureSlice redeemScript = .ok scriptSig ∧
                scriptSig.instructions = .ok [.pushBytes signatureSlice, .pushBytes redeemScript.bytes]) ∧
      (createHashMapFromDepositInfoList [testnetDepositInfo] >>= fun hashMap =>
          filterP2shDepositTxs zeroHashes hashMap (List.replicate 33 2) [testnetDepositTx] .testnet) =
        .ok [testnetDepositTx] :=
  ⟨by decide, kept_deposits_spend_with_redeem_script zeroHashes _ _ _ .testnet (by decide), by decide⟩

end PtokensCore.Btc
