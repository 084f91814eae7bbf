import PtokensCore.Btc.Types
import Mathlib.Data.Finset.Card

/-! The per-block deposit registry of `get_deposit_info_hash_map.rs`.

`create_hash_map_from_deposit_info_list` inserts the entries of the list in order into an
empty `HashMap`, so a later entry for an address overwrites an earlier one. The registry
is described by the list alone: its keys are the listed addresses, each mapped to the
last entry for it, and it has one entry per distinct address.
-/

set_option autoImplicit false

namespace PtokensCore.Btc

open PtokensCore.Bitcoin

def createHashMapFromDepositInfoList (depositInfoList : DepositInfoList) : Result DepositInfoHashMap :=
  .ok (depositInfoList.foldl (fun hashMap depositInfo => hashMap.insert depositInfo.btcDepositAddress depositInfo) ∅)

/-- The entry a registry built from `depositInfoList` holds for `address`: the last one listed. -/
def lastDepositInfo (depositInfoList : DepositInfoList) (address : Address) : Option DepositAddressInfo :=
  (depositInfoList.filter (·.btcDepositAddress = address)).getLast?

/-- The distinct deposit addresses of a list. -/
def depositAddresses (depositInfoList : DepositInfoList) : Finset Address :=
  (depositInfoList.map (·.btcDepositAddress)).toFinset

theorem lastDepositInfo_mem {depositInfoList : DepositInfoList} {address : Address} {depositInfo : DepositAddressInfo}
    (found : lastDepositInfo depositInfoList address = some depositInfo) :
    depositInfo ∈ depositInfoList ∧ depositInfo.btcDepositAddress = address := by
  simpa using List.mem_filter.mp (List.mem_of_getLast?_eq_some found)

/-- With no address listed twice, the last entry for an address is its only entry. -/
theorem lastDepositInfo_of_nodup {depositInfoList : DepositInfoList}
    (distinct : (depositInfoList.map (·.btcDepositAddress)).Nodup) (address : Address)
    (depositInfo : DepositAddressInfo) :
    lastDepositInfo depositInfoList address = some depositInfo ↔
      depositInfo ∈ depositInfoList ∧ depositInfo.btcDepositAddress = address := by
  induction depositInfoList with
  | nil => simp [lastDepositInfo]
  | cons first rest ih =>
    simp only [List.map_cons, List.nodup_cons, List.mem_map] at distinct
    by_cases same : first.btcDepositAddress = address
    · have none : rest.filter (·.btcDepositAddress = address) = [] :=
        List.filter_eq_nil_iff.mpr fun other member listed =>
          distinct.1 ⟨other, member, by simpa [same] using listed⟩
      constructor
      · intro found
        simp [lastDepositInfo, same, none] at found
        exact ⟨found ▸ List.mem_cons_self _ _, found ▸ same⟩
      · rintro ⟨member, listed⟩
        rcases List.mem_cons.mp member with rfl | member
        · simp [lastDepositInfo, same, none]
        · exact absurd ⟨depositInfo, member, listed.trans same.symm⟩ distinct.1
    · have skip : lastDepositInfo (first :: rest) address = lastDepositInfo rest address := by
        simp [lastDepositInfo, same]
      rw [skip, ih distinct.2, List.mem_cons]
      constructor
      · exact fun ⟨member, listed⟩ => ⟨.inr member, listed⟩
      · rintro ⟨rfl | member, listed⟩
        · exact absurd listed same
        · exact ⟨member, listed⟩

/-- With no address listed twice, the order of the list plays no part. -/
theorem lastDepositInfo_perm {depositInfoList depositInfoList' : DepositInfoList}
    (perm : depositInfoList.Perm depositInfoList') (distinct : (depositInfoList.map (·.btcDepositAddress)).Nodup)
    (address : Address) :
    lastDepositInfo depositInfoList address = lastDepositInfo depositInfoList' address := by
  have distinct' := (perm.map (·.btcDepositAddress)).nodup_iff.1 distinct
  refine Option.ext fun depositInfo => ?_
  rw [Option.mem_def, Option.mem_def, lastDepositInfo_of_nodup distinct, lastDepositInfo_of_nodup distinct',
    perm.mem_iff]

section Registry

variable (depositInfoList : DepositInfoList)

/-- The insert loop, from any starting map. -/
def insertAll (start : DepositInfoHashMap) : DepositInfoHashMap :=
  depositInfoList.foldl (fun hashMap depositInfo => hashMap.insert depositInfo.btcDepositAddress depositInfo) start

theorem createHashMapFromDepositInfoList_bind {α : Type} (next : DepositInfoHashMap → Result α) :
    (createHashMapFromDepositInfoList depositInfoList >>= next) = next (insertAll depositInfoList ∅) := rfl

theorem insertAll_concat (start : DepositInfoHashMap) (last : DepositAddressInfo) :
    insertAll (depositInfoList ++ [last]) start =
      (insertAll depositInfoList start).insert last.btcDepositAddress last := by
  simp [insertAll]

theorem lookup_insertAll (address : Address) :
    (insertAll depositInfoList ∅).lookup address = lastDepositInfo depositInfoList address := by
  induction depositInfoList using List.reverseRecOn with
  | nil => simp [insertAll, lastDepositInfo]
  | append_singleton rest last ih =>
    rw [insertAll_concat]
    by_cases same : last.btcDepositAddress = address
    · subst same
      simp [lastDepositInfo]
    · rw [AList.lookup_insert_ne (Ne.symm same), ih]
      simp [lastDepositInfo, same]

theorem mem_insertAll (address : Address) :
    address ∈ insertAll depositInfoList ∅ ↔ address ∈ depositAddresses depositInfoList := by
  rw [← AList.lookup_isSome, lookup_insertAll]
  simp [lastDepositInfo, depositAddresses, List.getLast?_eq_none_iff, List.filter_eq_nil_iff]

theorem len_insertAll :
    DepositInfoHashMap.len (insertAll depositInfoList ∅) = (depositAddresses depositInfoList).card := by
  induction depositInfoList using List.reverseRecOn with
  | nil => simp [insertAll, depositAddresses, DepositInfoHashMap.len]
  | append_singleton rest last ih =>
    unfold DepositInfoHashMap.len at ih ⊢
    rw [insertAll_concat, AList.keys_insert, List.length_cons]
    have grown : depositAddresses (rest ++ [last]) = insert last.btcDepositAddress (depositAddresses rest) := by
      simp [depositAddresses, List.toFinset_append, Finset.insert_eq]
      exact Finset.union_comm _ _
    by_cases listed : last.btcDepositAddress ∈ depositAddresses rest
    · have present := AList.mem_keys.mp ((mem_insertAll rest _).mpr listed)
      rw [List.length_erase_of_mem present, ih, grown, Finset.insert_eq_of_mem listed]
      have := Finset.card_pos.mpr ⟨_, listed⟩
      omega
    · have absent := mt AList.mem_keys.mpr (mt (mem_insertAll rest _).mp listed)
      rw [List.erase_of_not_mem absent, ih, grown, Finset.card_insert_of_not_mem listed]

end Registry

/-- The registry's keys are the listed deposit addresses, each holding the last entry
listed for it (last write wins), so every entry is filed under its own address; it has one
entry per distinct address, as many as the list has entries exactly when no address repeats. -/
theorem create_hash_map_from_deposit_info_list_spec (depositInfoList : DepositInfoList) :
    ∃ hashMap, createHashMapFromDepositInfoList depositInfoList = .ok hashMap ∧
      (∀ address, address ∈ hashMap ↔ ∃ depositInfo ∈ depositInfoList, depositInfo.btcDepositAddress = address) ∧
      (∀ address, hashMap.lookup address = lastDepositInfo depositInfoList address) ∧
      (∀ (address : Address) (depositInfo : DepositAddressInfo),
        hashMap.lookup address = some depositInfo → depositInfo.btcDepositAddress = address) ∧
      DepositInfoHashMap.len hashMap = (depositAddresses depositInfoList).card ∧
      (DepositInfoHashMap.len hashMap = depositInfoList.length ↔
        (depositInfoList.map (·.btcDepositAddress)).Nodup) := by
  refine ⟨insertAll depositInfoList ∅, rfl, fun address => ?_, lookup_insertAll depositInfoList,
    fun address depositInfo found => (lastDepositInfo_mem (lookup_insertAll depositInfoList address ▸ found)).2,
    len_insertAll depositInfoList, ?_⟩
  · simp [mem_insertAll, depositAddresses]
  · rw [len_insertAll, depositAddresses, ← List.length_map depositInfoList (·.btcDepositAddress)]
    exact Multiset.toFinset_card_eq_card_iff_nodup (m := ((depositInfoList.map (·.btcDepositAddress) : List Address) : Multiset Address))

end PtokensCore.Btc
