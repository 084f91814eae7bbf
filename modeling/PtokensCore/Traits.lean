import PtokensCore.Btc.Types

/-! `DatabaseInterface` of `traits.rs`: the byte-keyed store the enclave keeps its state in.

`traits.rs` is not among the sources. Modelled from the spec: the core reads and writes the
store only by key, a write may fail with the store's own error, and the store gives
read-your-writes consistency. The store's state is passed explicitly: a `put` that succeeds
returns the store after the write.
-/

set_option autoImplicit false

namespace PtokensCore

open PtokensCore.Btc

/-- `get` and `put` of a store whose states are `σ`. The sensitivity level `put` takes plays
no part in what is stored and is left out. -/
structure DatabaseInterface (σ : Type) where
  get : σ → List UInt8 → Option (List UInt8)
  put : σ → List UInt8 → List UInt8 → Result σ

/-- Read-your-writes: a successful `put` writes its key and no other. -/
structure DatabaseInterface.Lawful {σ : Type} (db : DatabaseInterface σ) : Prop where
  get_put_self {store store' : σ} {key value : List UInt8} :
    db.put store key value = .ok store' → db.get store' key = some value
  get_put_ne {store store' : σ} {key value : List UInt8} (other : List UInt8) :
    db.put store key value = .ok store' → other ≠ key → db.get store' other = db.get store other

/-- A store whose writes never fail. -/
def DatabaseInterface.PutSucceeds {σ : Type} (db : DatabaseInterface σ) : Prop :=
  ∀ store key value, ∃ store', db.put store key value = .ok store'

/-- A store that is a finite map and never fails. -/
def mapDatabase : DatabaseInterface (List (List UInt8 × List UInt8)) where
  get store key := store.lookup key
  put store key value := .ok ((key, value) :: store)

theorem mapDatabase_lawful : mapDatabase.Lawful where
  get_put_self := by
    rintro _ _ key value ⟨⟩
    simp [mapDatabase]
  get_put_ne := by
    rintro _ _ key value other ⟨⟩ ne
    simp [mapDatabase, List.lookup_cons, beq_eq_false_iff_ne.2 ne]

theorem mapDatabase_putSucceeds : mapDatabase.PutSucceeds :=
  fun _ _ _ => ⟨_, rfl⟩

end PtokensCore
