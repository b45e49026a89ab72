import Kvasir.Lib.Utf8
import Mathlib.Data.Finmap

/-! The key value map behind a small interface. Each operation here is one whole
call; `LockedStore` takes the same calls apart into steps under the lock. -/

namespace Kvasir

structure MemoryStore where
  data : Finmap fun _ : Bytes => Bytes
  deriving DecidableEq

namespace MemoryStore

def new : MemoryStore := ⟨∅⟩

def get (store : MemoryStore) (key : Bytes) : Option Bytes := store.data.lookup key

def set (store : MemoryStore) (key value : Bytes) : MemoryStore := ⟨store.data.insert key value⟩

def delete (store : MemoryStore) (key : Bytes) : MemoryStore × Bool :=
  let ok := (store.data.lookup key).isSome
  (if ok then ⟨store.data.erase key⟩ else store, ok)

@[simp] theorem new_get (key : Bytes) : new.get key = none := rfl

@[simp] theorem set_get_same (store : MemoryStore) (key value : Bytes) : (store.set key value).get key = some value := by
  simp [set, get]

theorem set_get_other (store : MemoryStore) {key other : Bytes} (value : Bytes) (different : other ≠ key) :
    (store.set key value).get other = store.get other := by
  simp [set, get, Finmap.lookup_insert_of_ne _ different]

@[simp] theorem delete_result (store : MemoryStore) (key : Bytes) :
    (store.delete key).2 = (store.get key).isSome := rfl

@[simp] theorem delete_get_same (store : MemoryStore) (key : Bytes) : (store.delete key).1.get key = none := by
  unfold delete get
  dsimp only
  split
  · simp
  next absent => simpa using absent

theorem delete_get_other (store : MemoryStore) {key other : Bytes} (different : other ≠ key) :
    (store.delete key).1.get other = store.get other := by
  unfold delete get
  dsimp only
  split
  · simp [Finmap.lookup_erase_ne different]
  · rfl

theorem ext {first last : MemoryStore} (same : ∀ key, first.get key = last.get key) : first = last := by
  cases first; cases last
  exact congrArg MemoryStore.mk (Finmap.ext_lookup same)

end MemoryStore

end Kvasir
