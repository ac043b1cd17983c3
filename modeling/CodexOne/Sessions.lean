import Mathlib.Data.List.AList
import Mathlib.Tactic

/-!
The store of admin sessions.

`SessionStore` is what the rest of the code relies on: entries under keys that are gone after
their time to live. `MemoryStore` is the store in memory, each of whose operations holds its lock.
The zero time, which stands for no next expiry, is `none`.
-/

namespace CodexOne

/-- **The interface.** The operations of a store, each given what the clock shows. `put` returns
the error, if any, and `get` the value unless there is none. `live` is what is under a key at a
time, and `unexpired put ttl now` says whether an entry lasts until `now`. -/
structure SessionStore (σ : Type) where
  new : σ
  put : σ → ℤ → String → String → ℤ → σ × Option String
  get : σ → ℤ → String → σ × Option String
  delete : σ → String → σ
  live : σ → ℤ → String → Option String
  unexpired : ℤ → ℤ → ℤ → Bool
  live_new : ∀ t j, live new t j = none
  get_eq : ∀ s now key, (get s now key).2 = live s now key
  live_get : ∀ s now key t j, now ≤ t → live (get s now key).1 t j = live s t j
  live_put : ∀ s now key value ttl t j, now ≤ t → (put s now key value ttl).2 = none →
    live (put s now key value ttl).1 t j =
      if j = key then (if unexpired now ttl t then some value else none) else live s t j
  live_put_err : ∀ s now key value ttl t j, now ≤ t → (put s now key value ttl).2 ≠ none →
    live (put s now key value ttl).1 t j = live s t j
  live_delete : ∀ s key t j, live (delete s key) t j = if j = key then none else live s t j

/-! ### The store in memory -/

structure MemoryItem where
  value : String
  expiresAt : ℤ

structure MemoryStore where
  items : AList fun _ : String => MemoryItem
  capacity : ℤ
  nextExpiry : Option ℤ

namespace MemoryStore

def defaultMemoryStoreCapacity : ℤ := 4096

def newMemoryStore (capacity : ℤ) : MemoryStore :=
  ⟨∅, if capacity ≤ 0 then defaultMemoryStoreCapacity else capacity, none⟩

/-- One round of the loop over the items, on the items and the next expiry so far. -/
def sweep (now : ℤ) (acc : (AList fun _ : String => MemoryItem) × Option ℤ)
    (entry : Sigma fun _ : String => MemoryItem) :
    (AList fun _ : String => MemoryItem) × Option ℤ :=
  if entry.2.expiresAt ≤ now then (acc.1.erase entry.1, acc.2)
  else (acc.1, match acc.2 with
    | none => some entry.2.expiresAt
    | some t => if entry.2.expiresAt < t then some entry.2.expiresAt else some t)

def removeExpiredLocked (s : MemoryStore) (now : ℤ) : MemoryStore :=
  if s.items.entries = [] then { s with nextExpiry := none }
  else if s.nextExpiry.any (now < ·) then s
  else
    let swept := s.items.entries.foldl (sweep now) (s.items, none)
    { s with items := swept.1, nextExpiry := swept.2 }

def errCapacity : String := "session store capacity exceeded"

/-- The number of items the store may hold. -/
def limit (s : MemoryStore) : ℤ :=
  if s.capacity ≤ 0 then defaultMemoryStoreCapacity else s.capacity

def Full (s : MemoryStore) (key : String) : Prop :=
  key ∉ s.items ∧ s.limit ≤ s.items.entries.length

instance (s : MemoryStore) (key : String) : Decidable (s.Full key) :=
  inferInstanceAs (Decidable (_ ∧ _))

def insert (s : MemoryStore) (key : String) (item : MemoryItem) : MemoryStore :=
  { s with
    items := s.items.insert key item
    nextExpiry := match s.nextExpiry with
      | none => some item.expiresAt
      | some t => if item.expiresAt < t then some item.expiresAt else some t }

def put (s : MemoryStore) (now : ℤ) (key value : String) (ttl : ℤ) : MemoryStore × Option String :=
  let s := s.removeExpiredLocked now
  if s.Full key then (s, some errCapacity) else (s.insert key ⟨value, now + ttl⟩, none)

def get (s : MemoryStore) (now : ℤ) (key : String) : MemoryStore × Option String :=
  match s.items.lookup key with
  | none => (s, none)
  | some item =>
    if item.expiresAt ≤ now then
      ({ s with
          items := s.items.erase key
          nextExpiry := if s.nextExpiry = some item.expiresAt then none else s.nextExpiry }, none)
    else (s, some item.value)

def delete (s : MemoryStore) (key : String) : MemoryStore :=
  { s with
    items := s.items.erase key
    nextExpiry := match s.items.lookup key with
      | some item => if s.nextExpiry = some item.expiresAt then none else s.nextExpiry
      | none => s.nextExpiry }

def live (s : MemoryStore) (now : ℤ) (key : String) : Option String :=
  (s.items.lookup key).bind fun item => if now < item.expiresAt then some item.value else none

lemma live_erase (s : MemoryStore) (key : String) (next : Option ℤ) (t : ℤ) (j : String) :
    live { s with items := s.items.erase key, nextExpiry := next } t j =
      if j = key then none else s.live t j := by
  by_cases hj : j = key
  · rw [if_pos hj, hj, live, AList.lookup_erase, Option.bind_none]
  · rw [if_neg hj, live, AList.lookup_erase_ne hj, live]

/-- The loop erases only items that have expired, so nothing that is live later is lost. -/
lemma lookup_sweep {now t : ℤ} (ht : now ≤ t) (j : String)
    (entries : List (Sigma fun _ : String => MemoryItem))
    (acc : (AList fun _ : String => MemoryItem) × Option ℤ)
    (hacc : ∀ e ∈ entries, ∀ item, acc.1.lookup e.1 = some item → item = e.2) :
    ((entries.foldl (sweep now) acc).1.lookup j).bind
        (fun item => if t < item.expiresAt then some item.value else none) =
      (acc.1.lookup j).bind
        (fun item => if t < item.expiresAt then some item.value else none) := by
  induction entries generalizing acc with
  | nil => rfl
  | cons e entries ih =>
    rw [List.foldl_cons]
    by_cases he : e.2.expiresAt ≤ now
    · -- what is erased has expired at the later time as well
      rw [sweep, if_pos he]
      rw [ih]
      · by_cases hj : j = e.1
        · subst hj
          rw [AList.lookup_erase]
          cases hitem : acc.1.lookup e.1 with
          | none => rfl
          | some item =>
            have hexp : item = e.2 := hacc e List.mem_cons_self item hitem
            simp only [Option.bind_none, Option.bind_some, hexp]
            rw [if_neg (by omega)]
        · rw [AList.lookup_erase_ne hj]
      · intro e' he' item hitem
        by_cases heq : e'.1 = e.1
        · rw [heq, AList.lookup_erase] at hitem
          cases hitem
        · rw [AList.lookup_erase_ne heq] at hitem
          exact hacc e' (List.mem_cons_of_mem _ he') item hitem
    · rw [sweep, if_neg he]
      exact ih _ fun e' he' item hitem => hacc e' (List.mem_cons_of_mem _ he') item hitem

lemma live_removeExpiredLocked (s : MemoryStore) {now t : ℤ} (ht : now ≤ t) (j : String) :
    (s.removeExpiredLocked now).live t j = s.live t j := by
  rw [removeExpiredLocked]
  split
  · rfl
  · split
    · rfl
    · refine lookup_sweep ht j s.items.entries (s.items, none) fun e he item hitem => ?_
      have hmem := List.mem_dlookup s.items.nodupKeys he
      rw [AList.lookup, Option.mem_def.mp hmem] at hitem
      exact (Option.some.inj hitem).symm

lemma live_get (s : MemoryStore) (now : ℤ) (key : String) (t : ℤ) (j : String) (ht : now ≤ t) :
    (s.get now key).1.live t j = s.live t j := by
  rw [get]
  split
  · rfl
  · rename_i item hitem
    split
    · rename_i hexp
      rw [live_erase]
      by_cases hj : j = key
      · -- `Get` erases the item it finds expired
        rw [if_pos hj, hj, live, hitem, Option.bind_some, if_neg (by omega)]
      · rw [if_neg hj]
    · rfl

lemma live_insert (s : MemoryStore) (key : String) (item : MemoryItem) (t : ℤ) (j : String) :
    (s.insert key item).live t j =
      if j = key then (if t < item.expiresAt then some item.value else none) else s.live t j := by
  by_cases hj : j = key
  · rw [if_pos hj, hj, live, insert, AList.lookup_insert, Option.bind_some]
  · rw [if_neg hj, live, insert, AList.lookup_insert_ne hj, live]

lemma live_put (s : MemoryStore) (now : ℤ) (key value : String) (ttl t : ℤ) (j : String)
    (ht : now ≤ t) (hok : (s.put now key value ttl).2 = none) :
    (s.put now key value ttl).1.live t j =
      if j = key then (if t < now + ttl then some value else none) else s.live t j := by
  simp only [put] at hok ⊢
  split at hok
  · cases hok
  · rename_i hroom
    rw [if_neg hroom, live_insert, live_removeExpiredLocked s ht]

lemma live_put_err (s : MemoryStore) (now : ℤ) (key value : String) (ttl t : ℤ) (j : String)
    (ht : now ≤ t) (herr : (s.put now key value ttl).2 ≠ none) :
    (s.put now key value ttl).1.live t j = s.live t j := by
  simp only [put] at herr ⊢
  split at herr
  · rename_i hfull
    rw [if_pos hfull]
    exact live_removeExpiredLocked s ht j
  · exact absurd rfl herr

end MemoryStore

def memoryStore (capacity : ℤ) : SessionStore MemoryStore where
  new := MemoryStore.newMemoryStore capacity
  put := MemoryStore.put
  get := MemoryStore.get
  delete := MemoryStore.delete
  live := MemoryStore.live
  unexpired now ttl t := t < now + ttl
  live_new _ _ := rfl
  get_eq s now key := by
    simp only [MemoryStore.get, MemoryStore.live]
    cases s.items.lookup key with
    | none => rfl
    | some item =>
      by_cases h : item.expiresAt ≤ now
      · simp [h]
      · simp [h, not_le.mp h]
  live_get := MemoryStore.live_get
  live_put s now key value ttl t j ht hok := by
    simpa using MemoryStore.live_put s now key value ttl t j ht hok
  live_put_err := MemoryStore.live_put_err
  live_delete s key t j := MemoryStore.live_erase s key _ t j

end CodexOne
