import CodexOne.Sessions
import CodexOne.Lib.TimedMap

/-!
The store in memory is a map with a bound whose entries expire.

The next expiry is never later than the expiry of an item. So a `Put` that skips the sweep has
nothing to sweep, and no expired item takes the place of a new one.
-/

namespace CodexOne.MemoryStore

open TimedMap

def call (s : MemoryStore) (now : ℤ) : Call String String ℤ → MemoryStore × Reply String
  | .put key value ttl =>
    let (s, err) := s.put now key value ttl
    (s, if err = none then .done else .refused)
  | .get key =>
    let (s, value) := s.get now key
    (s, match value with
      | some v => .found v
      | none => .missing)
  | .delete key => (s.delete key, .done)

def Bounds (next : Option ℤ) (items : AList fun _ : String => MemoryItem) : Prop :=
  ∀ u, next = some u → ∀ e ∈ items.entries, u ≤ e.2.expiresAt

lemma Bounds.mono {next : Option ℤ} {items items' : AList fun _ : String => MemoryItem}
    (h : Bounds next items) (hs : items'.entries ⊆ items.entries) : Bounds next items' :=
  fun u hu e he => h u hu e (hs he)

variable {s : MemoryStore} {now : ℤ} {key : String}

/-- What the loop over some of the items leaves. -/
structure Swept (now : ℤ) (es : List (Sigma fun _ : String => MemoryItem))
    (acc out : (AList fun _ : String => MemoryItem) × Option ℤ) : Prop where
  kept : out.1.entries.Sublist acc.1.entries
  gone : ∀ e ∈ es, e.2.expiresAt ≤ now → e.1 ∉ out.1
  before : ∀ u, out.2 = some u → ∀ w, acc.2 = some w → u ≤ w
  bound : ∀ u, out.2 = some u → ∀ e ∈ es, now < e.2.expiresAt → u ≤ e.2.expiresAt
  start : out.2 = none → acc.2 = none
  none : out.2 = none → ∀ e ∈ es, e.2.expiresAt ≤ now

lemma swept_foldl (es : List (Sigma fun _ : String => MemoryItem))
    (acc : (AList fun _ : String => MemoryItem) × Option ℤ) :
    Swept now es acc (es.foldl (sweep now) acc) := by
  induction es generalizing acc with
  | nil => exact ⟨.refl _, fun _ h => (by cases h), fun u hu w hw => by simp_all,
      fun _ _ _ h => (by cases h), id, fun _ _ h => (by cases h)⟩
  | cons e es ih =>
    rw [List.foldl_cons]
    have hrest := ih (sweep now acc e)
    by_cases he : e.2.expiresAt ≤ now
    · -- expired, and erased
      have hs : sweep now acc e = (acc.1.erase e.1, acc.2) := if_pos he
      rw [hs] at hrest ⊢
      refine ⟨hrest.kept.trans (List.kerase_sublist _ _), fun x hx hexp => ?_, hrest.before,
        fun u hu x hx hlive => ?_, hrest.start, fun hnone x hx => ?_⟩
      · rcases List.mem_cons.mp hx with rfl | hx
        · intro hmem
          have hkept := List.map_subset Sigma.fst hrest.kept.subset hmem
          exact (AList.mem_erase.mp hkept).1 rfl
        · exact hrest.gone x hx hexp
      · rcases List.mem_cons.mp hx with rfl | hx
        · omega
        · exact hrest.bound u hu x hx hlive
      · rcases List.mem_cons.mp hx with rfl | hx
        · exact he
        · exact hrest.none hnone x hx
    · -- the next expiry moves down to this one
      obtain ⟨m, hs, hm, hw⟩ : ∃ m, sweep now acc e = (acc.1, some m) ∧ m ≤ e.2.expiresAt ∧
          ∀ w, acc.2 = some w → m ≤ w := by
        rw [sweep, if_neg he]
        cases hacc : acc.2 with
        | none => exact ⟨_, rfl, le_rfl, by simp⟩
        | some w =>
          by_cases hlt : e.2.expiresAt < w
          · exact ⟨_, by simp [hlt], le_rfl, by simp [hlt.le]⟩
          · exact ⟨w, by simp [hlt], not_lt.mp hlt, by simp⟩
      rw [hs] at hrest ⊢
      refine ⟨hrest.kept, fun x hx hexp => ?_, fun u hu w hacc => ?_, fun u hu x hx hlive => ?_,
        fun hnone => ?_, fun hnone => ?_⟩
      · rcases List.mem_cons.mp hx with rfl | hx
        · exact absurd hexp he
        · exact hrest.gone x hx hexp
      · exact (hrest.before u hu m rfl).trans (hw w hacc)
      · rcases List.mem_cons.mp hx with rfl | hx
        · exact (hrest.before u hu m rfl).trans hm
        · exact hrest.bound u hu x hx hlive
      · cases hrest.start hnone
      · cases hrest.start hnone

/-- **The sweep.** After it nothing has expired, and the next expiry is a bound again. -/
lemma removeExpiredLocked_spec (h : Bounds s.nextExpiry s.items) (now : ℤ) :
    (s.removeExpiredLocked now).items.entries.Sublist s.items.entries ∧
      (∀ e ∈ (s.removeExpiredLocked now).items.entries, now < e.2.expiresAt) ∧
      Bounds (s.removeExpiredLocked now).nextExpiry (s.removeExpiredLocked now).items ∧
      ((s.removeExpiredLocked now).nextExpiry = none →
        (s.removeExpiredLocked now).items.entries = []) ∧
      (s.removeExpiredLocked now).limit = s.limit := by
  rw [removeExpiredLocked]
  split
  · rename_i hempty
    refine ⟨.refl _, fun e he => ?_, fun _ h => (by cases h), fun _ => hempty, rfl⟩
    rw [hempty] at he
    cases he
  · split
    · rename_i hnext
      obtain ⟨u, hu, hlater⟩ := (Option.any_eq_true _ _).mp hnext
      refine ⟨.refl _, fun e he => ?_, h, fun hnone => ?_, rfl⟩
      · exact (of_decide_eq_true hlater).trans_le (h u hu e he)
      · rw [hnone] at hu
        cases hu
    · have hswept : Swept now s.items.entries (s.items, none) _ := swept_foldl _ _
      have hlive : ∀ e ∈ (s.items.entries.foldl (sweep now) (s.items, none)).1.entries,
          now < e.2.expiresAt := by
        intro e he
        by_contra hexp
        exact hswept.gone e (hswept.kept.subset he) (not_lt.mp hexp) (List.mem_map_of_mem he)
      refine ⟨hswept.kept, hlive, fun u hu e he => ?_, fun hnone => ?_, rfl⟩
      · exact hswept.bound u hu e (hswept.kept.subset he) (hlive e he)
      · refine List.eq_nil_iff_forall_not_mem.mpr fun e he => ?_
        have hexp := hswept.none hnone e (hswept.kept.subset he)
        have hlater := hlive e he
        omega

/-- A store after the calls of a log. -/
structure Follows (capacity : ℕ) (log : List (Event String String ℤ)) (s : MemoryStore) :
    Prop where
  held : ∀ now, (∀ e ∈ log, e.time ≤ now) → ∀ key, s.live now key = TimedMap.live log now key
  bounds : Bounds s.nextExpiry s.items
  limit : s.limit = capacity
  room : s.items.entries.length ≤ capacity

variable {log : List (Event String String ℤ)} {capacity : ℕ}

lemma mem_liveKeys (hheld : ∀ key, s.live now key = TimedMap.live log now key)
    (hlive : ∀ e ∈ s.items.entries, now < e.2.expiresAt) (key : String) :
    key ∈ liveKeys log now ↔ key ∈ s.items := by
  unfold liveKeys
  rw [Set.mem_ofPred_eq, ← hheld, live]
  cases hl : s.items.lookup key with
  | none => simpa using AList.lookup_eq_none.mp hl
  | some item =>
    have hin : ⟨key, item⟩ ∈ s.items.entries := AList.mem_lookup_iff.mp hl
    have hkey : key ∈ s.items := AList.lookup_isSome.mp (by rw [hl]; rfl)
    simp [hlive _ hin, hkey]

lemma ncard_liveKeys (hheld : ∀ key, s.live now key = TimedMap.live log now key)
    (hlive : ∀ e ∈ s.items.entries, now < e.2.expiresAt) :
    (liveKeys log now).ncard = s.items.entries.length := by
  have hset : liveKeys log now = ↑(s.items.keys.toFinset) := by
    ext key
    rw [mem_liveKeys hheld hlive, Finset.mem_coe, List.mem_toFinset, AList.mem_keys]
  rw [hset, Set.ncard_coe_finset, List.toFinset_card_of_nodup s.items.keys_nodup, AList.keys,
    List.keys, List.length_map]

lemma Follows.full_iff (h : Follows capacity log s) (hlog : ∀ e ∈ log, e.time ≤ now) :
    (s.removeExpiredLocked now).Full key ↔
      key ∉ liveKeys log now ∧ (liveKeys log now).ncard = capacity := by
  obtain ⟨hsub, hlive, -, -, hlimit⟩ := removeExpiredLocked_spec h.bounds now
  have hheld (key : String) :
      (s.removeExpiredLocked now).live now key = TimedMap.live log now key := by
    rw [live_removeExpiredLocked s le_rfl, h.held now hlog]
  have hlen := hsub.length_le
  have hroom := h.room
  rw [Full, mem_liveKeys hheld hlive, ncard_liveKeys hheld hlive, hlimit, h.limit]
  refine and_congr_right fun _ => ?_
  omega

/-! ### One call -/

lemma put_eq (s : MemoryStore) (now : ℤ) (key value : String) (ttl : ℤ) :
    s.put now key value ttl = if (s.removeExpiredLocked now).Full key then
        (s.removeExpiredLocked now, some errCapacity)
      else ((s.removeExpiredLocked now).insert key ⟨value, now + ttl⟩, none) := rfl

lemma bounds_insert (h : Bounds s.nextExpiry s.items)
    (hnone : s.nextExpiry = none → s.items.entries = []) (key : String) (item : MemoryItem) :
    Bounds (s.insert key item).nextExpiry (s.insert key item).items := by
  intro u hu e he
  have hcases : e = ⟨key, item⟩ ∨ e ∈ s.items.entries := by
    rw [insert, AList.entries_insert, List.mem_cons] at he
    exact he.imp_right fun he => List.kerase_sublist _ _ |>.subset he
  unfold insert at hu
  dsimp only at hu
  cases hs : s.nextExpiry with
  | none =>
    rw [hs] at hu
    obtain rfl := Option.some.inj hu
    rcases hcases with rfl | he
    · exact le_rfl
    · rw [hnone hs] at he
      cases he
  | some t =>
    rw [hs] at hu
    dsimp only at hu
    have ht (he : e ∈ s.items.entries) : t ≤ e.2.expiresAt := h t hs e he
    split_ifs at hu with hlt <;> obtain rfl := Option.some.inj hu
    · rcases hcases with rfl | he
      · exact le_rfl
      · exact hlt.le.trans (ht he)
    · rcases hcases with rfl | he
      · exact not_lt.mp hlt
      · exact ht he

lemma length_insert (items : AList fun _ : String => MemoryItem) (key : String)
    (item : MemoryItem) : (items.insert key item).entries.length =
      if key ∈ items then items.entries.length else items.entries.length + 1 := by
  rw [AList.entries_insert, List.length_cons]
  split_ifs with hk
  · have hkeys : (items.erase key).keys.length = (items.keys.erase key).length := by
      rw [AList.keys_erase]
    rw [List.length_erase_of_mem (AList.mem_keys.mp hk)] at hkeys
    have hpos := List.length_pos_of_mem (AList.mem_keys.mp hk)
    change ((items.erase key).entries.map Sigma.fst).length = _ at hkeys
    rw [List.length_map] at hkeys
    simp only [AList.keys, List.keys, List.length_map] at hkeys hpos
    change (items.erase key).entries.length + 1 = _
    omega
  · rw [List.kerase_of_notMem_keys (AList.mem_keys.not.mp hk)]

lemma times_concat {e : Event String String ℤ} {t : ℤ} (h : ∀ x ∈ log ++ [e], x.time ≤ t) :
    (∀ x ∈ log, x.time ≤ t) ∧ e.time ≤ t :=
  ⟨fun x hx => h x (List.mem_append_left _ hx), h e (by simp)⟩

lemma live_concat (e : Event String String ℤ) (t : ℤ) (key : String) :
    TimedMap.live (log ++ [e]) t key =
      (record key (last log key) e).bind fun held => if t < held.2 then some held.1 else none := by
  rw [TimedMap.live, last_concat]

lemma Follows.put (h : Follows capacity log s) (key value : String) (ttl : ℤ) :
    Follows capacity (log ++ [⟨now, .put key value ttl, (s.call now (.put key value ttl)).2⟩])
      (s.call now (.put key value ttl)).1 := by
  obtain ⟨hsub, hlive, hbounds, hnone, hlimit⟩ := removeExpiredLocked_spec h.bounds now
  have hlen := hsub.length_le
  have hroom := h.room
  unfold call
  dsimp only
  rw [put_eq]
  by_cases hfull : (s.removeExpiredLocked now).Full key
  · -- there is no room left after the sweep
    rw [if_pos hfull]
    refine ⟨fun t ht j => ?_, hbounds, hlimit.trans h.limit, hlen.trans hroom⟩
    obtain ⟨hbefore, hnow⟩ := times_concat ht
    rw [live_removeExpiredLocked s hnow, h.held t hbefore, live_concat, record_of_not_writes]
    · rfl
    · exact fun hw => by cases hw.2
  · rw [if_neg hfull]
    dsimp only
    rw [if_pos rfl]
    refine ⟨fun t ht j => ?_, bounds_insert hbounds hnone key _, hlimit.trans h.limit, ?_⟩
    · obtain ⟨hbefore, hnow⟩ := times_concat ht
      rw [live_insert, live_removeExpiredLocked s hnow, h.held t hbefore, live_concat]
      by_cases hj : j = key
      · rw [if_pos hj, hj, record_put]
        rfl
      · rw [if_neg hj, record_of_not_writes]
        · rfl
        · exact fun hw => hj hw.1.symm
    · dsimp only [insert]
      rw [length_insert]
      unfold Full at hfull
      rw [not_and_or, not_not, hlimit, h.limit] at hfull
      split_ifs with hk
      · omega
      · have hlt := hfull.resolve_left hk
        omega

lemma Follows.erase (h : Follows capacity log s) (key : String) (item : MemoryItem) :
    Bounds (if s.nextExpiry = some item.expiresAt then none else s.nextExpiry)
        (s.items.erase key) ∧ (s.items.erase key).entries.length ≤ capacity := by
  have hsub : (s.items.erase key).entries.Sublist s.items.entries := List.kerase_sublist _ _
  refine ⟨?_, hsub.length_le.trans h.room⟩
  split_ifs
  · exact nofun
  · exact h.bounds.mono hsub.subset

lemma Follows.get (h : Follows capacity log s) (key : String) (reply : Reply String) :
    Follows capacity (log ++ [⟨now, .get key, reply⟩]) (s.get now key).1 := by
  have hheld (t : ℤ) (ht : ∀ e ∈ log ++ [⟨now, .get key, reply⟩], e.time ≤ t) (j : String) :
      (s.get now key).1.live t j =
        TimedMap.live (log ++ [⟨now, .get key, reply⟩]) t j := by
    obtain ⟨hbefore, hnow⟩ := times_concat ht
    rw [live_get s now key t j hnow, h.held t hbefore, live_concat, record_of_not_writes id]
    rfl
  have hstate : (s.get now key).1 = s ∨ ∃ item : MemoryItem, (s.get now key).1 =
      { s with
          items := s.items.erase key
          nextExpiry := if s.nextExpiry = some item.expiresAt then none else s.nextExpiry } := by
    unfold MemoryStore.get
    split
    · exact .inl rfl
    · split
      · exact .inr ⟨_, rfl⟩
      · exact .inl rfl
  rcases hstate with hs | ⟨item, hs⟩
  · exact ⟨hheld, by rw [hs]; exact h.bounds, by rw [hs]; exact h.limit, by rw [hs]; exact h.room⟩
  · obtain ⟨hbounds, hroom⟩ := h.erase key item
    exact ⟨hheld, by rw [hs]; exact hbounds, by rw [hs]; exact h.limit, by rw [hs]; exact hroom⟩

lemma Follows.delete (h : Follows capacity log s) (key : String) (reply : Reply String) :
    Follows capacity (log ++ [⟨now, .delete key, reply⟩]) (s.delete key) := by
  have hheld (t : ℤ) (ht : ∀ e ∈ log ++ [⟨now, .delete key, reply⟩], e.time ≤ t) (j : String) :
      (s.delete key).live t j = TimedMap.live (log ++ [⟨now, .delete key, reply⟩]) t j := by
    obtain ⟨hbefore, hnow⟩ := times_concat ht
    rw [MemoryStore.delete, live_erase, live_concat]
    by_cases hj : j = key
    · rw [if_pos hj, hj, record_delete]
      rfl
    · rw [if_neg hj, h.held t hbefore, record_of_not_writes]
      · rfl
      · exact fun hw => hj (show key = j from hw).symm
  refine ⟨hheld, ?_, h.limit, ?_⟩
  · unfold MemoryStore.delete
    dsimp only
    cases s.items.lookup key with
    | none => exact h.bounds.mono (List.kerase_sublist _ _).subset
    | some item => exact (h.erase key item).1
  · exact (List.kerase_sublist _ _).length_le.trans h.room

lemma Follows.call (h : Follows capacity log s) (now : ℤ) (c : Call String String ℤ) :
    Follows capacity (log ++ [⟨now, c, (s.call now c).2⟩]) (s.call now c).1 := by
  cases c with
  | put key value ttl => exact h.put key value ttl
  | get key => exact h.get key _
  | delete key => exact h.delete key _

lemma Follows.answers (h : Follows capacity log s) (hlog : ∀ e ∈ log, e.time ≤ now)
    (c : Call String String ℤ) : Answers capacity log ⟨now, c, (s.call now c).2⟩ := by
  cases c with
  | put key value ttl =>
    unfold Answers MemoryStore.call
    dsimp only
    rw [put_eq, ← h.full_iff hlog]
    by_cases hfull : (s.removeExpiredLocked now).Full key
    · rw [if_pos hfull]
      simp [hfull]
    · rw [if_neg hfull]
      simp [hfull]
  | get key =>
    have hvalue : (s.get now key).2 = s.live now key := (memoryStore 0).get_eq s now key
    unfold Answers MemoryStore.call
    dsimp only
    rw [← h.held now hlog, hvalue]
    cases s.live now key <;> rfl
  | delete key => rfl

/-- The number of items a store is made for. -/
def bound (capacity : ℤ) : ℕ := (newMemoryStore capacity).limit.toNat

lemma follows_new (capacity : ℤ) : Follows (bound capacity) [] (newMemoryStore capacity) := by
  refine ⟨fun _ _ _ => rfl, nofun, ?_, Nat.zero_le _⟩
  unfold bound
  rw [Int.toNat_of_nonneg]
  unfold newMemoryStore limit defaultMemoryStoreCapacity
  dsimp only
  split_ifs <;> omega

end CodexOne.MemoryStore

namespace CodexOne

open TimedMap MemoryStore

/-- **The store in memory.** For every capacity and all calls at times that do not go back, each
`Get` returns what was last put under its key and has neither expired nor been deleted since, a
`Put` is refused exactly when its key is not live and as many keys are as the store has room for,
and the store never holds more items than that. -/
theorem memoryStore_timed_map (capacity : ℤ) (calls : List (ℤ × Call String String ℤ))
    (hclock : calls.Pairwise fun a b => a.1 ≤ b.1) :
    AllAnswered (bound capacity) (run MemoryStore.call (newMemoryStore capacity) [] calls).2 ∧
      (run MemoryStore.call (newMemoryStore capacity) [] calls).1.items.entries.length ≤
        bound capacity := by
  have hrun : Follows (bound capacity)
      (run MemoryStore.call (newMemoryStore capacity) [] calls).2
      (run MemoryStore.call (newMemoryStore capacity) [] calls).1 :=
    run_inv (fun log s now c h _ => h.call now c) hclock (follows_new capacity) nofun
  refine ⟨run_answers (fun log s now c h _ => h.call now c)
    (fun log s now c h hlog => h.answers hlog c) hclock (follows_new capacity), hrun.room⟩

/-- An item that has expired makes room for another one. -/
def sampleCalls : List (ℤ × Call String String ℤ) :=
  [(0, .put "a" "1" 5), (1, .put "b" "2" 5), (6, .get "a"), (6, .put "b" "2" 5), (7, .get "b")]

theorem memoryStore_timed_map_sample :
    AllAnswered (bound 1) (run MemoryStore.call (newMemoryStore 1) [] sampleCalls).2 ∧
      (run MemoryStore.call (newMemoryStore 1) [] sampleCalls).1.items.entries.length ≤ bound 1 :=
  memoryStore_timed_map 1 sampleCalls (by decide)

example : (run MemoryStore.call (newMemoryStore 1) [] sampleCalls).2.map Event.reply =
    [.done, .refused, .missing, .done, .found "2"] := by decide

end CodexOne
