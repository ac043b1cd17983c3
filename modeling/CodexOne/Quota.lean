import CodexOne.Credentials

/-!
The quota snapshot and the account it is shown with.

The snapshot row has no account id. Saving another account and deleting the account remove it,
but a fetch saves what it has got outside the lock, whichever account is stored by then, and
`Account` reads the two rows one after the other.
-/

namespace CodexOne.Codex.Manager

variable {k : Provider} {s t : Manager}

def StoredID (s : Manager) (id : String) : Prop := s.account.map Account.chatGPTAccountID = some id

instance (s : Manager) (id : String) : Decidable (s.StoredID id) :=
  inferInstanceAs (Decidable (_ = _))

lemma storedID_iff {id : String} :
    s.StoredID id ↔ ∃ row, s.account = some row ∧ row.chatGPTAccountID = id :=
  Option.map_eq_some_iff

/-- The account whose quota is about to be saved or read. -/
def quotaAccount (s : Manager) : Event → Option String
  | .saveQuota c none =>
    match s.calls c with
    | .fetched credential _ => some credential.accountID
    | _ => none
  | .getQuota c none =>
    match s.calls c with
    | .viewing row => some row.chatGPTAccountID
    | _ => none
  | _ => none

/-- **The condition.** A quota is saved while the account that it was fetched for is stored, and
read while the account that was read before it is. -/
def Matching (s : Manager) (e : Event) : Prop := ∀ id ∈ s.quotaAccount e, s.StoredID id

instance (s : Manager) (e : Event) : Decidable (s.Matching e) :=
  inferInstanceAs (Decidable (∀ id ∈ s.quotaAccount e, s.StoredID id))

/-- The stored quota belongs to the stored account, and so does every quota that was reported. -/
structure Owned (s : Manager) : Prop where
  account : ∀ row, s.account = some row → row.chatGPTAccountID ≠ ""
  quota : ∀ q, s.quota = some q → s.StoredID q.owner
  viewed : ∀ c row q, s.calls c = .viewed (some row) (some q) → q.owner = row.chatGPTAccountID

lemma owned_start (now : ℤ) : Owned (system k now).start := by
  refine ⟨?_, ?_, ?_⟩
  · rintro row ⟨⟩
  · rintro q ⟨⟩
  · rintro c row q ⟨⟩

lemma Owned.setCall (hs : Owned s) (c : ℕ) {q : Call}
    (hq : ∀ row quota, q = .viewed (some row) (some quota) →
      quota.owner = row.chatGPTAccountID) : Owned (s.setCall c q) := by
  refine ⟨hs.account, hs.quota, fun d row quota hd => ?_⟩
  rw [setCall_calls] at hd
  split at hd
  · exact hq row quota hd
  · exact hs.viewed d row quota hd

lemma Owned.of_same (hs : Owned s) (haccount : t.account = s.account) (hquota : t.quota = s.quota)
    (hcalls : t.calls = s.calls) : Owned t := by
  refine ⟨?_, ?_, ?_⟩
  · rw [haccount]
    exact hs.account
  · rw [hquota]
    intro q hq
    rw [StoredID, haccount]
    exact hs.quota q hq
  · rw [hcalls]
    exact hs.viewed

lemma Owned.saveAccount (hs : Owned s) {row : Account} (hid : row.chatGPTAccountID ≠ "") :
    Owned (s.saveAccount row) := by
  refine ⟨fun row' hrow' => ?_, fun q hq => ?_, hs.viewed⟩
  · cases hrow'
    exact hid
  · cases haccount : s.account with
    | none =>
      simp only [Manager.saveAccount, haccount] at hq
      obtain ⟨row', hrow', -⟩ := storedID_iff.mp (hs.quota q (by simpa using hq))
      rw [haccount] at hrow'
      cases hrow'
    | some old =>
      simp only [Manager.saveAccount, haccount] at hq
      split at hq
      · cases hq
      · rename_i hsame
        obtain ⟨row', hrow', hown⟩ := storedID_iff.mp (hs.quota q hq)
        rw [haccount] at hrow'
        cases hrow'
        have hold := hs.account old haccount
        have heq : old.chatGPTAccountID = row.chatGPTAccountID := by
          by_contra hne
          exact hsame ⟨hold, hne⟩
        exact storedID_iff.mpr ⟨row, rfl, heq ▸ hown⟩

lemma Owned.save (hs : Owned s) (c : ℕ) (kind : Kind) (credential : Credential)
    (nonces : Fin 3 → String) (op : Op) (result : Option Credential) (fault : Option String) :
    Owned (s.save k c kind credential nonces op result fault) := by
  unfold Manager.save
  split
  · exact hs.setCall c (by simp)
  · exact hs.setCall c (by simp)
  · rename_i row hrow
    obtain ⟨hne, _, _, _, -, -, -, hsaves⟩ := Provider.saveCredential_ok hrow
    have hid : row.chatGPTAccountID = credential.accountID := by rw [hsaves]
    have hsaved : Owned (s.saveAccount row) := hs.saveAccount (hid ▸ hne)
    refine Owned.setCall (s := { s.saveAccount row with log := s.log ++ [(c, op)] }) ?_ c (by simp)
    exact hsaved.of_same rfl rfl rfl

lemma Owned.delete (hs : Owned s) (c : ℕ) (fault : Option String) : Owned (s.delete c fault) := by
  cases fault with
  | some err => exact hs.setCall c (by simp)
  | none =>
    refine Owned.setCall (s := { s.dropAccount with log := s.log ++ [(c, Op.delete)] }) ?_ c
      (by simp)
    refine ⟨?_, ?_, hs.viewed⟩
    · rintro row ⟨⟩
    · rintro q ⟨⟩

lemma Owned.saveQuota (hs : Owned s) (c : ℕ) {credential : Credential} (raw : String)
    (fault : Option String) (hmatch : fault = none → s.StoredID credential.accountID) :
    Owned (s.saveQuota c credential raw fault) := by
  cases fault with
  | some err => exact hs.setCall c (by simp)
  | none =>
    refine Owned.setCall (s := { s with quota := some ⟨raw, toUnixMilli s.now, _⟩ })
      ⟨hs.account, ?_, hs.viewed⟩ c (by simp)
    rintro q hq
    cases hq
    exact hmatch rfl

lemma Owned.getQuota (hs : Owned s) (c : ℕ) {row : Account} (fault : Option String)
    (hmatch : fault = none → s.StoredID row.chatGPTAccountID) :
    Owned (s.getQuota c row fault) := by
  cases fault with
  | some err => exact hs.setCall c (by simp)
  | none =>
    refine hs.setCall c fun row' quota h => ?_
    cases hquota : s.quota with
    | none => rw [hquota] at h; cases h
    | some stored =>
      rw [hquota, Call.viewed.injEq, Option.some.injEq, Option.filter_eq_some_iff] at h
      obtain ⟨rfl, hq, -⟩ := h
      obtain rfl := Option.some.inj hq
      exact Option.some.inj ((hs.quota _ hquota).symm.trans (hmatch rfl))

lemma Owned.recheck (hs : Owned s) (c : ℕ) (kind : Kind) (fault : Option String) :
    Owned (s.recheck k c kind fault) := by
  simp only [Manager.recheck]
  split
  · exact hs.setCall c (by simp)
  · split
    · exact hs.setCall c (by simp)
    · split
      · exact hs.setCall c (by simp)
      · exact Owned.setCall (s := { s with requests := c :: s.requests })
          (hs.of_same rfl rfl rfl) c (by simp)

lemma Owned.step {e : Event} (hs : Owned s) (hgood : s.Matching e) (h : s.step k e = some t) :
    Owned t := by
  cases e with
  | save c nonces fault =>
    simp only [Manager.step] at h
    split at h
    · cases h
      exact hs.save ..
    · cases h
      exact hs.save ..
    · cases h
  | delete c fault =>
    simp only [Manager.step] at h
    split at h
    · cases h
      exact hs.delete c fault
    · cases h
  | saveQuota c fault =>
    simp only [Manager.step] at h
    split at h
    · rename_i credential raw hp
      cases h
      -- the account may have been replaced since the report was asked for
      refine hs.saveQuota c raw fault ?_
      rintro rfl
      exact hgood _ (by simp [quotaAccount, hp])
    · cases h
  | getQuota c fault =>
    simp only [Manager.step] at h
    split at h
    · rename_i row hp
      cases h
      refine hs.getQuota c fault ?_
      rintro rfl
      exact hgood _ (by simp [quotaAccount, hp])
    · cases h
  | tick d =>
    cases h
    exact ⟨hs.account, hs.quota, hs.viewed⟩
  | unlock c =>
    simp only [Manager.step] at h
    split at h
    · rename_i kind result hp
      cases h
      refine Owned.setCall (s := { s with lock := none }) (hs.of_same rfl rfl rfl) c ?_
      cases kind <;> rcases result with err | _ | credential <;> simp [conclude]
    · cases h
  | freshCredential c quota fault =>
    simp only [Manager.step, freshCredential] at h
    repeat' split at h
    all_goals cases h
    all_goals refine hs.setCall c ?_
    all_goals cases quota <;> simp [conclude]
  | lock c =>
    simp only [Manager.step] at h
    split at h
    · rename_i kind hfree hp
      cases h
      exact Owned.setCall (s := { s with lock := some c }) (hs.of_same rfl rfl rfl) c (by simp)
    · cases h
  | recheck c fault =>
    simp only [Manager.step] at h
    split at h
    · cases h
      exact hs.recheck c .fresh fault
    · cases h
      exact hs.recheck c .fetchQuota fault
    · cases h
  | _ =>
    simp only [Manager.step, Manager.tokens, quotaAnswer, getAccount] at h
    repeat' split at h
    all_goals cases h
    all_goals exact hs.setCall _ (by simp)

variable (k) in
/-- **The quota belongs to the account it is shown with**, in every run in which each quota is
saved and read while the account it belongs to is stored. -/
theorem quota_belongs_to_account (now : ℤ) {es : List Event}
    (hgood : (system k now).Along Matching (system k now).start es)
    (hrun : (system k now).run (system k now).start es = some s) :
    ∀ c row q, s.calls c = .viewed (some row) (some q) → q.owner = row.chatGPTAccountID :=
  (TransitionSystem.run_invariant_along Owned
    (fun _ _ _ hs hgood h => Owned.step hs hgood h) (owned_start now) hgood hrun).viewed

/-- Two accounts, of which the second replaces the first. -/
def sampleCredential (id : String) : Credential :=
  ⟨"a@b", id, "plus", "access", "refresh", "", unixMilli 4102444800000, 0⟩

/-- A fetch for the first account that has got its answer. -/
def fetchedSample : List Event :=
  [.replaceCredential 0 (sampleCredential "acct_a"), .lock 0, .save 0 (fun _ => "n") none,
    .unlock 0, .freshCredential 1 true none, .quotaAnswer 1 (.ok "\x7b\x7d")]

/-- The second account is connected before the fetch saves its quota. -/
def replacedSample : List Event :=
  fetchedSample ++ [.replaceCredential 2 (sampleCredential "acct_b"), .lock 2,
    .save 2 (fun _ => "n") none, .unlock 2, .saveQuota 1 none, .getAccount 3 none,
    .getQuota 3 none]

/-- What the view reports: the account id, and whom the quota belongs to. -/
def reported (s : Manager) (c : ℕ) : Option (String × String) :=
  match s.calls c with
  | .viewed (some row) (some q) => some (row.chatGPTAccountID, q.owner)
  | _ => none

lemma reported_eq {c : ℕ} {id owner : String} (h : s.reported c = some (id, owner)) :
    ∃ row q, s.calls c = .viewed (some row) (some q) ∧ row.chatGPTAccountID = id ∧
      q.owner = owner := by
  simp only [reported] at h
  split at h
  · rename_i row q hc
    cases h
    exact ⟨row, q, hc, rfl, rfl⟩
  · cases h

theorem quota_of_other_account :
    ¬ ∀ es s, (system sampleProvider 1000).run (system sampleProvider 1000).start es = some s →
      ∀ c row q, s.calls c = .viewed (some row) (some q) → q.owner = row.chatGPTAccountID := by
  intro h
  have hrun : (((system sampleProvider 1000).run (system sampleProvider 1000).start
      replacedSample).any fun s => s.reported 3 == some ("acct_b", "acct_a")) = true := by
    decide
  obtain ⟨s, hs, hrep⟩ := (Option.any_eq_true _ _).mp hrun
  obtain ⟨row, q, hc, hid, hown⟩ := reported_eq (beq_iff_eq.mp hrep)
  have := h replacedSample s hs 3 row q hc
  rw [hid, hown] at this
  exact absurd this (by decide)

/-- The fetch saves its quota before another account comes. -/
def matchingSample : List Event :=
  fetchedSample ++ [.saveQuota 1 none, .getAccount 3 none, .getQuota 3 none]

theorem quota_belongs_to_account_matching :
    ∃ s row q, (system sampleProvider 1000).run (system sampleProvider 1000).start matchingSample =
      some s ∧ s.calls 3 = .viewed (some row) (some q) ∧ q.owner = row.chatGPTAccountID := by
  have hrun : (((system sampleProvider 1000).run (system sampleProvider 1000).start
      matchingSample).any fun s => s.reported 3 == some ("acct_a", "acct_a")) = true := by
    decide
  have hgood : (system sampleProvider 1000).Along Matching (system sampleProvider 1000).start
      matchingSample := by decide
  obtain ⟨s, hs, hrep⟩ := (Option.any_eq_true _ _).mp hrun
  obtain ⟨row, q, hc, -, -⟩ := reported_eq (beq_iff_eq.mp hrep)
  exact ⟨s, row, q, hs, hc, quota_belongs_to_account sampleProvider 1000 hgood hs 3 row q hc⟩

end CodexOne.Codex.Manager
