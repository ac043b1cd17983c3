import CodexOne.Credentials

/-!
The stored account under any interleaving of refreshes, replacements and deletions.

The writes are made one after the other under the lock, so the log of the writes is a sequential
order that explains the stored account, and the row that a refresh has read is still the stored
one when it writes.
-/

namespace CodexOne.Codex.Manager

variable {k : Provider} {s t : Manager}

/-- A call that is refreshing was made for a credential, and works on the stored row. -/
def Current (k : Provider) (account : Option Account) : Call → Prop
  | .requested kind row => (kind = .fresh ∨ kind = .fetchQuota) ∧ account = some row
  | .refreshed kind row tokens answered credential => (kind = .fresh ∨ kind = .fetchQuota) ∧
    account = some row ∧ k.refreshed row tokens answered = .ok credential
  | _ => True

/-- The log explains the account; the lock is held by whoever is in the critical section; and the
calls in the log are those that have written. -/
structure Serial (k : Provider) (s : Manager) : Prop where
  account : s.account = (s.log.map Prod.snd).foldl k.apply none
  lock : ∀ c, (s.calls c).critical = true ↔ s.lock = some c
  current : ∀ c, Current k s.account (s.calls c)
  once : (s.log.map Prod.fst).Nodup
  past : ∀ c ∈ s.log.map Prod.fst, (s.calls c).past = true
  replaced : ∀ c credential, (s.calls c).done = some (.replace credential) →
    ∃ nonces now, (c, Op.replace credential nonces now) ∈ s.log
  deleted : ∀ c, (s.calls c).done = some .delete → (c, Op.delete) ∈ s.log

lemma serial_start (now : ℤ) : Serial k (system k now).start := by
  refine ⟨rfl, ?_, ?_, List.nodup_nil, ?_, ?_, ?_⟩
  · intro c
    simp [system, Call.critical]
  · intro c
    trivial
  · rintro c ⟨⟩
  · rintro c credential ⟨⟩
  · rintro c ⟨⟩

lemma Goes.at {c : ℕ} {q : Call} (h : Goes s t c q) : t.calls c = q := by
  rw [h.calls, Function.update_self]

lemma Goes.other {c d : ℕ} {q : Call} (h : Goes s t c q) (hd : d ≠ c) : t.calls d = s.calls d := by
  rw [h.calls, Function.update_of_ne hd]

/-- What every call satisfies after a step it satisfies if the moving one does and the others did
already. -/
lemma Goes.forall {c : ℕ} {q : Call} (h : Goes s t c q) {p : ℕ → Call → Prop}
    (hs : ∀ d, d ≠ c → p d (s.calls d)) (hq : p c q) : ∀ d, p d (t.calls d) := by
  intro d
  by_cases hd : d = c
  · rw [hd, h.at]
    exact hq
  · rw [h.other hd]
    exact hs d hd

lemma Serial.of_quiet {c : ℕ} {q : Call} (hs : Serial k s) (hgoes : Goes s t c q)
    (haccount : t.account = s.account) (hlog : t.log = s.log)
    (hlock : ∀ d, (t.calls d).critical = true ↔ t.lock = some d)
    (hcurrent : Current k s.account q) (hpast : (s.calls c).past = true → q.past = true)
    (hdone : ∀ kind, q.done = some kind → (s.calls c).done = some kind ∨
      (∀ credential, kind ≠ .replace credential) ∧ kind ≠ .delete) : Serial k t := by
  refine ⟨?_, hlock, ?_, hlog ▸ hs.once, ?_, ?_, ?_⟩
  · rw [haccount, hlog]
    exact hs.account
  · rw [haccount]
    exact hgoes.forall (p := fun _ r => Current k s.account r) (fun d _ => hs.current d) hcurrent
  · rw [hlog]
    exact hgoes.forall (p := fun d r => d ∈ s.log.map Prod.fst → r.past = true)
      (fun d _ => hs.past d) fun hmem => hpast (hs.past c hmem)
  · rw [hlog]
    refine hgoes.forall (p := fun d r => ∀ credential, r.done = some (.replace credential) →
      ∃ nonces now, (d, Op.replace credential nonces now) ∈ s.log) (fun d _ => hs.replaced d)
      fun credential hq => ?_
    rcases hdone _ hq with h | h
    · exact hs.replaced c credential h
    · exact absurd rfl (h.1 credential)
  · rw [hlog]
    refine hgoes.forall (p := fun d r => r.done = some .delete → (d, Op.delete) ∈ s.log)
      (fun d _ => hs.deleted d) fun hq => ?_
    rcases hdone _ hq with h | h
    · exact hs.deleted c h
    · exact absurd rfl h.2

lemma Serial.same_lock {c : ℕ} {q : Call} (hs : Serial k s) (hgoes : Goes s t c q)
    (hlock : t.lock = s.lock) (hcrit : q.critical = (s.calls c).critical) :
    ∀ d, (t.calls d).critical = true ↔ t.lock = some d := by
  rw [hlock]
  exact hgoes.forall (p := fun d r => r.critical = true ↔ s.lock = some d)
    (fun d _ => hs.lock d) (by rw [hcrit]; exact hs.lock c)

lemma Current.of_outside {account : Option Account} {q : Call} (hq : q.critical = false) :
    Current k account q := by
  cases q <;> trivial

lemma Writes.apply {now : ℤ} {p : Call} {kind : Kind} {account account' : Option Account} {op : Op}
    (h : Writes k now p kind account' op) (hp : Current k account p) :
    account' = k.apply account op := by
  cases h with
  | replace credential nonces row hrow => rw [Provider.apply, hrow]
  | delete => rfl
  | refresh kind old tokens answered credential nonces row hrow =>
    obtain ⟨-, rfl, href⟩ := hp
    have hboth : (do k.saveCredential (← k.refreshed old tokens answered) nonces now) =
        .ok row := by
      rw [href]
      exact hrow
    rw [Provider.apply, hboth]

lemma Writes.critical {now : ℤ} {p : Call} {kind : Kind} {account : Option Account} {op : Op}
    (h : Writes k now p kind account op) : p.critical = true ∧ p.past = false := by
  cases h <;> exact ⟨rfl, rfl⟩

lemma Writes.op {now : ℤ} {p : Call} {kind : Kind} {account account' : Option Account} {op : Op}
    (h : Writes k now p kind account' op) (hp : Current k account p) :
    (∀ credential, kind = .replace credential →
      ∃ nonces, op = .replace credential nonces now) ∧ (kind = .delete → op = .delete) := by
  cases h with
  | replace credential nonces row hrow =>
    refine ⟨fun cred hcred => ?_, nofun⟩
    cases hcred
    exact ⟨nonces, rfl⟩
  | delete => exact ⟨fun _ => nofun, fun _ => rfl⟩
  | refresh kind old tokens answered credential nonces row hrow =>
    rcases hp.1 with rfl | rfl <;> exact ⟨fun _ => nofun, nofun⟩

lemma Serial.writes {c : ℕ} {kind : Kind} {op : Op} {result : Option Credential}
    (hs : Serial k s) (hgoes : Goes s t c (.unlocking kind (.ok result)))
    (hlock : t.lock = s.lock) (hlog : t.log = s.log ++ [(c, op)])
    (hop : Writes k s.now (s.calls c) kind t.account op) : Serial k t := by
  obtain ⟨hcrit, hpast⟩ := hop.critical
  have hholds : s.lock = some c := (hs.lock c).mp hcrit
  have hnew : c ∉ s.log.map Prod.fst := fun hmem => by
    have := hs.past c hmem
    rw [hpast] at this
    cases this
  refine ⟨?_, ?_, ?_, ?_, ?_, ?_, ?_⟩
  · rw [hlog, List.map_append, List.foldl_append, ← hs.account]
    exact hop.apply (hs.current c)
  · exact hs.same_lock hgoes hlock (by rw [hcrit]; rfl)
  · -- nobody else is in the critical section
    refine hgoes.forall (p := fun _ r => Current k t.account r) (fun d hd => ?_) trivial
    refine Current.of_outside ?_
    rw [Bool.eq_false_iff]
    intro hdcrit
    have := (hs.lock d).mp hdcrit
    rw [hholds] at this
    exact hd (Option.some.inj this).symm
  · rw [hlog, List.map_append]
    refine List.nodup_append.mpr ⟨hs.once, List.pairwise_singleton _ c, fun d hd d' hd' hdd => ?_⟩
    rw [hdd, List.mem_singleton.mp hd'] at hd
    exact hnew hd
  · rw [hlog, List.map_append]
    refine hgoes.forall (p := fun d r => d ∈ s.log.map Prod.fst ++ _ → r.past = true)
      (fun d hd hmem => ?_) fun _ => rfl
    rcases List.mem_append.mp hmem with hmem | hmem
    · exact hs.past d hmem
    · exact absurd (List.mem_singleton.mp hmem) hd
  · rw [hlog]
    refine hgoes.forall (p := fun d r => ∀ credential, r.done = some (.replace credential) →
      ∃ nonces now, (d, Op.replace credential nonces now) ∈ s.log ++ _) (fun d _ cred hd => ?_)
      fun cred hq => ?_
    · obtain ⟨nonces, now, hmem⟩ := hs.replaced d cred hd
      exact ⟨nonces, now, List.mem_append_left _ hmem⟩
    · obtain ⟨nonces, rfl⟩ := (hop.op (hs.current c)).1 cred (Option.some.inj hq)
      exact ⟨nonces, s.now, List.mem_append_right _ (List.mem_singleton_self _)⟩
  · rw [hlog]
    refine hgoes.forall (p := fun d r => r.done = some .delete → (d, Op.delete) ∈ s.log ++ _)
      (fun d _ hd => List.mem_append_left _ (hs.deleted d hd)) fun hq => ?_
    obtain rfl := (hop.op (hs.current c)).2 (Option.some.inj hq)
    exact List.mem_append_right _ (List.mem_singleton_self _)

lemma Serial.moves {c : ℕ} (hs : Serial k s) (h : Moves k s t c) : Serial k t := by
  cases h with
  | outside q hgoes hquiet hlock hp hq hpast hdone hearly =>
    refine hs.of_quiet hgoes hquiet.account hquiet.log (hs.same_lock hgoes hlock (hq.trans hp.symm))
      (Current.of_outside hq) hpast fun kind hkind => .inr ?_
    rcases hdone with hdone | hdone <;> rw [hdone] at hkind <;> cases hkind
    exact ⟨fun _ => nofun, nofun⟩
  | locks kind hgoes hquiet hfree hlock hp =>
    refine hs.of_quiet hgoes hquiet.account hquiet.log ?_ trivial (by rw [hp]; nofun) nofun
    refine hgoes.forall (p := fun d r => r.critical = true ↔ t.lock = some d) (fun d hd => ?_)
      (by simp [Call.critical, hlock])
    have hnot := hs.lock d
    rw [hfree] at hnot
    rw [hnot, hlock]
    simp [Ne.symm hd]
  -- the row is read under the lock, so it is the current one
  | asks kind row credential hkind hgoes hlock haccount hlog hrequests hp hrow hread hlasts =>
    refine hs.of_quiet hgoes haccount hlog (hs.same_lock hgoes hlock (by rw [hp]; rfl))
      ⟨hkind, hrow⟩ (by rw [hp]; nofun) nofun
  | answers kind row tokens credential hgoes hquiet hlock hp href =>
    have hcurrent := hs.current c
    rw [hp] at hcurrent
    exact hs.of_quiet hgoes hquiet.account hquiet.log (hs.same_lock hgoes hlock (by rw [hp]; rfl))
      ⟨hcurrent.1, hcurrent.2, href⟩ (by rw [hp]; nofun) nofun
  | fails kind err hgoes hquiet hlock hp hpast =>
    exact hs.of_quiet hgoes hquiet.account hquiet.log (hs.same_lock hgoes hlock (hp ▸ rfl))
      trivial (by rw [hpast]; nofun) nofun
  | keeps kind credential hkind hgoes hquiet hlock hp =>
    refine hs.of_quiet hgoes hquiet.account hquiet.log (hs.same_lock hgoes hlock (by rw [hp]; rfl))
      trivial (by rw [hp]; nofun) fun kind' hkind' => .inr ?_
    obtain rfl : kind = kind' := Option.some.inj hkind'
    rcases hkind with rfl | rfl <;> exact ⟨fun _ => nofun, nofun⟩
  -- the one move that appends to the log
  | writes kind op result hgoes hlock hlog hrequests hop => exact hs.writes hgoes hlock hlog hop
  | unlocks kind result hgoes hquiet hlock hp =>
    have hholds : s.lock = some c := (hs.lock c).mp (by rw [hp]; rfl)
    refine hs.of_quiet hgoes hquiet.account hquiet.log ?_
      (Current.of_outside (conclude_critical kind result)) ?_ ?_
    · refine hgoes.forall (p := fun d r => r.critical = true ↔ t.lock = some d) (fun d hd => ?_)
        (by simp [conclude_critical, hlock])
      rw [hs.lock d, hholds, hlock]
      simp [Ne.symm hd]
    · rw [hp]
      cases kind <;> rcases result with err | _ | credential <;> simp [conclude, Call.past]
    · rw [hp]
      intro kind' hkind'
      cases kind <;> rcases result with err | _ | credential <;>
        simp_all [conclude, Call.done]

lemma Serial.step {e : Event} (hs : Serial k s) (h : s.step k e = some t) : Serial k t := by
  rcases step_moves h with ⟨d, rfl⟩ | ⟨c, h⟩
  · exact ⟨hs.account, hs.lock, hs.current, hs.once, hs.past, hs.replaced, hs.deleted⟩
  · exact hs.moves h

lemma serial_of_reach {now : ℤ} (hs : (system k now).Reach s) : Serial k s :=
  hs.invariant (serial_start now) fun _ _ _ hs h => Serial.step hs h

/-! ### The order of the writes -/

/-- A move is quiet, or sends a token request, or writes. -/
inductive Acts (k : Provider) (s t : Manager) (c : ℕ) : Prop where
  | quiet (h : Quiet s t)
  | asks (kind : Kind) (row : Account) (credential : Credential)
      (haccount : t.account = s.account) (hlog : t.log = s.log)
      (hrequests : t.requests = c :: s.requests) (hp : s.calls c = .locked kind)
      (hq : t.calls c = .requested kind row) (hrow : s.account = some row)
      (hread : k.credential row = .ok credential) (hlasts : ¬ Lasts credential s.now)
  | writes (op : Op) (hlog : t.log = s.log ++ [(c, op)]) (hrequests : t.requests = s.requests)
      (hcrit : (s.calls c).critical = true)

lemma Moves.acts {c : ℕ} (h : Moves k s t c) : Acts k s t c := by
  cases h with
  | outside _ _ hquiet => exact .quiet hquiet
  | locks _ _ hquiet => exact .quiet hquiet
  | asks kind row credential _ hgoes _ haccount hlog hrequests hp hrow hread hlasts =>
    exact .asks kind row credential haccount hlog hrequests hp hgoes.at hrow hread hlasts
  | answers _ _ _ _ _ hquiet => exact .quiet hquiet
  | fails _ _ _ hquiet => exact .quiet hquiet
  | keeps _ _ _ _ hquiet => exact .quiet hquiet
  | writes _ op _ _ _ hlog hrequests hop => exact .writes op hlog hrequests hop.critical.1
  | unlocks _ _ _ hquiet => exact .quiet hquiet

lemma Moves.goes {c : ℕ} (h : Moves k s t c) : ∃ q, Goes s t c q := by
  cases h with
  | outside _ hgoes => exact ⟨_, hgoes⟩
  | locks _ hgoes => exact ⟨_, hgoes⟩
  | asks _ _ _ _ hgoes => exact ⟨_, hgoes⟩
  | answers _ _ _ _ hgoes => exact ⟨_, hgoes⟩
  | fails _ _ hgoes => exact ⟨_, hgoes⟩
  | keeps _ _ _ hgoes => exact ⟨_, hgoes⟩
  | writes _ _ _ hgoes => exact ⟨_, hgoes⟩
  | unlocks _ _ hgoes => exact ⟨_, hgoes⟩

lemma log_prefix_step {e : Event} (h : s.step k e = some t) : s.log <+: t.log := by
  rcases step_moves h with ⟨d, rfl⟩ | ⟨c, h⟩
  · exact List.prefix_rfl
  · cases h.acts with
    | quiet h => exact h.log ▸ List.prefix_rfl
    | asks _ _ _ _ hlog => exact hlog ▸ List.prefix_rfl
    | writes op hlog => exact ⟨[(c, op)], hlog.symm⟩

lemma log_prefix_run {now : ℤ} {es : List Event} (h : (system k now).run s es = some t) :
    s.log <+: t.log :=
  TransitionSystem.run_rel (fun s t : Manager => s.log <+: t.log)
    (fun _ => List.prefix_rfl) (fun _ _ _ => List.IsPrefix.trans)
    (fun _ _ _ h => log_prefix_step h) h

lemma account_of_log {e : Event} (h : s.step k e = some t) (hlog : t.log = s.log) :
    t.account = s.account := by
  rcases step_moves h with ⟨d, rfl⟩ | ⟨c, h⟩
  · rfl
  · cases h.acts with
    | quiet h => exact h.account
    | asks _ _ _ haccount => exact haccount
    | writes op hlog' =>
      rw [hlog'] at hlog
      exact absurd hlog (by simp)

lemma now_step {e : Event} (h : s.step k e = some t) : s.now ≤ t.now := by
  rcases step_moves h with ⟨d, rfl⟩ | ⟨c, h⟩
  · exact Int.le_add_of_nonneg_right (Int.natCast_nonneg d)
  · obtain ⟨q, hgoes⟩ := h.goes
    exact hgoes.now.ge

lemma credential_expiresAt {row : Account} {credential : Credential}
    (h : k.credential row = .ok credential) : credential.expiresAt = unixMilli row.expiresAt := by
  rw [Provider.credential] at h
  cases h1 : k.decrypt row.accessTokenEncrypted with
  | error err => rw [h1] at h; cases h
  | ok access =>
    cases h2 : k.decrypt row.refreshTokenEncrypted with
    | error err => rw [h1, h2] at h; cases h
    | ok refresh =>
      cases h3 : k.decrypt row.idTokenEncrypted with
      | error err => rw [h1, h2, h3] at h; cases h
      | ok idToken =>
        rw [h1, h2, h3] at h
        cases h
        rfl

lemma refreshing_critical {q : Call} (h : q.refreshing = true) : q.critical = true := by
  cases q <;> first | rfl | cases h

lemma conclude_beyond (kind : Kind) (result : Except String (Option Credential)) :
    (conclude kind result).early = false ∧ (conclude kind result).refreshing = false := by
  cases kind <;> rcases result with err | _ | credential <;> exact ⟨rfl, rfl⟩

lemma beyond_outside {q : Call} (h : q.critical = false) : q.refreshing = false := by
  rw [Bool.eq_false_iff]
  intro hq
  rw [refreshing_critical hq] at h
  cases h

/-- While a call is refreshing nobody asks for a token, and it is done with that afterwards. -/
lemma refreshing_step {e : Event} {c : ℕ} (hs : Serial k s)
    (hc : (s.calls c).refreshing = true) (h : s.step k e = some t) :
    t.requests = s.requests ∧ ((t.calls c).refreshing = true ∨
      (t.calls c).early = false ∧ (t.calls c).refreshing = false) := by
  rcases step_moves h with ⟨d, rfl⟩ | ⟨d, h⟩
  · exact ⟨rfl, .inl hc⟩
  · have hholds : s.lock = some c := (hs.lock c).mp (refreshing_critical hc)
    refine ⟨?_, ?_⟩
    · cases h.acts with
      | quiet h => exact h.requests
      | asks _ _ _ _ _ _ hp =>
        -- it would hold the lock too
        have hd := (hs.lock d).mp (by rw [hp]; rfl)
        rw [hholds] at hd
        cases hd
        rw [hp] at hc
        cases hc
      | writes _ _ hrequests => exact hrequests
    · by_cases hdc : c = d
      · subst hdc
        cases h with
        | outside q _ _ _ hp => rw [refreshing_critical hc] at hp; cases hp
        | locks _ _ _ _ _ hp => rw [hp] at hc; cases hc
        | asks _ _ _ _ hgoes => exact .inl (by rw [hgoes.at]; rfl)
        | answers _ _ _ _ hgoes => exact .inl (by rw [hgoes.at]; rfl)
        | fails _ _ hgoes => exact .inr (by rw [hgoes.at]; exact ⟨rfl, rfl⟩)
        | keeps _ _ _ hgoes => exact .inr (by rw [hgoes.at]; exact ⟨rfl, rfl⟩)
        | writes _ _ _ hgoes => exact .inr (by rw [hgoes.at]; exact ⟨rfl, rfl⟩)
        | unlocks kind result hgoes => exact .inr (by rw [hgoes.at]; exact conclude_beyond ..)
      · obtain ⟨q, hgoes⟩ := h.goes
        rw [hgoes.other hdc]
        exact .inl hc

lemma beyond_step {e : Event} {c : ℕ}
    (hc : (s.calls c).early = false ∧ (s.calls c).refreshing = false)
    (h : s.step k e = some t) : (t.calls c).early = false ∧ (t.calls c).refreshing = false := by
  rcases step_moves h with ⟨d, rfl⟩ | ⟨d, h⟩
  · exact hc
  · by_cases hdc : c = d
    · subst hdc
      cases h with
      | outside q hgoes _ _ _ hq _ _ hearly =>
        rw [hgoes.at]
        exact ⟨hearly hc.1, beyond_outside hq⟩
      | locks _ _ _ _ _ hp => rw [hp] at hc; cases hc.1
      | asks _ _ _ _ _ _ _ _ _ hp => rw [hp] at hc; cases hc.1
      | answers _ _ _ _ _ _ _ hp => rw [hp] at hc; cases hc.2
      | fails _ _ hgoes => rw [hgoes.at]; exact ⟨rfl, rfl⟩
      | keeps _ _ _ hgoes => rw [hgoes.at]; exact ⟨rfl, rfl⟩
      | writes _ _ _ hgoes => rw [hgoes.at]; exact ⟨rfl, rfl⟩
      | unlocks kind result hgoes => rw [hgoes.at]; exact conclude_beyond ..
    · obtain ⟨q, hgoes⟩ := h.goes
      rw [hgoes.other hdc]
      exact hc

lemma requests_while_refreshing {now : ℤ} {u : Manager} {c : ℕ} {es : List Event}
    (hs : Serial k s) (hc : (s.calls c).refreshing = true)
    (h : (system k now).run s es = some u) (hu : (u.calls c).refreshing = true) :
    u.requests = s.requests := by
  have hinv := TransitionSystem.run_invariant (fun u => Serial k u ∧
      ((u.calls c).refreshing = true ∧ u.requests = s.requests ∨
        (u.calls c).early = false ∧ (u.calls c).refreshing = false))
    ?_ ⟨hs, .inl ⟨hc, rfl⟩⟩ h
  · rcases hinv.2 with hinv | hinv
    · exact hinv.2
    · rw [hinv.2] at hu
      cases hu
  · rintro a e b ⟨ha, hac⟩ hab
    refine ⟨ha.step hab, ?_⟩
    rcases hac with ⟨hac, hreq⟩ | hac
    · obtain ⟨hsame, hphase⟩ := refreshing_step ha hac hab
      exact hphase.imp_left fun hphase => ⟨hphase, hsame.trans hreq⟩
    · exact .inr (beyond_step hac hab)

lemma requests_while_lasting {now : ℤ} {row : Account} {es : List Event}
    (hrow : s.account = some row) (h : (system k now).run s es = some t) (hlog : t.log = s.log)
    (hlasts : t.now + 2 * 60 * 1000000000 < unixMilli row.expiresAt) :
    t.requests = s.requests := by
  have hinv := TransitionSystem.run_invariant (fun u => s.log <+: u.log ∧
      (u.log = s.log → u.account = some row ∧
        (u.now + 2 * 60 * 1000000000 < unixMilli row.expiresAt → u.requests = s.requests)))
    ?_ ⟨List.prefix_rfl, fun _ => ⟨hrow, fun _ => rfl⟩⟩ h
  · exact (hinv.2 hlog).2 hlasts
  · rintro a e b ⟨hpre, ha⟩ hab
    have hpre' := log_prefix_step hab
    refine ⟨hpre.trans hpre', fun hb => ?_⟩
    have halog : a.log = s.log :=
      (hpre.eq_of_length_le (hb ▸ hpre' : a.log <+: s.log).length_le).symm
    obtain ⟨harow, hareq⟩ := ha halog
    refine ⟨(account_of_log hab (hb.trans halog.symm)).trans harow, fun hblasts => ?_⟩
    have hnow := now_step hab
    have hareq := hareq (by omega)
    rcases step_moves hab with ⟨d, rfl⟩ | ⟨c, hmoves⟩
    · exact hareq
    · cases hmoves.acts with
      | quiet h => exact h.requests.trans hareq
      | asks kind row' credential _ _ _ _ _ hrow' hread hnot =>
        -- the credential that was read is the stored one, which lasts
        rw [harow] at hrow'
        cases hrow'
        refine absurd ?_ hnot
        rw [Lasts, credential_expiresAt hread]
        omega
      | writes _ _ hrequests => exact hrequests.trans hareq

/-- An account that has expired, which two calls find before one of them sends its request. -/
def refreshingSample : List Event :=
  [.replaceCredential 0 ⟨"a@b", "acct", "plus", "access", "refresh", "", 0, 0⟩, .lock 0,
    .save 0 (fun _ => "n") none, .unlock 0, .freshCredential 1 false none,
    .freshCredential 2 false none, .lock 1, .recheck 1 none]

end CodexOne.Codex.Manager
