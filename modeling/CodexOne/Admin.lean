import CodexOne.Lib.GoStrings
import CodexOne.Lib.Transition
import CodexOne.Sessions

/-!
Signing in as the administrator, signing out and changing the password.

Each handler is a few accesses to the settings and to the session store with local work between
them; every access is one step, and any number of handlers run at once. A store may fail an
access, and may report a failure of a write that it did carry out.
-/

namespace CodexOne

/-- The digests: `HashSecret`, and bcrypt's comparison. -/
structure Security where
  hashSecret : String → String
  checkPassword : String → String → Bool

namespace Security

def validatePassword (password : String) : Except String Unit :=
  if (GoStrings.trimSpace password).utf8ByteSize < 12 then
    .error "password must contain at least 12 characters"
  else if password.utf8ByteSize > 256 then .error "password is too long"
  else .ok ()

variable (sec : Security)

def adminSessionValue (passwordHash : String) : String :=
  "authenticated:" ++ sec.hashSecret passwordHash

def adminSessionKey (token : String) : String := "admin:" ++ sec.hashSecret token

variable {sec}

lemma adminSessionValue_inj (h : Function.Injective sec.hashSecret) {a b : String} :
    sec.adminSessionValue a = sec.adminSessionValue b ↔ a = b := by
  rw [adminSessionValue, adminSessionValue, String.append_right_inj]
  exact h.eq_iff

lemma adminSessionKey_inj (h : Function.Injective sec.hashSecret) {a b : String} :
    sec.adminSessionKey a = sec.adminSessionKey b ↔ a = b := by
  rw [adminSessionKey, adminSessionKey, String.append_right_inj]
  exact h.eq_iff

end Security

/-- How a store answers: the access is done, or it failed, or it was done and reported as
failed. -/
inductive Access where
  | done
  | failed
  | unacknowledged

inductive LoginCall where
  | notCalled
  | checked (hash : String)
  | issued (token : String)
  | refused

inductive ChangeCall where
  | notCalled
  | verified (next : String)
  | updated
  | refused

/-- `adminSessionAuthenticated` on a token: the session value it found, then its answer. -/
inductive CheckCall where
  | notCalled
  | found (token value : String)
  | answered (token : String) (authenticated : Bool)
  | failed (token : String)

/-- What is remembered of a token that was put into the store: the hash its login checked the
password against, when it was put, and whether it was logged out. -/
structure Issued where
  hash : String
  issuedAt : ℤ
  loggedOut : Bool

def Issued.logOut (r : Issued) : Issued := { r with loggedOut := true }

/-- The stores and everyone who uses them. `setting` is the stored password hash. `hashes` and
`tokens` list the hashes and the tokens generated so far. -/
structure Admin (σ : Type) where
  setting : Option String
  sessions : σ
  now : ℤ
  logins : ℕ → LoginCall
  changes : ℕ → ChangeCall
  checks : ℕ → CheckCall
  hashes : List String
  tokens : List String
  issued : String → Option Issued

namespace Admin

variable {σ : Type}

inductive Event where
  | loginRead (login : ℕ) (password : String) (access : Access)
  | loginPut (login : ℕ) (token : String) (access : Access)
  | loginFails (login : ℕ)
  | logout (token : String) (access : Access)
  | changeRead (change : ℕ) (current next : String) (access : Access)
  | changeWrite (change : ℕ) (hash : String) (access : Access)
  | changeFails (change : ℕ)
  | check (check : ℕ) (token : String) (access : Access)
  | checkSetting (check : ℕ) (access : Access)
  | tick (d : ℕ)

def setLogin (s : Admin σ) (l : ℕ) (call : LoginCall) : Admin σ :=
  { s with logins := Function.update s.logins l call }

def setChange (s : Admin σ) (c : ℕ) (call : ChangeCall) : Admin σ :=
  { s with changes := Function.update s.changes c call }

def setCheck (s : Admin σ) (c : ℕ) (call : CheckCall) : Admin σ :=
  { s with checks := Function.update s.checks c call }

lemma setLogin_logins (s : Admin σ) (l l' : ℕ) (call : LoginCall) :
    (s.setLogin l call).logins l' = if l' = l then call else s.logins l' :=
  Function.update_apply ..

lemma setCheck_checks (s : Admin σ) (c c' : ℕ) (call : CheckCall) :
    (s.setCheck c call).checks c' = if c' = c then call else s.checks c' :=
  Function.update_apply ..

variable (store : SessionStore σ) (sec : Security) (sessionTTL : ℤ)

/-- The session of a login that checked the password against `hash` is put into the store. -/
def putSession (s : Admin σ) (token hash : String) : Admin σ × Option String :=
  let (sessions, err) := store.put s.sessions s.now (sec.adminSessionKey token)
    (sec.adminSessionValue hash) sessionTTL
  match err with
  | some err => ({ s with sessions }, some err)
  | none =>
    ({ s with sessions, issued := Function.update s.issued token (some ⟨hash, s.now, false⟩) },
      none)

def deleteSession (s : Admin σ) (token : String) : Admin σ :=
  { s with
    sessions := store.delete s.sessions (sec.adminSessionKey token)
    issued := Function.update s.issued token
      ((s.issued token).map Issued.logOut) }

lemma deleteSession_issued (s : Admin σ) (token other : String) :
    (s.deleteSession store sec token).issued other =
      if other = token then (s.issued token).map Issued.logOut else s.issued other :=
  Function.update_apply ..

/-- `loginHandler` up to the password check. -/
def loginRead (s : Admin σ) (l : ℕ) (password : String) : Access → Admin σ
  | .done =>
    match s.setting with
    | some hash =>
      s.setLogin l (if sec.checkPassword hash password then .checked hash else .refused)
    | none => s.setLogin l .refused
  | _ => s.setLogin l .refused

/-- `loginHandler` from the new token on. -/
def loginPut (s : Admin σ) (l : ℕ) (token hash : String) (access : Access) : Admin σ :=
  let s := { s with tokens := token :: s.tokens }
  match access with
  | .done =>
    match s.putSession store sec sessionTTL token hash with
    | (s, none) => s.setLogin l (.issued token)
    | (s, some _) => s.setLogin l .refused
  | .failed => s.setLogin l .refused
  | .unacknowledged => (s.putSession store sec sessionTTL token hash).1.setLogin l .refused

def logout (s : Admin σ) (token : String) : Access → Admin σ
  | .failed => s
  | _ => s.deleteSession store sec token

/-- `changePassword` up to the check of the current and the next password. -/
def changeRead (s : Admin σ) (c : ℕ) (current next : String) : Access → Admin σ
  | .done =>
    match s.setting with
    | some hash =>
      s.setChange c (if sec.checkPassword hash current ∧
        (Security.validatePassword next).isOk then .verified next else .refused)
    | none => s.setChange c .refused
  | _ => s.setChange c .refused

/-- `changePassword` from the new hash on. -/
def changeWrite (s : Admin σ) (c : ℕ) (hash : String) (access : Access) : Admin σ :=
  let s := { s with hashes := hash :: s.hashes }
  match access with
  | .done => { s with setting := some hash }.setChange c .updated
  | .failed => s.setChange c .refused
  | .unacknowledged => { s with setting := some hash }.setChange c .refused

/-- `adminSessionAuthenticated` up to the session value. -/
def check (s : Admin σ) (c : ℕ) (token : String) : Access → Admin σ
  | .done =>
    match store.get s.sessions s.now (sec.adminSessionKey token) with
    | (sessions, some value) => { s with sessions }.setCheck c (.found token value)
    | (sessions, none) => { s with sessions }.setCheck c (.answered token false)
  | _ => s.setCheck c (.failed token)

/-- `adminSessionAuthenticated` from the setting on. -/
def checkSetting (s : Admin σ) (c : ℕ) (token value : String) : Access → Admin σ
  | .done =>
    match s.setting with
    | some hash => s.setCheck c (.answered token (value = sec.adminSessionValue hash))
    | none => s.setCheck c (.answered token false)
  | _ => s.setCheck c (.failed token)

/-- One step. A token is never generated twice, and nor is a hash, which holds a salt. -/
def step (s : Admin σ) : Event → Option (Admin σ)
  | .loginRead l password access =>
    match s.logins l with
    | .notCalled => some (s.loginRead sec l password access)
    | _ => none
  | .loginPut l token access =>
    match s.logins l with
    | .checked hash =>
      if token ∈ s.tokens then none
      else some (s.loginPut store sec sessionTTL l token hash access)
    | _ => none
  | .loginFails l =>
    match s.logins l with
    | .checked _ => some (s.setLogin l .refused)
    | _ => none
  | .logout token access => some (s.logout store sec token access)
  | .changeRead c current next access =>
    match s.changes c with
    | .notCalled => some (s.changeRead sec c current next access)
    | _ => none
  | .changeWrite c hash access =>
    match s.changes c with
    | .verified _ => if hash ∈ s.hashes then none else some (s.changeWrite c hash access)
    | _ => none
  | .changeFails c =>
    match s.changes c with
    | .verified _ => some (s.setChange c .refused)
    | _ => none
  | .check c token access =>
    match s.checks c with
    | .notCalled => some (s.check store sec c token access)
    | _ => none
  | .checkSetting c access =>
    match s.checks c with
    | .found token value => some (s.checkSetting sec c token value access)
    | _ => none
  | .tick d => some { s with now := s.now + d }

/-- The server from its start with a stored hash, under any interleaving of handlers. -/
def system (setting : String) (now : ℤ) : TransitionSystem (Admin σ) Event where
  start := ⟨some setting, store.new, now, fun _ => .notCalled, fun _ => .notCalled,
    fun _ => .notCalled, [setting], [], fun _ => none⟩
  step := step store sec sessionTTL

/-! ### What the stores hold -/

/-- The session that is found under a token's key at a time. -/
def sessionAt (issued : Option Issued) (t : ℤ) : Option String :=
  issued.bind fun r =>
    if r.loggedOut then none
    else if store.unexpired r.issuedAt sessionTTL t then some (sec.adminSessionValue r.hash)
    else none

/-- Every hash in use was generated, and from now on the store holds exactly the sessions of the
tokens that are neither logged out nor expired. -/
structure Sound (s : Admin σ) : Prop where
  setting : ∀ h, s.setting = some h → h ∈ s.hashes
  checked : ∀ l h, s.logins l = .checked h → h ∈ s.hashes
  issued : ∀ token r, s.issued token = some r → r.hash ∈ s.hashes ∧ token ∈ s.tokens
  live : ∀ token t, s.now ≤ t → store.live s.sessions t (sec.adminSessionKey token) =
    sessionAt store sec sessionTTL (s.issued token) t
  found : ∀ c token value, s.checks c = .found token value →
    ∃ r, s.issued token = some r ∧ value = sec.adminSessionValue r.hash

variable {store sec sessionTTL} {s t : Admin σ}

lemma sound_start (setting : String) (now : ℤ) :
    Sound store sec sessionTTL (system store sec sessionTTL setting now).start := by
  refine ⟨?_, ?_, ?_, ?_, ?_⟩
  · rintro h hh
    cases hh
    exact List.mem_singleton_self _
  · rintro l h hh
    cases hh
  · rintro token r hr
    cases hr
  · intro token t _
    exact store.live_new t _
  · rintro c token value hc
    cases hc

lemma Sound.setLogin (hs : Sound store sec sessionTTL s) (l : ℕ) {call : LoginCall}
    (hcall : ∀ h, call = .checked h → h ∈ s.hashes) :
    Sound store sec sessionTTL (s.setLogin l call) := by
  refine ⟨hs.setting, fun l' h hl => ?_, hs.issued, hs.live, hs.found⟩
  rw [setLogin_logins] at hl
  split at hl
  · exact hcall h hl
  · exact hs.checked l' h hl

lemma Sound.setChange (hs : Sound store sec sessionTTL s) (c : ℕ) (call : ChangeCall) :
    Sound store sec sessionTTL (s.setChange c call) :=
  ⟨hs.setting, hs.checked, hs.issued, hs.live, hs.found⟩

lemma Sound.setCheck (hs : Sound store sec sessionTTL s) (c : ℕ) {call : CheckCall}
    (hcall : ∀ token value, call = .found token value →
      ∃ r, s.issued token = some r ∧ value = sec.adminSessionValue r.hash) :
    Sound store sec sessionTTL (s.setCheck c call) := by
  refine ⟨hs.setting, hs.checked, hs.issued, hs.live, fun c' token value hc => ?_⟩
  rw [setCheck_checks] at hc
  split at hc
  · exact hcall token value hc
  · exact hs.found c' token value hc

lemma Sound.putSession (hinj : Function.Injective sec.hashSecret)
    (hs : Sound store sec sessionTTL s) {token hash : String} (hnew : token ∉ s.tokens)
    (hhash : hash ∈ s.hashes) :
    Sound store sec sessionTTL
      ({ s with tokens := token :: s.tokens }.putSession store sec sessionTTL token hash).1 := by
  have hnone : s.issued token = none := by
    rw [Option.eq_none_iff_forall_ne_some]
    exact fun r hr => hnew (hs.issued token r hr).2
  have hkey : ∀ other, sec.adminSessionKey other = sec.adminSessionKey token ↔ other = token :=
    fun other => Security.adminSessionKey_inj hinj
  simp only [Admin.putSession]
  split
  · rename_i err herr
    refine ⟨hs.setting, hs.checked, fun other r hr => ?_, fun other t ht => ?_, hs.found⟩
    · exact (hs.issued other r hr).imp_right (List.mem_cons_of_mem _)
    · exact (store.live_put_err _ _ _ _ _ _ _ ht (by simp [herr])).trans (hs.live other t ht)
  · rename_i hok
    refine ⟨hs.setting, hs.checked, fun other r hr => ?_, fun other t ht => ?_,
      fun c other value hc => ?_⟩ <;> dsimp only at *
    · rw [Function.update_apply] at hr
      split at hr
      · rename_i hother
        cases hr
        exact ⟨hhash, hother ▸ List.mem_cons_self⟩
      · exact (hs.issued other r hr).imp_right (List.mem_cons_of_mem _)
    · refine (store.live_put _ _ _ _ _ _ _ ht hok).trans ?_
      rw [Function.update_apply]
      by_cases hother : other = token
      · rw [if_pos ((hkey other).mpr hother), if_pos hother]
        simp [sessionAt]
      · rw [if_neg ((hkey other).not.mpr hother), if_neg hother]
        exact hs.live other t ht
    · -- nobody has found a token that did not exist
      obtain ⟨r, hr, hvalue⟩ := hs.found c other value hc
      have hother : other ≠ token := fun h => by rw [h, hnone] at hr; cases hr
      exact ⟨r, by rw [Function.update_apply, if_neg hother]; exact hr, hvalue⟩

lemma Sound.deleteSession (hinj : Function.Injective sec.hashSecret)
    (hs : Sound store sec sessionTTL s) (token : String) :
    Sound store sec sessionTTL (s.deleteSession store sec token) := by
  have hkey : ∀ other, sec.adminSessionKey other = sec.adminSessionKey token ↔ other = token :=
    fun other => Security.adminSessionKey_inj hinj
  refine ⟨hs.setting, hs.checked, fun other r hr => ?_, fun other t ht => ?_, ?_⟩
  · rw [deleteSession_issued] at hr
    split at hr
    · rename_i hother
      obtain ⟨r', hr', rfl⟩ := Option.map_eq_some_iff.mp hr
      rw [hother]
      exact hs.issued token r' hr'
    · exact hs.issued other r hr
  · refine (store.live_delete _ _ _ _).trans ?_
    rw [deleteSession_issued]
    by_cases hother : other = token
    · rw [if_pos ((hkey other).mpr hother), if_pos hother]
      cases s.issued token <;> simp [sessionAt, Issued.logOut]
    · rw [if_neg ((hkey other).not.mpr hother), if_neg hother]
      exact hs.live other t ht
  · intro c other value hc
    obtain ⟨r, hr, hvalue⟩ := hs.found c other value hc
    rw [deleteSession_issued]
    split
    · rename_i hother
      exact ⟨r.logOut, by rw [← hother, hr, Option.map_some], hvalue⟩
    · exact ⟨r, hr, hvalue⟩

lemma Sound.addHash (hs : Sound store sec sessionTTL s) (hash : String) {setting : Option String}
    (hset : ∀ h, setting = some h → h ∈ hash :: s.hashes) :
    Sound store sec sessionTTL { s with hashes := hash :: s.hashes, setting } :=
  ⟨hset, fun l h hl => List.mem_cons_of_mem _ (hs.checked l h hl),
    fun token r hr => (hs.issued token r hr).imp_left (List.mem_cons_of_mem _), hs.live, hs.found⟩

lemma Sound.setSessions (hs : Sound store sec sessionTTL s) (sessions : σ)
    (hlive : ∀ t j, s.now ≤ t → store.live sessions t j = store.live s.sessions t j) :
    Sound store sec sessionTTL { s with sessions } :=
  ⟨hs.setting, hs.checked, hs.issued,
    fun token t ht => (hlive t _ ht).trans (hs.live token t ht), hs.found⟩

lemma Sound.loginRead (hs : Sound store sec sessionTTL s) (l : ℕ) (password : String)
    (access : Access) : Sound store sec sessionTTL (s.loginRead sec l password access) := by
  cases access with
  | done =>
    simp only [Admin.loginRead]
    split
    · rename_i hash hhash
      refine hs.setLogin l fun h hh => ?_
      split at hh
      · cases hh
        exact hs.setting hash hhash
      · cases hh
    · exact hs.setLogin l (by simp)
  | _ => exact hs.setLogin l (by simp)

lemma Sound.loginPut (hinj : Function.Injective sec.hashSecret)
    (hs : Sound store sec sessionTTL s) (l : ℕ) {token hash : String} (hnew : token ∉ s.tokens)
    (hhash : hash ∈ s.hashes) (access : Access) :
    Sound store sec sessionTTL (s.loginPut store sec sessionTTL l token hash access) := by
  have hput := hs.putSession hinj hnew hhash
  cases access with
  | done =>
    simp only [Admin.loginPut]
    split
    · rename_i heq
      rw [heq] at hput
      exact hput.setLogin l (by simp)
    · rename_i heq
      rw [heq] at hput
      exact hput.setLogin l (by simp)
  | failed =>
    have hskip : Sound store sec sessionTTL { s with tokens := token :: s.tokens } :=
      ⟨hs.setting, hs.checked,
        fun other r hr => (hs.issued other r hr).imp_right (List.mem_cons_of_mem _), hs.live,
        hs.found⟩
    exact hskip.setLogin l (by simp)
  | unacknowledged => exact hput.setLogin l (by simp)

lemma Sound.changeRead (hs : Sound store sec sessionTTL s) (c : ℕ) (current next : String)
    (access : Access) : Sound store sec sessionTTL (s.changeRead sec c current next access) := by
  cases access with
  | done =>
    simp only [Admin.changeRead]
    split <;> exact hs.setChange c _
  | _ => exact hs.setChange c _

lemma Sound.changeWrite (hs : Sound store sec sessionTTL s) (c : ℕ) (hash : String)
    (access : Access) : Sound store sec sessionTTL (s.changeWrite c hash access) := by
  have hwrite : ∀ h, some hash = some h → h ∈ hash :: s.hashes := by
    rintro h hh
    cases hh
    exact List.mem_cons_self
  cases access with
  | done => exact (hs.addHash hash hwrite).setChange c _
  | failed =>
    exact (hs.addHash hash fun h hh => List.mem_cons_of_mem _ (hs.setting h hh)).setChange c _
  | unacknowledged => exact (hs.addHash hash hwrite).setChange c _

lemma Sound.check (hs : Sound store sec sessionTTL s) (c : ℕ) (token : String) (access : Access) :
    Sound store sec sessionTTL (s.check store sec c token access) := by
  have hget := hs.setSessions (store.get s.sessions s.now (sec.adminSessionKey token)).1
    fun t j ht => store.live_get _ _ _ t j ht
  cases access with
  | done =>
    simp only [Admin.check]
    split
    · rename_i sessions value heq
      rw [heq] at hget
      refine hget.setCheck c fun other v hv => ?_
      cases hv
      have hlive := hs.live token s.now le_rfl
      rw [← store.get_eq, heq] at hlive
      simp only [sessionAt] at hlive
      obtain ⟨r, hr, hvalue⟩ := Option.bind_eq_some_iff.mp hlive.symm
      refine ⟨r, hr, ?_⟩
      split at hvalue
      · cases hvalue
      · split at hvalue
        · exact (Option.some.inj hvalue).symm
        · cases hvalue
    · rename_i sessions heq
      rw [heq] at hget
      exact hget.setCheck c (by simp)
  | _ => exact hs.setCheck c (by simp)

lemma Sound.checkSetting (hs : Sound store sec sessionTTL s) (c : ℕ) (token value : String)
    (access : Access) :
    Sound store sec sessionTTL (s.checkSetting sec c token value access) := by
  cases access with
  | done =>
    simp only [Admin.checkSetting]
    split <;> exact hs.setCheck c (by simp)
  | _ => exact hs.setCheck c (by simp)

lemma Sound.step (hinj : Function.Injective sec.hashSecret) (hs : Sound store sec sessionTTL s)
    {e : Event} (h : s.step store sec sessionTTL e = some t) : Sound store sec sessionTTL t := by
  cases e with
  | loginRead l password access =>
    simp only [Admin.step] at h
    split at h
    · cases h
      exact hs.loginRead l password access
    · cases h
  | loginPut l token access =>
    simp only [Admin.step] at h
    repeat' split at h
    · cases h
    · -- a token is never made twice
      rename_i hash hl hnew
      cases h
      exact hs.loginPut hinj l hnew (hs.checked l hash hl) access
    · cases h
  | loginFails l =>
    simp only [Admin.step] at h
    split at h
    · cases h
      exact hs.setLogin l (by simp)
    · cases h
  | logout token access =>
    cases h
    cases access with
    | failed => exact hs
    | _ => exact hs.deleteSession hinj token
  | changeRead c current next access =>
    simp only [Admin.step] at h
    split at h
    · cases h
      exact hs.changeRead c current next access
    · cases h
  | changeWrite c hash access =>
    simp only [Admin.step] at h
    repeat' split at h
    · cases h
    · cases h
      exact hs.changeWrite c hash access
    · cases h
  | changeFails c =>
    simp only [Admin.step] at h
    split at h
    · cases h
      exact hs.setChange c _
    · cases h
  | check c token access =>
    simp only [Admin.step] at h
    split at h
    · cases h
      exact hs.check c token access
    · cases h
  | checkSetting c access =>
    simp only [Admin.step] at h
    split at h
    · cases h
      exact hs.checkSetting c _ _ access
    · cases h
  | tick d =>
    cases h
    exact ⟨hs.setting, hs.checked, hs.issued,
      fun token t ht => hs.live token t
        ((Int.le_add_of_nonneg_right (Int.natCast_nonneg d)).trans ht),
      hs.found⟩

lemma Sound.run {setting : String} {now : ℤ} {es : List Event}
    (hinj : Function.Injective sec.hashSecret) (hs : Sound store sec sessionTTL s)
    (h : (system store sec sessionTTL setting now).run s es = some t) :
    Sound store sec sessionTTL t :=
  TransitionSystem.run_invariant (Sound store sec sessionTTL)
    (fun _ _ _ hs h => Sound.step hinj hs h) hs h

lemma sound_of_reach {setting : String} {now : ℤ} (hinj : Function.Injective sec.hashSecret)
    (hs : (system store sec sessionTTL setting now).Reach s) : Sound store sec sessionTTL s := by
  obtain ⟨es, hes⟩ := hs
  exact (sound_start setting now).run hinj hes

/-- Hashes and tokens stay generated; what is remembered of a token stays, and so does that it
was logged out. -/
structure Later (s t : Admin σ) : Prop where
  hashes : s.hashes ⊆ t.hashes
  issued : ∀ token r, s.issued token = some r → ∃ r', t.issued token = some r' ∧
    r'.hash = r.hash ∧ r'.issuedAt = r.issuedAt ∧ (r.loggedOut = true → r'.loggedOut = true)

lemma Later.of_issued (hhashes : s.hashes ⊆ t.hashes)
    (hissued : ∀ token r, s.issued token = some r → t.issued token = some r) : Later s t :=
  ⟨hhashes, fun token r hr => ⟨r, hissued token r hr, rfl, rfl, id⟩⟩

lemma Later.refl (s : Admin σ) : Later s s := .of_issued (fun _ h => h) fun _ _ h => h

lemma Later.trans {u : Admin σ} (hst : Later s t) (htu : Later t u) : Later s u := by
  refine ⟨fun h hh => htu.hashes (hst.hashes hh), fun token r hr => ?_⟩
  obtain ⟨r', hr', hhash, hat, hout⟩ := hst.issued token r hr
  obtain ⟨r'', hr'', hhash', hat', hout'⟩ := htu.issued token r' hr'
  exact ⟨r'', hr'', hhash'.trans hhash, hat'.trans hat, fun h => hout' (hout h)⟩

lemma later_putSession {token hash : String} (hnew : s.issued token = none) :
    Later s (s.putSession store sec sessionTTL token hash).1 := by
  simp only [putSession]
  split
  · exact .of_issued (fun _ h => h) fun _ _ h => h
  · refine .of_issued (fun _ h => h) fun other r hr => ?_
    dsimp only
    rw [Function.update_apply, if_neg]
    · exact hr
    · rintro rfl
      rw [hnew] at hr
      cases hr

lemma later_deleteSession (s : Admin σ) (token : String) :
    Later s (s.deleteSession store sec token) := by
  refine ⟨fun _ h => h, fun other r hr => ?_⟩
  rw [deleteSession_issued]
  split
  · rename_i hother
    exact ⟨r.logOut, by rw [← hother, hr, Option.map_some], rfl, rfl, fun _ => rfl⟩
  · exact ⟨r, hr, rfl, rfl, id⟩

lemma Sound.later_step (hs : Sound store sec sessionTTL s) {e : Event}
    (h : s.step store sec sessionTTL e = some t) : Later s t := by
  cases e with
  | loginPut l token access =>
    simp only [Admin.step] at h
    repeat' split at h
    · cases h
    · rename_i hash hl hnew
      have hnone : s.issued token = none := by
        rw [Option.eq_none_iff_forall_ne_some]
        exact fun r hr => hnew (hs.issued token r hr).2
      cases h
      have htoken : Later s { s with tokens := token :: s.tokens } :=
        .of_issued (fun _ h => h) fun _ _ h => h
      have hput : Later s
          ({ s with tokens := token :: s.tokens }.putSession store sec sessionTTL token hash).1 :=
        htoken.trans (later_putSession hnone)
      cases access with
      | done =>
        simp only [Admin.loginPut]
        split
        all_goals
          rename_i heq
          rw [heq] at hput
          exact ⟨hput.hashes, hput.issued⟩
      | failed => exact .of_issued (fun _ h => h) fun _ _ h => h
      | unacknowledged => exact ⟨hput.hashes, hput.issued⟩
    · cases h
  | logout token access =>
    cases h
    cases access with
    | failed => exact .refl s
    | _ => exact later_deleteSession s token
  | changeWrite c hash access =>
    simp only [Admin.step] at h
    repeat' split at h
    · cases h
    · cases h
      cases access <;>
        exact .of_issued (fun _ h => List.mem_cons_of_mem _ h) fun _ _ h => h
    · cases h
  | tick d =>
    cases h
    exact .of_issued (fun _ h => h) fun _ _ h => h
  | _ =>
    -- the calls that read leave hashes and tokens as they are
    simp only [Admin.step, Admin.loginRead, Admin.changeRead, Admin.check, Admin.checkSetting] at h
    repeat' split at h
    all_goals cases h
    all_goals exact .of_issued (fun _ h => h) fun _ _ h => h

/-! ### What a check does -/

lemma putSession_checks (s : Admin σ) (token hash : String) :
    (s.putSession store sec sessionTTL token hash).1.checks = s.checks ∧
      (s.putSession store sec sessionTTL token hash).1.setting = s.setting := by
  simp only [putSession]
  split <;> exact ⟨rfl, rfl⟩

lemma loginPut_checks (s : Admin σ) (l : ℕ) (token hash : String) (access : Access) :
    (s.loginPut store sec sessionTTL l token hash access).checks = s.checks ∧
      (s.loginPut store sec sessionTTL l token hash access).setting = s.setting := by
  have hput : (putSession store sec sessionTTL { s with tokens := token :: s.tokens } token
      hash).1.checks = s.checks ∧ (putSession store sec sessionTTL
        { s with tokens := token :: s.tokens } token hash).1.setting = s.setting :=
    putSession_checks _ token hash
  cases access with
  | done =>
    simp only [Admin.loginPut]
    split
    all_goals
      rename_i heq
      rw [heq] at hput
      exact hput
  | failed => exact ⟨rfl, rfl⟩
  | unacknowledged => exact hput

/-- A check is untouched, or begins, or goes from the session value it found to its answer. -/
lemma step_checks {e : Event} (c : ℕ) (h : s.step store sec sessionTTL e = some t) :
    t.checks c = s.checks c ∨
      (s.checks c = .notCalled ∧ ∃ token, t.checks c = .failed token ∨
        t.checks c = .answered token false ∨ ∃ value, t.checks c = .found token value) ∨
      ∃ token value, s.checks c = .found token value ∧ t.setting = s.setting ∧
        (t.checks c = .failed token ∨ ∃ b, t.checks c = .answered token b ∧
          (b = true → ∃ hash, s.setting = some hash ∧ value = sec.adminSessionValue hash)) := by
  cases e with
  | loginPut l token access =>
    simp only [Admin.step] at h
    repeat' split at h
    · cases h
    · cases h
      exact .inl (congrFun (loginPut_checks s l token _ access).1 c)
    · cases h
  | logout token access =>
    cases h
    cases access <;> exact .inl rfl
  | changeWrite d hash access =>
    simp only [Admin.step] at h
    repeat' split at h
    · cases h
    · cases h
      cases access <;> exact .inl rfl
    · cases h
  | check d token access =>
    simp only [Admin.step] at h
    split at h
    · rename_i hd
      cases h
      by_cases hcd : c = d
      · -- it is this check that moves
        subst hcd
        refine .inr (.inl ⟨hd, token, ?_⟩)
        cases access with
        | done =>
          simp only [Admin.check]
          split
          · exact .inr (.inr ⟨_, by rw [setCheck_checks, if_pos rfl]⟩)
          · exact .inr (.inl (by rw [setCheck_checks, if_pos rfl]))
        | _ => exact .inl (by simp only [Admin.check, setCheck_checks, if_pos])
      · refine .inl ?_
        cases access with
        | done =>
          simp only [Admin.check]
          split <;> rw [setCheck_checks, if_neg hcd]
        | _ => simp only [Admin.check, setCheck_checks, if_neg hcd]
    · cases h
  | checkSetting d access =>
    simp only [Admin.step] at h
    split at h
    · rename_i token value hd
      cases h
      by_cases hcd : c = d
      · subst hcd
        refine .inr (.inr ⟨token, value, hd, ?_⟩)
        cases access with
        | done =>
          simp only [Admin.checkSetting]
          split
          · rename_i hash hhash
            refine ⟨rfl, .inr ⟨_, by rw [setCheck_checks, if_pos rfl], fun hb => ?_⟩⟩
            exact ⟨hash, hhash, of_decide_eq_true hb⟩
          · exact ⟨rfl, .inr ⟨_, by rw [setCheck_checks, if_pos rfl], by simp⟩⟩
        | _ => exact ⟨rfl, .inl (by simp only [Admin.checkSetting, setCheck_checks, if_pos])⟩
      · refine .inl ?_
        cases access with
        | done =>
          simp only [Admin.checkSetting]
          split <;> rw [setCheck_checks, if_neg hcd]
        | _ => simp only [Admin.checkSetting, setCheck_checks, if_neg hcd]
    · cases h
  | _ =>
    simp only [Admin.step, Admin.loginRead, Admin.changeRead] at h
    repeat' split at h
    all_goals cases h
    all_goals exact .inl rfl

lemma step_setting {e : Event} (h : s.step store sec sessionTTL e = some t) :
    t.setting = s.setting ∨ ∃ hash, t.setting = some hash ∧ hash ∉ s.hashes := by
  cases e with
  | loginPut l token access =>
    simp only [Admin.step] at h
    repeat' split at h
    · cases h
    · cases h
      exact .inl (loginPut_checks s l token _ access).2
    · cases h
  | logout token access =>
    cases h
    cases access <;> exact .inl rfl
  | changeWrite d hash access =>
    simp only [Admin.step] at h
    repeat' split at h
    · cases h
    · rename_i hnew
      cases h
      cases access with
      | failed => exact .inl rfl
      | _ => exact .inr ⟨hash, rfl, hnew⟩
    · cases h
  | _ =>
    simp only [Admin.step, Admin.loginRead, Admin.changeRead, Admin.check, Admin.checkSetting] at h
    repeat' split at h
    all_goals cases h
    all_goals exact .inl rfl

lemma answered_stays {setting : String} {now : ℤ} {es : List Event} {c : ℕ} {call : CheckCall}
    (hcall : (∃ token b, call = .answered token b) ∨ ∃ token, call = .failed token)
    (hs : s.checks c = call) (h : (system store sec sessionTTL setting now).run s es = some t) :
    t.checks c = call := by
  refine TransitionSystem.run_invariant (fun s => s.checks c = call) ?_ hs h
  intro a e b ha hab
  rcases step_checks c hab with hsame | ⟨hnot, -⟩ | ⟨token, value, hfound, -⟩
  · exact hsame.trans ha
  · rw [ha] at hnot
    rcases hcall with ⟨_, _, rfl⟩ | ⟨_, rfl⟩ <;> cases hnot
  · rw [ha] at hfound
    rcases hcall with ⟨_, _, rfl⟩ | ⟨_, rfl⟩ <;> cases hfound

lemma Sound.check_done (hs : Sound store sec sessionTTL s) (c : ℕ) (token : String) :
    (s.check store sec c token .done).checks c =
      match sessionAt store sec sessionTTL (s.issued token) s.now with
      | some value => .found token value
      | none => .answered token false := by
  have hlive := hs.live token s.now le_rfl
  rw [← store.get_eq] at hlive
  rw [← hlive]
  simp only [Admin.check]
  split
  · rename_i heq
    rw [setCheck_checks, if_pos rfl, heq]
  · rename_i heq
    rw [setCheck_checks, if_pos rfl, heq]

/-! ### The guarantees -/

lemma old_hash_refused {setting : String} {now : ℤ} {u : Admin σ} {c v : ℕ} {hash token : String}
    {access : Access} {es : List Event} {r : Issued} (hinj : Function.Injective sec.hashSecret)
    (hs : Sound store sec sessionTTL s)
    (hwrite : s.step store sec sessionTTL (.changeWrite c hash access) = some t)
    (hacc : access ≠ .failed) (hrun : (system store sec sessionTTL setting now).run t es = some u)
    (hv : t.checks v ≠ .answered token true) (hr : u.issued token = some r)
    (hold : r.hash ∈ s.hashes) : u.checks v ≠ .answered token true := by
  have hset : ∀ h, t.setting = some h → h ∉ s.hashes := by
    simp only [Admin.step] at hwrite
    repeat' split at hwrite
    · cases hwrite
    · rename_i hnew
      cases hwrite
      rintro h hh
      cases access with
      | failed => exact absurd rfl hacc
      | _ => cases hh; exact hnew
    · cases hwrite
  have hinv := TransitionSystem.run_invariant (fun u => Sound store sec sessionTTL u ∧
      s.hashes ⊆ u.hashes ∧ (∀ h, u.setting = some h → h ∉ s.hashes) ∧
      (u.checks v = .answered token true → ∃ r, u.issued token = some r ∧ r.hash ∉ s.hashes))
    ?_ ⟨hs.step hinj hwrite, (hs.later_step hwrite).hashes, hset, fun h => absurd h hv⟩ hrun
  · intro hans
    obtain ⟨r', hr', hfresh⟩ := hinv.2.2.2 hans
    rw [hr] at hr'
    cases hr'
    exact hfresh hold
  · rintro a e b ⟨ha, hsub, hfresh, hans⟩ hab
    have hlater := ha.later_step hab
    refine ⟨ha.step hinj hab, fun h hh => hlater.hashes (hsub hh), fun h hh => ?_, fun hb => ?_⟩
    · rcases step_setting hab with hsame | ⟨h', hh', hnew⟩
      · exact hfresh h (hsame ▸ hh)
      · rw [hh'] at hh
        cases hh
        exact fun hmem => hnew (hsub hmem)
    · rcases step_checks v hab with hsame | ⟨-, tok, hb'⟩ | ⟨tok, value, hfound, -, hb'⟩
      · obtain ⟨r', hr', hr'h⟩ := hans (hsame ▸ hb)
        obtain ⟨r'', hr'', hhash, -⟩ := hlater.issued token r' hr'
        exact ⟨r'', hr'', hhash ▸ hr'h⟩
      · rcases hb' with hb' | hb' | ⟨_, hb'⟩ <;> rw [hb'] at hb <;> cases hb
      · -- it compares with the hash that is stored now
        rcases hb' with hb' | ⟨b', hb', hval⟩
        · rw [hb'] at hb
          cases hb
        · rw [hb'] at hb
          cases hb
          obtain ⟨h, hh, rfl⟩ := hval rfl
          obtain ⟨r', hr', hvalue⟩ := ha.found v token _ hfound
          obtain ⟨r'', hr'', hhash, -⟩ := hlater.issued token r' hr'
          refine ⟨r'', hr'', ?_⟩
          rw [hhash, ← (Security.adminSessionValue_inj hinj).mp hvalue]
          exact hfresh h hh

lemma logged_out_refused {setting : String} {now : ℤ} {u v w : Admin σ} {c : ℕ} {token : String}
    {access access' : Access} {es fs : List Event} {r : Issued}
    (hinj : Function.Injective sec.hashSecret) (hs : Sound store sec sessionTTL s)
    (hr : s.issued token = some r)
    (hlogout : s.step store sec sessionTTL (.logout token access) = some t)
    (hacc : access ≠ .failed) (hrun : (system store sec sessionTTL setting now).run t es = some u)
    (hcheck : u.step store sec sessionTTL (.check c token access') = some v)
    (hmore : (system store sec sessionTTL setting now).run v fs = some w) :
    w.checks c ≠ .answered token true := by
  have hout : ∃ r, t.issued token = some r ∧ r.loggedOut = true := by
    cases hlogout
    cases access with
    | failed => exact absurd rfl hacc
    | _ => exact ⟨r.logOut, by
        rw [Admin.logout, deleteSession_issued, if_pos rfl, hr, Option.map_some]; simp, rfl⟩
  have hinv := TransitionSystem.run_invariant (fun u => Sound store sec sessionTTL u ∧
      ∃ r, u.issued token = some r ∧ r.loggedOut = true)
    (fun a e b ha hab => ?_) ⟨hs.step hinj hlogout, hout⟩ hrun
  · obtain ⟨hu, r', hr', hout'⟩ := hinv
    have hend : v.checks c = .answered token false ∨ v.checks c = .failed token := by
      simp only [Admin.step] at hcheck
      split at hcheck
      · cases hcheck
        cases access' with
        | done =>
          refine .inl ?_
          rw [hu.check_done, hr', sessionAt, Option.bind_some, if_pos hout']
        | _ => exact .inr (by simp only [Admin.check, setCheck_checks, if_pos])
      · cases hcheck
    rcases hend with hend | hend
    · rw [answered_stays (.inl ⟨_, _, rfl⟩) hend hmore]
      simp
    · rw [answered_stays (.inr ⟨_, rfl⟩) hend hmore]
      simp
  · obtain ⟨ha, r', hr', hout'⟩ := ha
    obtain ⟨r'', hr'', -, -, hkeep⟩ := (ha.later_step hab).issued token r' hr'
    exact ⟨ha.step hinj hab, r'', hr'', hkeep hout'⟩

lemma current_accepted {setting : String} {now : ℤ} {u w : Admin σ} {c : ℕ} {token : String}
    {es : List Event} {r : Issued} (hs : Sound store sec sessionTTL s)
    (hr : s.issued token = some r) (hin : r.loggedOut = false)
    (hlive : store.unexpired r.issuedAt sessionTTL s.now = true)
    (hcheck : s.step store sec sessionTTL (.check c token .done) = some t)
    (hrun : (system store sec sessionTTL setting now).run t es = some u)
    (hread : u.step store sec sessionTTL (.checkSetting c .done) = some w)
    (hset : u.setting = some r.hash) : w.checks c = .answered token true := by
  have hfound : t.checks c = .found token (sec.adminSessionValue r.hash) := by
    simp only [Admin.step] at hcheck
    split at hcheck
    · cases hcheck
      rw [hs.check_done, hr, sessionAt, Option.bind_some, if_neg (by simp [hin]), if_pos hlive]
    · cases hcheck
  have hinv := TransitionSystem.run_invariant (fun u : Admin σ =>
      u.checks c = .found token (sec.adminSessionValue r.hash) ∨
        ∀ tok value, u.checks c ≠ .found tok value ∧ u.checks c ≠ .notCalled)
    (fun a e b ha hab => ?_) (.inl hfound) hrun
  · simp only [Admin.step] at hread
    split at hread
    · rename_i tok value htok
      cases hread
      rcases hinv with hinv | hinv
      · rw [htok] at hinv
        cases hinv
        simp only [Admin.checkSetting, hset, setCheck_checks, if_pos, decide_true]
      · exact absurd htok (hinv tok value).1
    · cases hread
  · rcases step_checks c hab with hsame | ⟨hnot, -⟩ | ⟨tok, value, -, -, hb⟩
    · rw [hsame]
      exact ha
    · rcases ha with ha | ha
      · rw [ha] at hnot
        cases hnot
      · exact absurd hnot (ha "" "").2
    · refine .inr fun tok' value' => ?_
      rcases hb with hb | ⟨b', hb, -⟩ <;> rw [hb] <;> exact ⟨by simp, by simp⟩

variable (store sec sessionTTL) in
/-- **A password change ends every earlier session.** Under any interleaving: once a change has
written its hash, no check that had not answered by then accepts a token whose login checked the
password against an earlier hash; no check that begins after a token was logged out accepts it;
and a check of any other unexpired token accepts it when the hash of its login is the stored
one. -/
theorem password_change_ends_sessions (hinj : Function.Injective sec.hashSecret) (setting : String)
    (now : ℤ) (hs : (system store sec sessionTTL setting now).Reach s) :
    (∀ c hash access t es u v token r,
      s.step store sec sessionTTL (.changeWrite c hash access) = some t → access ≠ .failed →
      (system store sec sessionTTL setting now).run t es = some u →
      t.checks v ≠ .answered token true → u.issued token = some r → r.hash ∈ s.hashes →
        u.checks v ≠ .answered token true) ∧
    (∀ token r access t es u c access' v fs w, s.issued token = some r →
      s.step store sec sessionTTL (.logout token access) = some t → access ≠ .failed →
      (system store sec sessionTTL setting now).run t es = some u →
      u.step store sec sessionTTL (.check c token access') = some v →
      (system store sec sessionTTL setting now).run v fs = some w →
        w.checks c ≠ .answered token true) ∧
    (∀ token r c t es u w, s.issued token = some r → r.loggedOut = false →
      store.unexpired r.issuedAt sessionTTL s.now = true →
      s.step store sec sessionTTL (.check c token .done) = some t →
      (system store sec sessionTTL setting now).run t es = some u →
      u.step store sec sessionTTL (.checkSetting c .done) = some w → u.setting = some r.hash →
        w.checks c = .answered token true) := by
  have hsound := sound_of_reach hinj hs
  refine ⟨?_, ?_, ?_⟩
  · intro c hash access t es u v token r hwrite hacc hrun hv hr hold
    exact old_hash_refused hinj hsound hwrite hacc hrun hv hr hold
  · intro token r access t es u c access' v fs w hr hlogout hacc hrun hcheck hmore
    exact logged_out_refused hinj hsound hr hlogout hacc hrun hcheck hmore
  · intro token r c t es u w hr hin hlive hcheck hrun hread hset
    exact current_accepted hsound hr hin hlive hcheck hrun hread hset

/-- Two passwords with their hashes, and the digests of what the run below hashes. -/
def sampleSecurity : Security where
  hashSecret text :=
    if text = "$2a$10$old" then
      "a58289d9ce5fec0a5c224ee9c37d5991326d73a9308a62281390a6b24b75b27f"
    else if text = "$2a$10$new" then
      "eb80988fbd75352d2ac3bf0af346004e8426bc72af612ff29402fefbd9c31a8e"
    else if text = "token" then
      "3c469e9d6c5875d37a43f353d4f88e61fcf812c66eee3457465a40b0da4153e0"
    else "-" ++ text
  checkPassword hash password :=
    (hash = "$2a$10$old" ∧ password = "the old password") ∨
      (hash = "$2a$10$new" ∧ password = "the new password")

lemma sampleSecurity_injective : Function.Injective sampleSecurity.hashSecret := by
  have hdash : ∀ text : String, ("-" ++ text).toList.head? = some '-' := by simp
  intro a b h
  have hhead := congrArg (fun text => text.toList.head?) h
  simp only [sampleSecurity] at h hhead
  split_ifs at h hhead <;> first
    | (subst_vars; rfl)
    | exact absurd h (by decide)
    | exact (String.append_right_inj "-").mp h
    | (rw [hdash] at hhead; exact absurd hhead (by decide))

/-- The server of the run: sessions in memory that last for a day. -/
def sampleSystem : TransitionSystem (Admin MemoryStore) Event :=
  system (memoryStore 4096) sampleSecurity 86400 "$2a$10$old" 1000

/-- A login, and a change of the password that has been verified. -/
def signedIn : List Event :=
  [.loginRead 0 "the old password" .done, .loginPut 0 "token" .done,
    .changeRead 0 "the old password" "the new password" .done]

theorem password_change_ends_sessions_signedIn :
    ∃ s, sampleSystem.run sampleSystem.start signedIn = some s ∧ s.hashes = ["$2a$10$old"] ∧
      (∀ t es u v r, sampleSystem.step s (.changeWrite 0 "$2a$10$new" .done) = some t →
        sampleSystem.run t es = some u → t.checks v ≠ .answered "token" true →
        u.issued "token" = some r → r.hash = "$2a$10$old" →
          u.checks v ≠ .answered "token" true) ∧
      ((sampleSystem.run s [.check 0 "token" .done, .checkSetting 0 .done,
        .changeWrite 0 "$2a$10$new" .done, .check 1 "token" .done, .checkSetting 1 .done]).any
          fun u => u.checks 0 matches .answered _ true && u.checks 1 matches .answered _ false) =
        true := by
  have hrun : ((sampleSystem.run sampleSystem.start signedIn).any fun s =>
      s.hashes == ["$2a$10$old"] && (sampleSystem.run s [.check 0 "token" .done,
        .checkSetting 0 .done, .changeWrite 0 "$2a$10$new" .done, .check 1 "token" .done,
        .checkSetting 1 .done]).any fun u =>
          u.checks 0 matches .answered _ true && u.checks 1 matches .answered _ false) = true := by
    decide
  obtain ⟨s, hs, hboth⟩ := (Option.any_eq_true _ _).mp hrun
  rw [Bool.and_eq_true, beq_iff_eq] at hboth
  refine ⟨s, hs, hboth.1, fun t es u v r hwrite hrun hv hr hold => ?_, hboth.2⟩
  have h := password_change_ends_sessions (memoryStore 4096) sampleSecurity 86400
    sampleSecurity_injective "$2a$10$old" 1000 ⟨signedIn, hs⟩
  exact h.1 0 "$2a$10$new" .done t es u v "token" r hwrite (by simp) hrun hv hr
    (by rw [hold, hboth.1]; exact List.mem_singleton_self _)

end Admin

end CodexOne
