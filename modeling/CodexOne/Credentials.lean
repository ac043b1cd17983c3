import CodexOne.Lib.GoStrings
import CodexOne.Lib.JsonCodec
import CodexOne.Lib.Transition

/-!
The stored account and its quota, and the calls of the manager that read and write them.

Store operations are atomic and either succeed or fail without an effect; the token endpoint and
the upstream answer at any moment. Any number of calls run at once, and those that write the
account do it while they hold `credentialMu`. Instants are in nanoseconds.
-/

namespace CodexOne.Codex

structure Credential where
  email : String
  accountID : String
  planType : String
  accessToken : String
  refreshToken : String
  idToken : String
  expiresAt : ℤ
  updatedAt : ℤ
deriving DecidableEq

structure TokenSet where
  accessToken : String
  refreshToken : String
  idToken : String
  accountID : String
  email : String
  planType : String
  expiresIn : ℤ
  expiresAt : ℤ
  expired : String
deriving DecidableEq

/-- A row of `codex_account`. -/
structure Account where
  email : String
  chatGPTAccountID : String
  planType : String
  accessTokenEncrypted : String
  refreshTokenEncrypted : String
  idTokenEncrypted : String
  expiresAt : ℤ
  updatedAt : ℤ
deriving DecidableEq

/-- The row of `quota_snapshot`. The table has no column for `owner`, the account id of the
credential that the snapshot was fetched with. -/
structure QuotaSnapshot where
  payload : String
  fetchedAt : ℤ
  owner : String
deriving DecidableEq

/-- `time.UnixMilli`, and back; the milliseconds of an instant may overflow an `int64`. -/
def unixMilli (ms : ℤ) : ℤ := ms * 1000000
def toUnixMilli (t : ℤ) : ℤ := Int.bmod (t / 1000000) (2 ^ 64)

/-- The credential lasts for more than two minutes. -/
def Lasts (credential : Credential) (now : ℤ) : Prop :=
  now + 2 * 60 * 1000000000 < credential.expiresAt

instance (credential : Credential) (now : ℤ) : Decidable (Lasts credential now) :=
  inferInstanceAs (Decidable (_ < _))

/-- The defaults that a refresh takes from the credential it refreshes. -/
def fillTokens (tokens : TokenSet) (credential : Credential) : TokenSet :=
  let orElse (value other : String) : String := if value = "" then other else value
  { tokens with
    refreshToken := orElse tokens.refreshToken credential.refreshToken
    idToken := orElse tokens.idToken credential.idToken
    accountID := orElse tokens.accountID credential.accountID
    email := orElse tokens.email credential.email
    planType := orElse tokens.planType credential.planType }

/-- What an operation has written once it is done. A refresh is told by the token response and by
when it arrived. -/
inductive Op where
  | replace (credential : Credential) (nonces : Fin 3 → String) (now : ℤ)
  | delete
  | refresh (tokens : TokenSet) (answered : ℤ) (nonces : Fin 3 → String) (now : ℤ)

/-- What the manager uses: the cipher, given its nonce, and the reading of a token set. -/
structure Provider where
  encrypt : (nonce text : String) → Except String String
  decrypt : String → Except String String
  credentialFromTokens : TokenSet → (now : ℤ) → Except String Credential

namespace Provider

variable (k : Provider)

/-- `Credential`, on the row that is read. -/
def credential (account : Account) : Except String Credential := do
  let accessToken ← k.decrypt account.accessTokenEncrypted
  let refreshToken ← k.decrypt account.refreshTokenEncrypted
  let idToken ← k.decrypt account.idTokenEncrypted
  return { email := account.email, accountID := account.chatGPTAccountID,
           planType := account.planType, accessToken, refreshToken, idToken,
           expiresAt := unixMilli account.expiresAt, updatedAt := unixMilli account.updatedAt }

/-- The credential that a token response makes of the stored one. -/
def refreshed (account : Account) (tokens : TokenSet) (now : ℤ) : Except String Credential := do
  let credential ← k.credential account
  k.credentialFromTokens (fillTokens tokens credential) now

/-- The row that `saveCredential` writes, with the nonces of its three tokens. -/
def saveCredential (credential : Credential) (nonces : Fin 3 → String) (now : ℤ) :
    Except String Account := do
  if credential.accountID = "" ∨ credential.accessToken = "" then
    throw "Codex credential is missing account_id or access_token"
  let access ← k.encrypt (nonces 0) credential.accessToken
  let refresh ← k.encrypt (nonces 1) credential.refreshToken
  let idToken ← k.encrypt (nonces 2) credential.idToken
  return { email := credential.email, chatGPTAccountID := credential.accountID,
           planType := credential.planType, accessTokenEncrypted := access,
           refreshTokenEncrypted := refresh, idTokenEncrypted := idToken,
           expiresAt := toUnixMilli credential.expiresAt, updatedAt := toUnixMilli now }

variable {k} in
/-- What `saveCredential` writes. -/
lemma saveCredential_ok {credential : Credential} {nonces : Fin 3 → String} {now : ℤ}
    {row : Account} (h : k.saveCredential credential nonces now = .ok row) :
    credential.accountID ≠ "" ∧ ∃ access refresh idToken,
      k.encrypt (nonces 0) credential.accessToken = .ok access ∧
      k.encrypt (nonces 1) credential.refreshToken = .ok refresh ∧
      k.encrypt (nonces 2) credential.idToken = .ok idToken ∧
      row = { email := credential.email, chatGPTAccountID := credential.accountID,
              planType := credential.planType, accessTokenEncrypted := access,
              refreshTokenEncrypted := refresh, idTokenEncrypted := idToken,
              expiresAt := toUnixMilli credential.expiresAt, updatedAt := toUnixMilli now } := by
  rw [saveCredential] at h
  by_cases hempty : credential.accountID = "" ∨ credential.accessToken = ""
  · -- a credential without an account makes no row
    rw [if_pos hempty] at h
    cases h
  · rw [if_neg hempty] at h
    cases h1 : k.encrypt (nonces 0) credential.accessToken with
    | error err => rw [h1] at h; cases h
    | ok access =>
      cases h2 : k.encrypt (nonces 1) credential.refreshToken with
      | error err => rw [h1, h2] at h; cases h
      | ok refresh =>
        cases h3 : k.encrypt (nonces 2) credential.idToken with
        | error err => rw [h1, h2, h3] at h; cases h
        | ok idToken =>
          rw [h1, h2, h3] at h
          cases h
          exact ⟨fun h => hempty (.inl h), access, refresh, idToken, rfl, rfl, rfl, rfl⟩

/-- **The sequential meaning** of the operations on the stored account. -/
def apply (account : Option Account) : Op → Option Account
  | .replace credential nonces now =>
    match k.saveCredential credential nonces now with
    | .ok row => some row
    | .error _ => account
  | .delete => none
  | .refresh tokens answered nonces now =>
    match account with
    | none => none
    | some row =>
      match (do k.saveCredential (← k.refreshed row tokens answered) nonces now) with
      | .ok row => some row
      | .error _ => some row

end Provider

/-- A provider to evaluate runs with: tokens are stored under their nonce, and a token set carries
its account and its expiry in milliseconds. -/
def sampleProvider : Provider where
  encrypt nonce text := .ok (nonce ++ ":" ++ text)
  decrypt text := .ok (String.ofList (text.toList.drop 2))
  credentialFromTokens tokens now :=
    if tokens.accessToken = "" ∨ tokens.accountID = "" then
      .error "Codex token is missing access_token or ChatGPT account ID"
    else .ok ⟨tokens.email, tokens.accountID, tokens.planType, tokens.accessToken,
      tokens.refreshToken, tokens.idToken, unixMilli tokens.expiresAt, now⟩

/-- What a call was made for. -/
inductive Kind where
  | fresh
  | fetchQuota
  | replace (credential : Credential)
  | delete
deriving DecidableEq

/-- Where a call of the manager is. The credential of `refreshed` is made of the row, which was
read under the lock, and of the token response. -/
inductive Call where
  | notCalled
  | waiting (kind : Kind)
  | locked (kind : Kind)
  | requested (kind : Kind) (row : Account)
  | refreshed (kind : Kind) (row : Account) (tokens : TokenSet) (answered : ℤ)
    (credential : Credential)
  | unlocking (kind : Kind) (result : Except String (Option Credential))
  | returned (kind : Kind) (result : Except String (Option Credential))
  | fetching (credential : Credential)
  | fetched (credential : Credential) (raw : String)
  | quotaDone (result : Except String QuotaSnapshot)
  | viewing (account : Account)
  | viewed (account : Option Account) (quota : Option QuotaSnapshot)
  | viewFailed (err : String)

/-- The store, `credentialMu`, and every call. `log` lists the operations that have written, in
order, with their calls, and `requests` the calls that sent a token request. -/
structure Manager where
  account : Option Account
  quota : Option QuotaSnapshot
  now : ℤ
  lock : Option ℕ
  calls : ℕ → Call
  log : List (ℕ × Op)
  requests : List ℕ

namespace Manager

inductive Event where
  | freshCredential (c : ℕ) (quota : Bool) (fault : Option String)
  | replaceCredential (c : ℕ) (credential : Credential)
  | deleteAccount (c : ℕ)
  | lock (c : ℕ)
  | recheck (c : ℕ) (fault : Option String)
  | tokens (c : ℕ) (answer : Except String TokenSet)
  | save (c : ℕ) (nonces : Fin 3 → String) (fault : Option String)
  | delete (c : ℕ) (fault : Option String)
  | unlock (c : ℕ)
  | quotaAnswer (c : ℕ) (answer : Except String String)
  | saveQuota (c : ℕ) (fault : Option String)
  | getAccount (c : ℕ) (fault : Option String)
  | getQuota (c : ℕ) (fault : Option String)
  | tick (d : ℕ)

def setCall (s : Manager) (c : ℕ) (call : Call) : Manager :=
  { s with calls := Function.update s.calls c call }

lemma setCall_calls (s : Manager) (c d : ℕ) (call : Call) :
    (s.setCall c call).calls d = if d = c then call else s.calls d :=
  Function.update_apply ..

/-- What `FreshCredential` and `FetchQuota` do with the credential they return, or with the
error. -/
def conclude (kind : Kind) (result : Except String (Option Credential)) : Call :=
  match kind, result with
  | .fetchQuota, .ok (some credential) => .fetching credential
  | kind, result => .returned kind result

/-- `Store.SaveAccount`: a quota of another account goes with it. -/
def saveAccount (s : Manager) (row : Account) : Manager :=
  let previousAccountID := match s.account with
    | some account => account.chatGPTAccountID
    | none => ""
  { s with
    account := some row
    quota := if previousAccountID ≠ "" ∧ previousAccountID ≠ row.chatGPTAccountID then none
      else s.quota }

/-- `Store.DeleteAccount`. -/
def dropAccount (s : Manager) : Manager := { s with account := none, quota := none }

variable (k : Provider)

/-- `Credential` and the check of its expiry: an error, a credential to return, or one that needs
a refresh. -/
def readCredential (s : Manager) (fault : Option String) :
    Except String (Account × Credential) :=
  match fault, s.account with
  | some err, _ => .error err
  | none, none => .error "no Codex account is connected"
  | none, some row => do return (row, ← k.credential row)

/-- The first, unlocked reading of `FreshCredential`. -/
def freshCredential (s : Manager) (c : ℕ) (kind : Kind) (fault : Option String) : Manager :=
  match s.readCredential k fault with
  | .error err => s.setCall c (.returned kind (.error err))
  | .ok (_, credential) =>
    if Lasts credential s.now then s.setCall c (conclude kind (.ok (some credential)))
    else s.setCall c (.waiting kind)

/-- The reading under the lock, up to the token request. -/
def recheck (s : Manager) (c : ℕ) (kind : Kind) (fault : Option String) : Manager :=
  match s.readCredential k fault with
  | .error err => s.setCall c (.unlocking kind (.error err))
  | .ok (row, credential) =>
    if Lasts credential s.now then s.setCall c (.unlocking kind (.ok (some credential)))
    else if credential.refreshToken = "" then
      s.setCall c (.unlocking kind (.error "Codex refresh token is missing; sign in again"))
    else { s with requests := c :: s.requests }.setCall c (.requested kind row)

def tokens (s : Manager) (c : ℕ) (kind : Kind) (row : Account) :
    Except String TokenSet → Manager
  | .error err => s.setCall c (.unlocking kind (.error err))
  | .ok tokens =>
    match k.refreshed row tokens s.now with
    | .error err => s.setCall c (.unlocking kind (.error err))
    | .ok credential => s.setCall c (.refreshed kind row tokens s.now credential)

/-- `saveCredential`; `op` is what is written if it succeeds, and `result` is then returned. -/
def save (s : Manager) (c : ℕ) (kind : Kind) (credential : Credential) (nonces : Fin 3 → String)
    (op : Op) (result : Option Credential) (fault : Option String) : Manager :=
  match k.saveCredential credential nonces s.now, fault with
  | .error err, _ => s.setCall c (.unlocking kind (.error err))
  | .ok _, some err => s.setCall c (.unlocking kind (.error err))
  | .ok row, none =>
    { s.saveAccount row with log := s.log ++ [(c, op)] }.setCall c (.unlocking kind (.ok result))

def delete (s : Manager) (c : ℕ) : Option String → Manager
  | some err => s.setCall c (.unlocking .delete (.error err))
  | none =>
    { s.dropAccount with log := s.log ++ [(c, Op.delete)] }.setCall c
      (.unlocking .delete (.ok none))

/-- The rest of `FetchQuota` up to `SaveQuota`. -/
def quotaAnswer (s : Manager) (c : ℕ) (credential : Credential) : Except String String → Manager
  | .error err => s.setCall c (.quotaDone (.error err))
  | .ok raw =>
    if jsonValid raw.toList then s.setCall c (.fetched credential raw)
    else s.setCall c (.quotaDone (.error "Codex quota response was not valid JSON"))

def saveQuota (s : Manager) (c : ℕ) (credential : Credential) (raw : String) :
    Option String → Manager
  | some err => s.setCall c (.quotaDone (.error ("save quota snapshot: " ++ err)))
  | none =>
    let snapshot : QuotaSnapshot := ⟨raw, toUnixMilli s.now, credential.accountID⟩
    { s with quota := some snapshot }.setCall c (.quotaDone (.ok snapshot))

/-- `Account` up to the account. -/
def getAccount (s : Manager) (c : ℕ) (fault : Option String) : Manager :=
  match fault, s.account with
  | some err, _ => s.setCall c (.viewFailed err)
  | none, none => s.setCall c (.viewed none none)
  | none, some row => s.setCall c (.viewing row)

def getQuota (s : Manager) (c : ℕ) (row : Account) : Option String → Manager
  | some _ => s.setCall c (.viewed (some row) none)
  | none =>
    s.setCall c (.viewed (some row) (s.quota.filter fun q => jsonValid q.payload.toList))

def step (s : Manager) : Event → Option Manager
  | .freshCredential c quota fault =>
    match s.calls c with
    | .notCalled => some (s.freshCredential k c (if quota then .fetchQuota else .fresh) fault)
    | _ => none
  | .replaceCredential c credential =>
    match s.calls c with
    | .notCalled => some (s.setCall c (.waiting (.replace credential)))
    | _ => none
  | .deleteAccount c =>
    match s.calls c with
    | .notCalled => some (s.setCall c (.waiting .delete))
    | _ => none
  | .lock c =>
    match s.lock, s.calls c with
    | none, .waiting kind => some ({ s with lock := some c }.setCall c (.locked kind))
    | _, _ => none
  | .recheck c fault =>
    match s.calls c with
    | .locked .fresh => some (s.recheck k c .fresh fault)
    | .locked .fetchQuota => some (s.recheck k c .fetchQuota fault)
    | _ => none
  | .tokens c answer =>
    match s.calls c with
    | .requested kind row => some (s.tokens k c kind row answer)
    | _ => none
  | .save c nonces fault =>
    match s.calls c with
    | .locked (.replace credential) =>
      some (s.save k c (.replace credential) credential nonces (.replace credential nonces s.now)
        none fault)
    | .refreshed kind _ tokens answered credential =>
      some (s.save k c kind credential nonces (.refresh tokens answered nonces s.now)
        (some credential)
        fault)
    | _ => none
  | .delete c fault =>
    match s.calls c with
    | .locked .delete => some (s.delete c fault)
    | _ => none
  | .unlock c =>
    match s.calls c with
    | .unlocking kind result =>
      some ({ s with lock := none }.setCall c (conclude kind result))
    | _ => none
  | .quotaAnswer c answer =>
    match s.calls c with
    | .fetching credential => some (s.quotaAnswer c credential answer)
    | _ => none
  | .saveQuota c fault =>
    match s.calls c with
    | .fetched credential raw => some (s.saveQuota c credential raw fault)
    | _ => none
  | .getAccount c fault =>
    match s.calls c with
    | .notCalled => some (s.getAccount c fault)
    | _ => none
  | .getQuota c fault =>
    match s.calls c with
    | .viewing row => some (s.getQuota c row fault)
    | _ => none
  | .tick d => some { s with now := s.now + d }

/-- The manager from an empty store, under any interleaving of calls. -/
def system (now : ℤ) : TransitionSystem Manager Event where
  start := ⟨none, none, now, none, fun _ => .notCalled, [], []⟩
  step := step k

/-! ### What one step does -/

end Manager

namespace Call

def critical : Call → Bool
  | .locked _ | .requested .. | .refreshed .. | .unlocking .. => true
  | _ => false

/-- The call is over, or past its write, without an error. -/
def past : Call → Bool
  | .unlocking _ (.ok _) | .returned _ (.ok _) | .fetching _ | .fetched .. | .quotaDone _ => true
  | _ => false

def early : Call → Bool
  | .notCalled | .waiting _ | .locked _ => true
  | _ => false

/-- The call has sent its token request and not saved what came back. -/
def refreshing : Call → Bool
  | .requested .. | .refreshed .. => true
  | _ => false

/-- What a call that went well was made for. -/
def done : Call → Option Kind
  | .unlocking kind (.ok _) | .returned kind (.ok _) => some kind
  | _ => none

end Call

namespace Manager

/-- The call `c` goes to the phase `q`, and no other call moves. -/
structure Goes (s t : Manager) (c : ℕ) (q : Call) : Prop where
  calls : t.calls = Function.update s.calls c q
  now : t.now = s.now

/-- Nothing is written, and nobody asks for a token. -/
structure Quiet (s t : Manager) : Prop where
  account : t.account = s.account
  log : t.log = s.log
  requests : t.requests = s.requests

/-- Why a call writes: what it was about to do, and what it writes. -/
inductive Writes (k : Provider) (now : ℤ) : Call → Kind → Option Account → Op → Prop where
  | replace (credential : Credential) (nonces : Fin 3 → String) (row : Account)
      (hrow : k.saveCredential credential nonces now = .ok row) :
      Writes k now (.locked (.replace credential)) (.replace credential) (some row)
        (.replace credential nonces now)
  | delete : Writes k now (.locked .delete) .delete none .delete
  | refresh (kind : Kind) (old : Account) (tokens : TokenSet) (answered : ℤ)
      (credential : Credential) (nonces : Fin 3 → String) (row : Account)
      (hrow : k.saveCredential credential nonces now = .ok row) :
      Writes k now (.refreshed kind old tokens answered credential) kind (some row)
        (.refresh tokens answered nonces now)

/-- What a step of the call `c` does. -/
inductive Moves (k : Provider) (s t : Manager) (c : ℕ) : Prop where
  | outside (q : Call) (hgoes : Goes s t c q) (hquiet : Quiet s t) (hlock : t.lock = s.lock)
      (hp : (s.calls c).critical = false) (hq : q.critical = false)
      (hpast : (s.calls c).past = true → q.past = true)
      (hdone : q.done = none ∨ q.done = some .fresh)
      (hearly : (s.calls c).early = false → q.early = false)
  | locks (kind : Kind) (hgoes : Goes s t c (.locked kind)) (hquiet : Quiet s t)
      (hfree : s.lock = none) (hlock : t.lock = some c) (hp : s.calls c = .waiting kind)
  | asks (kind : Kind) (row : Account) (credential : Credential)
      (hkind : kind = .fresh ∨ kind = .fetchQuota)
      (hgoes : Goes s t c (.requested kind row)) (hlock : t.lock = s.lock)
      (haccount : t.account = s.account) (hlog : t.log = s.log)
      (hrequests : t.requests = c :: s.requests) (hp : s.calls c = .locked kind)
      (hrow : s.account = some row) (hread : k.credential row = .ok credential)
      (hlasts : ¬ Lasts credential s.now)
  | answers (kind : Kind) (row : Account) (tokens : TokenSet) (credential : Credential)
      (hgoes : Goes s t c (.refreshed kind row tokens s.now credential)) (hquiet : Quiet s t)
      (hlock : t.lock = s.lock) (hp : s.calls c = .requested kind row)
      (href : k.refreshed row tokens s.now = .ok credential)
  | fails (kind : Kind) (err : String) (hgoes : Goes s t c (.unlocking kind (.error err)))
      (hquiet : Quiet s t) (hlock : t.lock = s.lock) (hp : (s.calls c).critical = true)
      (hpast : (s.calls c).past = false)
  | keeps (kind : Kind) (credential : Credential) (hkind : kind = .fresh ∨ kind = .fetchQuota)
      (hgoes : Goes s t c (.unlocking kind (.ok (some credential)))) (hquiet : Quiet s t)
      (hlock : t.lock = s.lock) (hp : s.calls c = .locked kind)
  | writes (kind : Kind) (op : Op) (result : Option Credential)
      (hgoes : Goes s t c (.unlocking kind (.ok result))) (hlock : t.lock = s.lock)
      (hlog : t.log = s.log ++ [(c, op)]) (hrequests : t.requests = s.requests)
      (hop : Writes k s.now (s.calls c) kind t.account op)
  | unlocks (kind : Kind) (result : Except String (Option Credential))
      (hgoes : Goes s t c (conclude kind result)) (hquiet : Quiet s t) (hlock : t.lock = none)
      (hp : s.calls c = .unlocking kind result)

variable {k : Provider} {s t : Manager}

lemma goes_setCall (s : Manager) (c : ℕ) (q : Call) : Goes s (s.setCall c q) c q := ⟨rfl, rfl⟩

lemma quiet_setCall (s : Manager) (c : ℕ) (q : Call) : Quiet s (s.setCall c q) := ⟨rfl, rfl, rfl⟩

lemma conclude_critical (kind : Kind) (result : Except String (Option Credential)) :
    (conclude kind result).critical = false := by
  cases kind <;> rcases result with err | _ | credential <;> rfl

lemma moves_freshCredential (c : ℕ) (quota : Bool) (fault : Option String)
    (hp : s.calls c = .notCalled) :
    Moves k s (s.freshCredential k c (if quota then .fetchQuota else .fresh) fault) c := by
  have hcrit : (s.calls c).critical = false := by rw [hp]; rfl
  have hpast : ∀ q : Call, (s.calls c).past = true → q.past = true := fun q h => by
    rw [hp] at h
    cases h
  have hearly : ∀ q : Call, (s.calls c).early = false → q.early = false := fun q h => by
    rw [hp] at h
    cases h
  rw [freshCredential]
  split
  · exact .outside _ (goes_setCall ..) (quiet_setCall ..) rfl hcrit rfl (hpast _) (.inl rfl)
      (hearly _)
  · split
    · refine .outside _ (goes_setCall ..) (quiet_setCall ..) rfl hcrit (conclude_critical ..)
        (hpast _) ?_ (hearly _)
      cases quota <;> simp [conclude, Call.done]
    · exact .outside _ (goes_setCall ..) (quiet_setCall ..) rfl hcrit rfl (hpast _) (.inl rfl)
        (hearly _)

lemma moves_recheck (c : ℕ) (kind : Kind) (fault : Option String)
    (hkind : kind = .fresh ∨ kind = .fetchQuota) (hp : s.calls c = .locked kind) :
    Moves k s (s.recheck k c kind fault) c := by
  have hcrit : (s.calls c).critical = true := by rw [hp]; rfl
  have hpast : (s.calls c).past = false := by rw [hp]; rfl
  rw [recheck]
  split
  · exact .fails kind _ (goes_setCall ..) (quiet_setCall ..) rfl hcrit hpast
  · rename_i row credential hread
    split
    · exact .keeps kind credential hkind (goes_setCall ..) (quiet_setCall ..) rfl hp
    · rename_i hlasts
      split
      · exact .fails kind _ (goes_setCall ..) (quiet_setCall ..) rfl hcrit hpast
      · simp only [readCredential] at hread
        split at hread
        · cases hread
        · cases hread
        · rename_i row' hrow
          cases hcred : k.credential row' with
          | error err =>
            rw [hcred] at hread
            cases hread
          | ok credential' =>
            rw [hcred] at hread
            cases hread
            exact .asks kind row credential hkind ⟨rfl, rfl⟩ rfl rfl rfl rfl hp hrow hcred hlasts

lemma moves_tokens (c : ℕ) (kind : Kind) (row : Account) (answer : Except String TokenSet)
    (hp : s.calls c = .requested kind row) : Moves k s (s.tokens k c kind row answer) c := by
  have hcrit : (s.calls c).critical = true := by rw [hp]; rfl
  have hpast : (s.calls c).past = false := by rw [hp]; rfl
  cases answer with
  | error err => exact .fails kind err (goes_setCall ..) (quiet_setCall ..) rfl hcrit hpast
  | ok tokens =>
    rw [Manager.tokens]
    split
    · exact .fails kind _ (goes_setCall ..) (quiet_setCall ..) rfl hcrit hpast
    · rename_i credential href
      exact .answers kind row tokens credential (goes_setCall ..) (quiet_setCall ..) rfl hp href

lemma moves_save (c : ℕ) (kind : Kind) (credential : Credential) (nonces : Fin 3 → String) (op : Op)
    (result : Option Credential) (fault : Option String) (hcrit : (s.calls c).critical = true)
    (hpast : (s.calls c).past = false)
    (hop : ∀ row, k.saveCredential credential nonces s.now = .ok row →
      Writes k s.now (s.calls c) kind (some row) op) :
    Moves k s (s.save k c kind credential nonces op result fault) c := by
  unfold save
  split
  · exact .fails kind _ (goes_setCall ..) (quiet_setCall ..) rfl hcrit hpast
  · exact .fails kind _ (goes_setCall ..) (quiet_setCall ..) rfl hcrit hpast
  · rename_i row hrow
    exact .writes kind op result ⟨rfl, rfl⟩ rfl rfl rfl (hop row hrow)

lemma moves_delete (c : ℕ) (fault : Option String) (hp : s.calls c = .locked .delete) :
    Moves k s (s.delete c fault) c := by
  cases fault with
  | some err =>
    exact .fails .delete err (goes_setCall ..) (quiet_setCall ..) rfl (by rw [hp]; rfl)
      (by rw [hp]; rfl)
  | none => exact .writes .delete .delete none ⟨rfl, rfl⟩ rfl rfl rfl (hp ▸ .delete)

lemma moves_outside {c : ℕ} {p : Call} (q : Call) (hp : s.calls c = p) (hcalls : t.calls =
    Function.update s.calls c q) (hnow : t.now = s.now) (hquiet : Quiet s t)
    (hlock : t.lock = s.lock) (hpc : p.critical = false) (hq : q.critical = false)
    (hpast : p.past = true → q.past = true) (hdone : q.done = none ∨ q.done = some .fresh)
    (hearly : p.early = false → q.early = false) : Moves k s t c :=
  .outside q ⟨hcalls, hnow⟩ hquiet hlock (hp ▸ hpc) hq (by rw [hp]; exact hpast) hdone
    (by rw [hp]; exact hearly)

lemma moves_quotaAnswer (c : ℕ) (credential : Credential) (answer : Except String String)
    (hp : s.calls c = .fetching credential) : Moves k s (s.quotaAnswer c credential answer) c := by
  cases answer with
  | error err =>
    exact moves_outside (.quotaDone _) hp rfl rfl (quiet_setCall ..) rfl rfl rfl (fun _ => rfl)
      (.inl rfl) (by simp [Call.early])
  | ok raw =>
    simp only [quotaAnswer]
    split
    · exact moves_outside (.fetched ..) hp rfl rfl (quiet_setCall ..) rfl rfl rfl (fun _ => rfl)
        (.inl rfl) (by simp [Call.early])
    · exact moves_outside (.quotaDone _) hp rfl rfl (quiet_setCall ..) rfl rfl rfl (fun _ => rfl)
        (.inl rfl) (by simp [Call.early])

lemma moves_saveQuota (c : ℕ) (credential : Credential) (raw : String) (fault : Option String)
    (hp : s.calls c = .fetched credential raw) :
    Moves k s (s.saveQuota c credential raw fault) c := by
  cases fault with
  | some err =>
    exact moves_outside (.quotaDone _) hp rfl rfl ⟨rfl, rfl, rfl⟩ rfl rfl rfl (fun _ => rfl)
      (.inl rfl) (by simp [Call.early])
  | none =>
    exact moves_outside (.quotaDone _) hp rfl rfl ⟨rfl, rfl, rfl⟩ rfl rfl rfl (fun _ => rfl)
      (.inl rfl) (by simp [Call.early])

lemma moves_getAccount (c : ℕ) (fault : Option String) (hp : s.calls c = .notCalled) :
    Moves k s (s.getAccount c fault) c := by
  simp only [getAccount]
  split
  · exact moves_outside (.viewFailed _) hp rfl rfl (quiet_setCall ..) rfl rfl rfl
      (by simp [Call.past]) (.inl rfl) (by simp [Call.early])
  · exact moves_outside (.viewed ..) hp rfl rfl (quiet_setCall ..) rfl rfl rfl
      (by simp [Call.past]) (.inl rfl) (by simp [Call.early])
  · exact moves_outside (.viewing _) hp rfl rfl (quiet_setCall ..) rfl rfl rfl
      (by simp [Call.past]) (.inl rfl) (by simp [Call.early])

lemma moves_getQuota (c : ℕ) (row : Account) (fault : Option String)
    (hp : s.calls c = .viewing row) : Moves k s (s.getQuota c row fault) c := by
  cases fault with
  | some err =>
    exact moves_outside (.viewed ..) hp rfl rfl ⟨rfl, rfl, rfl⟩ rfl rfl rfl
      (by simp [Call.past]) (.inl rfl) (by simp [Call.early])
  | none =>
    exact moves_outside (.viewed ..) hp rfl rfl ⟨rfl, rfl, rfl⟩ rfl rfl rfl
      (by simp [Call.past]) (.inl rfl) (by simp [Call.early])

/-- **Inversion.** A step lets time pass or is a move of one call. -/
lemma step_moves {e : Event} (h : s.step k e = some t) :
    (∃ d : ℕ, t = { s with now := s.now + d }) ∨ ∃ c, Moves k s t c := by
  cases e with
  | freshCredential c quota fault =>
    simp only [step] at h
    split at h
    · cases h
      exact .inr ⟨c, moves_freshCredential c quota fault ‹_›⟩
    · cases h
  | replaceCredential c credential =>
    simp only [step] at h
    split at h
    · cases h
      exact .inr ⟨c, moves_outside (.waiting (.replace credential)) ‹_› rfl rfl (quiet_setCall ..)
        rfl rfl rfl (by simp [Call.past]) (.inl rfl) (by simp [Call.early])⟩
    · cases h
  | deleteAccount c =>
    simp only [step] at h
    split at h
    · cases h
      exact .inr ⟨c, moves_outside (.waiting .delete) ‹_› rfl rfl (quiet_setCall ..) rfl rfl rfl
        (by simp [Call.past]) (.inl rfl) (by simp [Call.early])⟩
    · cases h
  | lock c =>
    simp only [step] at h
    split at h
    · rename_i kind hfree hp
      cases h
      exact .inr ⟨c, .locks kind ⟨rfl, rfl⟩ ⟨rfl, rfl, rfl⟩ hfree rfl hp⟩
    · cases h
  | recheck c fault =>
    simp only [step] at h
    split at h
    · cases h
      exact .inr ⟨c, moves_recheck c .fresh fault (.inl rfl) ‹_›⟩
    · cases h
      exact .inr ⟨c, moves_recheck c .fetchQuota fault (.inr rfl) ‹_›⟩
    · cases h
  | tokens c answer =>
    simp only [step] at h
    split at h
    · cases h
      exact .inr ⟨c, moves_tokens c _ _ answer ‹_›⟩
    · cases h
  | save c nonces fault =>
    simp only [step] at h
    split at h
    · rename_i credential hp
      cases h
      refine .inr ⟨c, moves_save c _ _ nonces _ _ fault (by rw [hp]; rfl) (by rw [hp]; rfl) ?_⟩
      rw [hp]
      exact fun row hrow => .replace credential nonces row hrow
    · rename_i kind row tokens answered credential hp
      cases h
      refine .inr ⟨c, moves_save c _ _ nonces _ _ fault (by rw [hp]; rfl) (by rw [hp]; rfl) ?_⟩
      rw [hp]
      exact fun new hnew => .refresh kind row tokens answered credential nonces new hnew
    · cases h
  | delete c fault =>
    simp only [step] at h
    split at h
    · cases h
      exact .inr ⟨c, moves_delete c fault ‹_›⟩
    · cases h
  | unlock c =>
    simp only [step] at h
    split at h
    · rename_i kind result hp
      cases h
      exact .inr ⟨c, .unlocks kind result ⟨rfl, rfl⟩ ⟨rfl, rfl, rfl⟩ rfl hp⟩
    · cases h
  | quotaAnswer c answer =>
    simp only [step] at h
    split at h
    · rename_i credential hp
      cases h
      exact .inr ⟨c, moves_quotaAnswer c credential answer hp⟩
    · cases h
  | saveQuota c fault =>
    simp only [step] at h
    split at h
    · rename_i credential raw hp
      cases h
      exact .inr ⟨c, moves_saveQuota c credential raw fault hp⟩
    · cases h
  | getAccount c fault =>
    simp only [step] at h
    split at h
    · cases h
      exact .inr ⟨c, moves_getAccount c fault ‹_›⟩
    · cases h
  | getQuota c fault =>
    simp only [step] at h
    split at h
    · rename_i row hp
      cases h
      exact .inr ⟨c, moves_getQuota c row fault hp⟩
    · cases h
  | tick d =>
    cases h
    exact .inl ⟨d, rfl⟩

end Manager

end CodexOne.Codex
