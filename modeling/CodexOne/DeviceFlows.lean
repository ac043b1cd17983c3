import CodexOne.DeviceLogin
import CodexOne.Lib.JsonViews
import CodexOne.Refresh

/-!
What holds of device logins after every run.

A poll sends the authorization server only the device id and the user code of a flow that has been
stored under its id and has not expired. The credential is replaced only with what an answer of the
server, or an import, gives; and a flow can be polled until it expires or is deleted.
-/

namespace CodexOne.Codex

open GoStrings Utf8 Decoder

lemma isInt64_toUnixMilli (t : ℤ) : IsInt64 (toUnixMilli t) := by
  have h1 := Int.le_bmod (x := t / 1000000) (m := 2 ^ 64) (by decide)
  have h2 := Int.bmod_lt (x := t / 1000000) (m := 2 ^ 64) (by decide)
  unfold toUnixMilli IsInt64
  omega

/-- A flow of the code: what it names, and an interval that is stored as it is. -/
structure DeviceFlow.Valid (flow : DeviceFlow) : Prop where
  deviceAuthID : trimSpace flow.deviceAuthID ≠ ""
  userCode : trimSpace flow.userCode ≠ ""
  expiresAt : IsInt64 flow.expiresAt
  interval : IsInt64 flow.interval ∧ 0 < flow.interval

lemma pairs_ofJson (ms : List (String × Json)) :
    (Raw.ofJson (.obj ms)).pairs = some (ms.map fun m => (m.1, Raw.ofJson m.2)) := by
  have hmembers (ms : List (String × Json)) :
      (Raw.ofJsonMembers ms).map (fun m => (m.1.name, m.2.1)) =
        ms.map fun m => (m.1, Raw.ofJson m.2) := by
    induction ms with
    | nil => rfl
    | cons m ms ih =>
      rw [Raw.ofJsonMembers, List.map_cons, ih, Raw.name_headOf]
      rfl
  cases ms with
  | nil => rfl
  | cons m ms =>
    rw [Raw.ofJson, Raw.pairs, hmembers, Raw.name_headOf]
    rfl

lemma DeviceFlow.decode_encoded {flow : DeviceFlow} (h : flow.Valid) :
    DeviceFlow.decode flow.encoded = some flow := by
  have hexpires : (Number.ofInt flow.expiresAt).int64? = some flow.expiresAt :=
    Number.int64?_ofInt h.expiresAt
  have hinterval : (Number.ofInt flow.interval).int64? = some flow.interval :=
    Number.int64?_ofInt h.interval.1
  rw [DeviceFlow.decode, DeviceFlow.encoded, Decoder.unmarshal, String.toList_ofList, parse_marshal]
  have hdecoder : DeviceFlow.decoder (Raw.ofJson flow.json) ⟨"", "", 0, 0⟩ = (flow, true) := by
    rw [DeviceFlow.decoder, DeviceFlow.json, Decoder.struct, pairs_ofJson]
    simp +decide [member, into, Decoder.string, Decoder.int64, hexpires, hinterval]
  dsimp only
  rw [hdecoder, if_pos rfl]

lemma parsePollInterval_spec (raw : Option Raw) :
    IsInt64 (parsePollInterval raw) ∧ 0 < parsePollInterval raw := by
  have hfive : IsInt64 5 ∧ (0 : ℤ) < 5 := by unfold IsInt64; omega
  cases raw with
  | none => exact hfive
  | some r =>
    unfold parsePollInterval
    dsimp only [Option.elim]
    split_ifs with h h1 h2 h3
    · exact ⟨int64_preserves r 0 (by unfold IsInt64; omega), h.2⟩
    · refine ⟨?_, h2⟩
      cases hatoi : atoi? (trimSpace (Decoder.string r "").1).toList with
      | none => rw [hatoi] at h2; cases h2
      | some n => simpa [IsInt64] using (Option.filter_eq_some_iff.mp hatoi).2
    · exact hfive
    · exact absurd h3 (by decide)
    · exact hfive

lemma readDeviceStart_ok {statusText : ℤ → String} {now status : ℤ} {body : Text}
    {flow : DeviceFlow} (h : readDeviceStart statusText now status body = .ok flow) :
    flow.Valid ∧ flow.expiresAt = toUnixMilli (now + deviceFlowTTL) := by
  unfold readDeviceStart at h
  split_ifs at h
  · cases hp : DevicePayload.decoder.unmarshal ⟨"", "", "", none⟩ body with
    | none => rw [hp] at h; cases h
    | some payload =>
      rw [hp] at h
      dsimp only [Option.elim] at h
      generalize (if payload.userCode = "" then payload.userCodeAlt else payload.userCode) =
        userCode at h
      split_ifs at h with hblank
      · rw [not_or] at hblank
        obtain rfl := Except.ok.inj h
        exact ⟨⟨hblank.1, hblank.2, isInt64_toUnixMilli _, parsePollInterval_spec _⟩, rfl⟩

lemma readPoll_code {statusText : ℤ → String} {status : ℤ} {body : Text} {code verifier : String}
    (h : readPoll statusText status body = .ok (.code code verifier)) :
    code ≠ "" ∧ verifier ≠ "" := by
  unfold readPoll at h
  split_ifs at h
  · cases h
  · cases hc : TokenCode.decoder.unmarshal ⟨"", "", ""⟩ body with
    | none => rw [hc] at h; cases h
    | some c =>
      rw [hc] at h
      dsimp only [Option.elim] at h
      split_ifs at h with hblank
      · rw [not_or] at hblank
        cases h
        exact hblank

def Credential.Usable (c : Credential) : Prop := c.accountID ≠ "" ∧ c.accessToken ≠ ""

lemma mapError_ok {α : Type} {x : Except String α} {f : String → Bytes} {a : α}
    (h : x.mapError f = .ok a) : x = .ok a := by
  cases x with
  | error e => cases h
  | ok b => exact congrArg _ (Except.ok.inj h)

lemma credentialFromTokens_usable {p : Platform} {tokens : TokenSet} {now : ℤ} {c : Credential}
    (h : credentialFromTokens p tokens now = .ok c) :
    c.Usable ∧ c.accessToken = tokens.accessToken ∧ c.refreshToken = tokens.refreshToken := by
  unfold credentialFromTokens at h
  dsimp only at h
  split_ifs at h with hblank
  · rw [not_or] at hblank
    obtain rfl := Except.ok.inj h
    exact ⟨⟨hblank.2, hblank.1⟩, rfl, rfl⟩

lemma parseImportedTokens_ok {raw : Text} {tokens : TokenSet}
    (h : parseImportedTokens raw = .ok tokens) : tokens.refreshToken ≠ "" := by
  unfold parseImportedTokens at h
  cases htop : TokenSet.decoder.unmarshal .zero raw with
  | none => rw [htop] at h; cases h
  | some topLevel =>
    rw [htop] at h
    dsimp only [Option.elim] at h
    cases hinner : (Decoder.struct [("tokens", TokenSet.decoder)]).unmarshal .zero raw with
    | none => rw [hinner] at h; cases h
    | some inner =>
      rw [hinner] at h
      dsimp only at h
      split_ifs at h with h1 h2 h3 h4
      · obtain rfl := Except.ok.inj h
        exact h3
      · obtain rfl := Except.ok.inj h
        exact h4

lemma readImport_ok {p : Platform} {now : ℤ} {raw : Text} {c : Credential}
    (h : readImport p now raw = .ok c) : c.Usable ∧ c.refreshToken ≠ "" := by
  unfold readImport at h
  split_ifs at h
  · cases ht : parseImportedTokens raw with
    | error e => rw [ht] at h; cases h
    | ok tokens =>
      rw [ht] at h
      obtain ⟨husable, -, hrefresh⟩ := credentialFromTokens_usable (mapError_ok h)
      exact ⟨husable, hrefresh ▸ parseImportedTokens_ok ht⟩

lemma key_injective {a b : String} (h : DeviceFlow.key a = DeviceFlow.key b) : a = b :=
  String.append_right_inj (s := "oauth:") |>.mp h

lemma key_ne_other (flowID : String) (other : OtherKey) : DeviceFlow.key flowID ≠ other.key := by
  intro h
  have hlist := congrArg (fun s => s.toList.take 6) h
  cases other <;> simp [DeviceFlow.key, OtherKey.key] at hlist

lemma utf8Size_digit :
    ∀ n < 64, (Char.ofNat (Base64.digit Base64.RawURLEncoding.url n).toNat).utf8Size = 1 := by
  decide

lemma validFlowID_randomToken {random : Bytes} (h : random.length = 24) :
    DeviceLogins.ValidFlowID (randomToken random) := by
  have hlength := Base64.length_encode Base64.RawURLEncoding 8 random h
  have hone : ∀ c ∈ (Base64.encode Base64.RawURLEncoding random).map fun b => Char.ofNat b.toNat,
      c.utf8Size = 1 := by
    intro c hc
    obtain ⟨b, hb, rfl⟩ := List.mem_map.mp hc
    have hpad : (Char.ofNat Base64.pad.toNat).utf8Size = 1 := by decide
    exact Base64.forall_mem_encode (P := fun b => (Char.ofNat b.toNat).utf8Size = 1)
      utf8Size_digit hpad random b hb
  have hsize : (randomToken random).utf8ByteSize = 32 := by
    rw [randomToken, Text.utf8ByteSize_ofList, Text.byteLen, List.map_congr_left hone,
      List.map_const', List.sum_replicate, List.length_map, hlength]
    rfl
  rw [DeviceLogins.ValidFlowID, hsize]
  decide

namespace DeviceLogins

variable {σ : Type} {store : SessionStore σ} {p : Platform} {statusText : ℤ → String}
  {s t : DeviceLogins σ} {c : ℕ}

def Stored (s : DeviceLogins σ) (flowID : String) (flow : DeviceFlow) : Prop :=
  ∃ x ∈ s.stored, x.flowID = flowID ∧ x.flow = flow

/-- The flow has been stored under the id by the time, and expires after it. -/
def HeldAt (s : DeviceLogins σ) (flowID : String) (flow : DeviceFlow) (u : ℤ) : Prop :=
  (∃ x ∈ s.stored, x.flowID = flowID ∧ x.flow = flow ∧ x.time ≤ u) ∧
    toUnixMilli u < flow.expiresAt

/-- What holds of a call, by how far it has come. -/
def CallOk (s : DeviceLogins σ) : DeviceCall → Prop
  | .put flowID flow => ValidFlowID flowID ∧ flow.Valid ∧
    ∃ u ≤ s.clock, flow.expiresAt = toUnixMilli (u + deviceFlowTTL)
  | .check flowID flow => s.Stored flowID flow
  | .deleteExpired flowID =>
    ∃ flow, s.Stored flowID flow ∧ ∃ u ≤ s.clock, flow.expiresAt ≤ toUnixMilli u
  | .send flowID flow checkedAt => checkedAt ≤ s.clock ∧ s.HeldAt flowID flow checkedAt
  | .exchange flowID code verifier => (flowID, code, verifier) ∈ s.codes
  | .replace (.device flowID) credential =>
    credential.Usable ∧ ∃ code verifier, (flowID, code, verifier) ∈ s.codes
  | .replace .imported credential => credential.Usable ∧ credential.refreshToken ≠ ""
  | .deleteUsed flowID => ∃ credential, (Source.device flowID, credential) ∈ s.replaced
  | .ended (.started start) =>
    ∃ flowID flow, s.Stored flowID flow ∧ start = flow.start flowID
  | .ended .complete => ∃ flowID credential, (Source.device flowID, credential) ∈ s.replaced
  | .ended _ => True

/-- What has been done is kept. -/
structure Grows (s t : DeviceLogins σ) : Prop where
  clock : s.clock ≤ t.clock
  stored : s.stored ⊆ t.stored
  codes : s.codes ⊆ t.codes
  replaced : s.replaced ⊆ t.replaced

lemma CallOk.mono (hg : Grows s t) {call : DeviceCall} (h : CallOk s call) : CallOk t call := by
  have hstored {flowID flow} (h : s.Stored flowID flow) : t.Stored flowID flow :=
    let ⟨x, hx, hrest⟩ := h
    ⟨x, hg.stored hx, hrest⟩
  cases call with
  | put flowID flow =>
    obtain ⟨hid, hvalid, u, hu, hexpires⟩ := h
    exact ⟨hid, hvalid, u, hu.trans hg.clock, hexpires⟩
  -- the flow may be gone from the store by now, but it has been stored
  | check flowID flow => exact hstored h
  | deleteExpired flowID =>
    obtain ⟨flow, hflow, u, hu, hexpired⟩ := h
    exact ⟨flow, hstored hflow, u, hu.trans hg.clock, hexpired⟩
  | send flowID flow checkedAt =>
    obtain ⟨hclock, ⟨x, hx, hrest⟩, hlasts⟩ := h
    exact ⟨hclock.trans hg.clock, ⟨x, hg.stored hx, hrest⟩, hlasts⟩
  | exchange flowID code verifier => exact hg.codes h
  | replace source credential =>
    cases source with
    | device flowID =>
      obtain ⟨husable, code, verifier, hcode⟩ := h
      exact ⟨husable, code, verifier, hg.codes hcode⟩
    | imported => exact h
  | deleteUsed flowID =>
    obtain ⟨credential, hcredential⟩ := h
    exact ⟨credential, hg.replaced hcredential⟩
  | ended answer =>
    cases answer with
    | started start =>
      obtain ⟨flowID, flow, hflow, hstart⟩ := h
      exact ⟨flowID, flow, hstored hflow, hstart⟩
    | complete =>
      obtain ⟨flowID, credential, hcredential⟩ := h
      exact ⟨flowID, credential, hg.replaced hcredential⟩
    | _ => trivial

/-! ### The invariant -/

structure LogOk (s : DeviceLogins σ) : Prop where
  stored : ∀ x ∈ s.stored, ValidFlowID x.flowID ∧ x.flow.Valid ∧ x.time ≤ s.clock ∧
    ∃ u ≤ x.time, x.flow.expiresAt = toUnixMilli (u + deviceFlowTTL)
  sent : ∀ x ∈ s.sent, ∃ flow, CallOk s (.send x.flowID flow x.checkedAt) ∧
    flow.deviceAuthID = x.deviceAuthID ∧ flow.userCode = x.userCode
  codes : ∀ x ∈ s.codes, x.2.1 ≠ "" ∧ x.2.2 ≠ "" ∧ ∃ y ∈ s.sent, y.flowID = x.1
  replaced : ∀ x ∈ s.replaced, CallOk s (.replace x.1 x.2)
  deleted : ∀ flowID ∈ s.deleted, CallOk s (.deleteExpired flowID) ∨ CallOk s (.deleteUsed flowID)

/-- The flows in the store are those that have been stored, each until it expires or is deleted. -/
structure StoreOk (store : SessionStore σ) (s : DeviceLogins σ) : Prop where
  read : ∀ u, s.clock ≤ u → ∀ flowID v, store.live s.store u (DeviceFlow.key flowID) = some v →
    ∃ flow, s.Stored flowID flow ∧ v = flow.encoded
  held : ∀ before x after, s.stored = before ++ x :: after →
    (∀ y ∈ after, y.flowID ≠ x.flowID) → x.flowID ∉ s.deleted →
      ∀ u, s.clock ≤ u → store.unexpired x.time deviceFlowTTL u = true →
        store.live s.store u (DeviceFlow.key x.flowID) = some x.flow.encoded

structure Inv (store : SessionStore σ) (s : DeviceLogins σ) : Prop where
  calls : ∀ call ∈ s.calls, CallOk s call
  log : LogOk s
  store : StoreOk store s

lemma LogOk.kept (h : LogOk s) (hg : Grows s t) :
    (∀ x ∈ s.replaced, CallOk t (.replace x.1 x.2)) ∧
      ∀ flowID ∈ s.deleted, CallOk t (.deleteExpired flowID) ∨ CallOk t (.deleteUsed flowID) :=
  ⟨fun x hx => (h.replaced x hx).mono hg,
    fun flowID hid => (h.deleted flowID hid).imp (.mono hg) (.mono hg)⟩

lemma LogOk.mono (h : LogOk s) (hg : Grows s t) (hstored : t.stored = s.stored)
    (hsent : t.sent = s.sent) (hcodes : t.codes = s.codes) (hreplaced : t.replaced = s.replaced)
    (hdeleted : t.deleted = s.deleted) : LogOk t := by
  refine ⟨fun x hx => ?_, fun x hx => ?_, fun x hx => ?_, hreplaced ▸ (h.kept hg).1,
    hdeleted ▸ (h.kept hg).2⟩
  · rw [hstored] at hx
    obtain ⟨hid, hvalid, htime, hexpires⟩ := h.stored x hx
    exact ⟨hid, hvalid, htime.trans hg.clock, hexpires⟩
  · rw [hsent] at hx
    obtain ⟨flow, hsend, hsame⟩ := h.sent x hx
    exact ⟨flow, hsend.mono hg, hsame⟩
  · rw [hcodes] at hx
    rw [hsent]
    exact h.codes x hx

lemma StoreOk.congr (h : StoreOk store s) (hclock : s.clock ≤ t.clock)
    (hstored : t.stored = s.stored) (hdeleted : t.deleted = s.deleted)
    (hlive : ∀ u, t.clock ≤ u → ∀ flowID, store.live t.store u (DeviceFlow.key flowID) =
      store.live s.store u (DeviceFlow.key flowID)) : StoreOk store t := by
  refine ⟨fun u hu flowID v hv => ?_, fun before x after hx hafter hx' u hu hlasts => ?_⟩
  · rw [hlive u hu] at hv
    obtain ⟨flow, ⟨x, hx, hflow⟩, hv⟩ := h.read u (hclock.trans hu) flowID v hv
    exact ⟨flow, ⟨x, hstored ▸ hx, hflow⟩, hv⟩
  · rw [hlive u hu]
    rw [hstored] at hx
    rw [hdeleted] at hx'
    exact h.held before x after hx hafter hx' u (hclock.trans hu) hlasts

/-- A flow is stored: it is the last one under its id, and the others stay as they are. -/
lemma StoreOk.put (h : StoreOk store s) {flowID : String} {flow : DeviceFlow}
    (hnone :
      (store.put s.store s.clock (DeviceFlow.key flowID) flow.encoded deviceFlowTTL).2 = none)
    (hclock : t.clock = s.clock)
    (hstore : t.store =
      (store.put s.store s.clock (DeviceFlow.key flowID) flow.encoded deviceFlowTTL).1)
    (hstored : t.stored = s.stored ++ [⟨flowID, flow, s.clock⟩])
    (hdeleted : t.deleted = s.deleted) : StoreOk store t := by
  have hlive (u : ℤ) (hu : s.clock ≤ u) (key : String) := store.live_put s.store s.clock
    (DeviceFlow.key flowID) flow.encoded deviceFlowTTL u key hu hnone
  refine ⟨fun u hu id value hvalue => ?_, fun before x after hx hafter hx' u hu hlasts => ?_⟩
  · rw [hclock] at hu
    rw [hstore, hlive u hu] at hvalue
    unfold Stored
    rw [hstored]
    split_ifs at hvalue with hkey
    · obtain rfl := Option.some.inj hvalue
      exact ⟨flow, ⟨⟨flowID, flow, s.clock⟩,
        List.mem_append_right _ (List.mem_singleton_self _), (key_injective hkey).symm, rfl⟩, rfl⟩
    · obtain ⟨flow', ⟨x, hx, hflow⟩, hvalue⟩ := h.read u hu id value hvalue
      exact ⟨flow', ⟨x, List.mem_append_left _ hx, hflow⟩, hvalue⟩
  · rw [hclock] at hu
    rw [hstore, hlive u hu]
    rw [hstored] at hx
    rw [hdeleted] at hx'
    rcases List.eq_nil_or_concat' after with rfl | ⟨rest, y, rfl⟩
    · -- the flow is the one that has just been stored
      obtain ⟨-, hlast⟩ := List.append_inj' hx rfl
      obtain rfl := (List.cons.inj hlast).1
      rw [if_pos rfl, if_pos hlasts]
    · have hsplit : s.stored ++ [⟨flowID, flow, s.clock⟩] = (before ++ x :: rest) ++ [y] := by
        rw [List.append_assoc, List.cons_append]
        exact hx
      obtain ⟨hold, hlast⟩ := List.append_inj' hsplit rfl
      obtain rfl := (List.cons.inj hlast).1
      have hne : flowID ≠ x.flowID :=
        hafter _ (List.mem_append_right _ (List.mem_singleton_self _))
      rw [if_neg fun heq => hne (key_injective heq).symm]
      exact h.held before x rest hold
        (fun y hy => hafter y (List.mem_append_left _ hy)) hx' u hu hlasts

lemma Inv.quiet (h : Inv store s) (hclock : s.clock ≤ t.clock) (hstored : t.stored = s.stored)
    (hsent : t.sent = s.sent) (hcodes : t.codes = s.codes) (hreplaced : t.replaced = s.replaced)
    (hdeleted : t.deleted = s.deleted)
    (hlive : ∀ u, t.clock ≤ u → ∀ flowID, store.live t.store u (DeviceFlow.key flowID) =
      store.live s.store u (DeviceFlow.key flowID))
    (hcalls : ∀ call ∈ t.calls, call ∈ s.calls ∨ CallOk t call) : Inv store t := by
  have hg : Grows s t := ⟨hclock, hstored ▸ List.Subset.refl _, hcodes ▸ List.Subset.refl _,
    hreplaced ▸ List.Subset.refl _⟩
  exact ⟨fun call hcall => (hcalls call hcall).elim (fun hs => (h.calls call hs).mono hg) id,
    h.log.mono hg hstored hsent hcodes hreplaced hdeleted,
    h.store.congr hclock hstored hdeleted hlive⟩

lemma mem_set {call new : DeviceCall} (h : call ∈ s.calls.set c new) :
    call ∈ s.calls ∨ call = new :=
  List.mem_or_eq_of_mem_set h

lemma Inv.calls_set (h : Inv store s) (hg : Grows s t) {call : DeviceCall} (hcall : CallOk t call) :
    ∀ x ∈ s.calls.set c call, CallOk t x := fun x hx =>
  (List.mem_or_eq_of_mem_set hx).elim (fun hx => (h.calls x hx).mono hg) fun hx => hx ▸ hcall

lemma Inv.moves (h : Inv store s) {call : DeviceCall} (hcall : CallOk s call) :
    Inv store (s.setCall c call) :=
  h.quiet le_rfl rfl rfl rfl rfl rfl (fun _ _ _ => rfl) fun x hx => by
    rcases mem_set hx with hx | rfl
    · exact .inl hx
    · exact .inr hcall

lemma Inv.adds (h : Inv store s) {call : DeviceCall} (hcall : CallOk s call) :
    Inv store (s.addCall call) :=
  h.quiet le_rfl rfl rfl rfl rfl rfl (fun _ _ _ => rfl) fun x hx => by
    rcases List.mem_append.mp hx with hx | hx
    · exact .inl hx
    · exact .inr (List.mem_singleton.mp hx ▸ hcall)

/-! ### Steps -/

lemma Stored.intro {x : StoredFlow} (h : x ∈ s.stored) : s.Stored x.flowID x.flow :=
  ⟨x, h, rfl, rfl⟩

lemma inv_tick (h : Inv store s) {now : ℤ} (hnow : s.clock ≤ now) :
    Inv store { s with clock := now } :=
  h.quiet hnow rfl rfl rfl rfl rfl (fun _ _ _ => rfl) fun _ hx => .inl hx

lemma inv_putOther (h : Inv store s) (key : OtherKey) (value : String) (ttl : ℤ) :
    Inv store { s with store := (store.put s.store s.clock key.key value ttl).1 } := by
  refine h.quiet le_rfl rfl rfl rfl rfl rfl (fun u hu flowID => ?_) fun _ hx => .inl hx
  by_cases herr : (store.put s.store s.clock key.key value ttl).2 = none
  · rw [store.live_put _ _ _ _ _ _ _ hu herr, if_neg (key_ne_other flowID key)]
  · exact store.live_put_err _ _ _ _ _ _ _ hu herr

lemma inv_deleteOther (h : Inv store s) (key : OtherKey) :
    Inv store { s with store := store.delete s.store key.key } :=
  h.quiet le_rfl rfl rfl rfl rfl rfl
    (fun _ _ flowID => by rw [store.live_delete, if_neg (key_ne_other flowID key)])
    fun _ hx => .inl hx

lemma inv_get (h : Inv store s) (key : String) :
    Inv store { s with store := (store.get s.store s.clock key).1 } :=
  h.quiet le_rfl rfl rfl rfl rfl rfl (fun _ hu _ => store.live_get _ _ _ _ _ hu)
    fun _ hx => .inl hx

lemma inv_start (h : Inv store s) {flowID : String} (hid : ValidFlowID flowID) (reply : Reply) :
    Inv store (s.start statusText flowID reply) := by
  unfold start
  split
  · exact h.adds trivial
  · rename_i flow heq
    refine h.adds ?_
    cases reply with
    | error e => cases heq
    | ok r =>
      obtain ⟨hvalid, hexpires⟩ := readDeviceStart_ok heq
      exact ⟨hid, hvalid, s.clock, le_rfl, hexpires⟩

lemma inv_put (h : Inv store s) {flowID : String} {flow : DeviceFlow}
    (hcall : CallOk s (.put flowID flow)) : Inv store (s.put store c flowID flow) := by
  obtain ⟨hid, hvalid, v, hv, hexpires⟩ := hcall
  unfold put
  dsimp only
  split_ifs with herr
  · refine h.quiet le_rfl rfl rfl rfl rfl rfl (fun u hu key => ?_) fun x hx => ?_
    · exact store.live_put_err _ _ _ _ _ _ _ hu fun hnone => by
        rw [hnone] at herr
        cases herr
    · rcases mem_set hx with hx | rfl
      · exact .inl hx
      · exact .inr trivial
  · have hnone := Option.not_isSome_iff_eq_none.mp herr
    set t : DeviceLogins σ := { s.setCall c (.ended (.started (flow.start flowID))) with
      store := (store.put s.store s.clock (DeviceFlow.key flowID) flow.encoded deviceFlowTTL).1
      stored := s.stored ++ [⟨flowID, flow, s.clock⟩] }
    have hg : Grows s t := ⟨le_rfl, List.subset_append_left _ _, .refl _, .refl _⟩
    have hnew : t.Stored flowID flow := Stored.intro (s := t)
      (x := ⟨flowID, flow, s.clock⟩) (List.mem_append_right _ (List.mem_singleton_self _))
    obtain ⟨hreplaced, hdeleted⟩ := h.log.kept hg
    refine ⟨h.calls_set hg ⟨flowID, flow, hnew, rfl⟩,
      ⟨?_, fun x hx => ?_, h.log.codes, hreplaced, hdeleted⟩, h.store.put hnone rfl rfl rfl rfl⟩
    · exact List.forall_mem_append.mpr
        ⟨h.log.stored, List.forall_mem_singleton.mpr ⟨hid, hvalid, le_rfl, v, hv, hexpires⟩⟩
    · obtain ⟨flow', hsend, hsame⟩ := h.log.sent x hx
      exact ⟨flow', hsend.mono hg, hsame⟩

lemma readFlow_encoded {flow : DeviceFlow} (h : flow.Valid) (flowID : String) :
    readFlow flowID (some flow.encoded) = .check flowID flow := by
  rw [readFlow, Option.elim_some, DeviceFlow.decode_encoded h]
  rfl

lemma callOk_readFlow (h : Inv store s) (flowID : String) :
    CallOk s (readFlow flowID (store.live s.store s.clock (DeviceFlow.key flowID))) := by
  cases hvalue : store.live s.store s.clock (DeviceFlow.key flowID) with
  | none => trivial
  | some value =>
    obtain ⟨flow, ⟨x, hx, hid, rfl⟩, rfl⟩ := h.store.read s.clock le_rfl flowID value hvalue
    rw [readFlow_encoded (h.log.stored x hx).2.1]
    exact ⟨x, hx, hid, rfl⟩

lemma inv_poll (h : Inv store s) (flowID : String) (fault : Option Bytes) :
    Inv store (s.poll store flowID fault) := by
  unfold poll
  dsimp only
  split_ifs
  · exact h.adds (show CallOk s (.fails _) from trivial)
  · rw [store.get_eq]
    exact (inv_get h (DeviceFlow.key flowID)).adds (callOk_readFlow h flowID)
  · exact h.adds trivial

lemma inv_check (h : Inv store s) {flowID : String} {flow : DeviceFlow}
    (hcall : CallOk s (.check flowID flow)) : Inv store (s.check c flowID flow) := by
  unfold check
  split_ifs with hexpired
  · exact h.moves ⟨flow, hcall, s.clock, le_rfl, hexpired⟩
  · obtain ⟨x, hx, hsame⟩ := hcall
    exact h.moves ⟨le_rfl, ⟨x, hx, hsame.1, hsame.2, (h.log.stored x hx).2.2.1⟩,
      not_le.mp hexpired⟩

lemma inv_send (h : Inv store s) {flowID : String} {flow : DeviceFlow} {checkedAt : ℤ}
    (hcall : CallOk s (.send flowID flow checkedAt)) (reply : Reply) :
    Inv store (s.send statusText c flowID flow checkedAt reply) := by
  have hasked : Inv store { s with
      sent := s.sent ++ [⟨flowID, flow.deviceAuthID, flow.userCode, checkedAt⟩] } := by
    refine ⟨h.calls, ⟨h.log.stored, ?_, fun x hx => ?_, h.log.replaced, h.log.deleted⟩,
      ⟨h.store.read, h.store.held⟩⟩
    · exact List.forall_mem_append.mpr
        ⟨h.log.sent, List.forall_mem_singleton.mpr ⟨flow, hcall, rfl, rfl⟩⟩
    · obtain ⟨hcode, hverifier, y, hy, hyx⟩ := h.log.codes x hx
      exact ⟨hcode, hverifier, y, List.mem_append_left _ hy, hyx⟩
  unfold send
  dsimp only
  split
  · exact hasked.moves trivial
  · exact hasked.moves trivial
  · rename_i code verifier heq
    have hnonempty : code ≠ "" ∧ verifier ≠ "" := by
      cases reply with
      | error e => cases heq
      | ok r => exact readPoll_code heq
    set t : DeviceLogins σ := { s with
      sent := s.sent ++ [⟨flowID, flow.deviceAuthID, flow.userCode, checkedAt⟩]
      codes := s.codes ++ [(flowID, code, verifier)]
      calls := s.calls.set c (.exchange flowID code verifier) }
    have hg : Grows s t := ⟨le_rfl, .refl _, List.subset_append_left _ _, .refl _⟩
    have hnew : CallOk t (.exchange flowID code verifier) :=
      List.mem_append_right _ (List.mem_singleton_self _)
    obtain ⟨hreplaced, hdeleted⟩ := h.log.kept hg
    refine ⟨h.calls_set hg hnew,
      ⟨hasked.log.stored, hasked.log.sent, ?_, hreplaced, hdeleted⟩,
      ⟨h.store.read, h.store.held⟩⟩
    exact List.forall_mem_append.mpr ⟨hasked.log.codes, List.forall_mem_singleton.mpr
      ⟨hnonempty.1, hnonempty.2, _, List.mem_append_right _ (List.mem_singleton_self _), rfl⟩⟩

lemma inv_exchange (h : Inv store s) {flowID code verifier : String}
    (hcall : CallOk s (.exchange flowID code verifier)) (reply : Reply) :
    Inv store (s.exchange p statusText c flowID reply) := by
  unfold exchange
  dsimp only
  split
  · exact h.moves trivial
  · rename_i credential heq
    refine h.moves ⟨?_, code, verifier, hcall⟩
    cases reply with
    | error e => cases heq
    | ok r =>
      cases ht : readTokens statusText "exchange Codex authorization code" r.1 r.2 with
      | error e =>
        have hfail : (Except.ok r >>= fun r : ℤ × Text =>
            readTokens statusText "exchange Codex authorization code" r.1 r.2 >>= fun tokens =>
              (credentialFromTokens p tokens s.clock).mapError failure) = .error e := by
          show (readTokens statusText _ r.1 r.2 >>= _) = _
          rw [ht]
          rfl
        cases hfail.symm.trans heq
      | ok tokens =>
        have hcredential : (credentialFromTokens p tokens s.clock).mapError failure =
            .ok credential := by
          rw [← heq]
          show _ = (readTokens statusText _ r.1 r.2 >>= _)
          rw [ht]
          rfl
        exact (credentialFromTokens_usable (mapError_ok hcredential)).1

lemma inv_importAuth (h : Inv store s) (raw : Text) : Inv store (s.importAuth p raw) := by
  unfold importAuth
  split
  · exact h.adds trivial
  · rename_i credential heq
    exact h.adds (readImport_ok heq)

lemma inv_replace (h : Inv store s) {source : Source} {credential : Credential}
    (hcall : CallOk s (.replace source credential)) (fault : Option Bytes) :
    Inv store (s.replace c source credential fault) := by
  unfold replace
  split_ifs
  · exact h.moves trivial
  · set t : DeviceLogins σ := { s.setCall c (afterwards source) with
      replaced := s.replaced ++ [(source, credential)] }
    have hg : Grows s t := ⟨le_rfl, .refl _, .refl _, List.subset_append_left _ _⟩
    have hnext : CallOk t (afterwards source) := by
      cases source with
      | device flowID => exact ⟨credential, List.mem_append_right _ (List.mem_singleton_self _)⟩
      | imported => trivial
    obtain ⟨hreplaced, hdeleted⟩ := h.log.kept hg
    refine ⟨h.calls_set hg hnext, ⟨h.log.stored, h.log.sent, h.log.codes, ?_, hdeleted⟩,
      ⟨h.store.read, h.store.held⟩⟩
    exact List.forall_mem_append.mpr ⟨hreplaced, List.forall_mem_singleton.mpr (hcall.mono hg)⟩

lemma inv_delete (h : Inv store s) {flowID : String} {call : DeviceCall}
    (hdeleted : CallOk s (.deleteExpired flowID) ∨ CallOk s (.deleteUsed flowID))
    (hcall : CallOk s call) : Inv store (s.delete store c flowID call) := by
  have hg : Grows s (s.delete store c flowID call) := ⟨le_rfl, .refl _, .refl _, .refl _⟩
  refine ⟨h.calls_set hg (hcall.mono hg),
    ⟨h.log.stored, h.log.sent, h.log.codes, h.log.replaced, ?_⟩,
    ⟨fun u hu id value hvalue => ?_, fun before x after hx hafter hx' u hu hlasts => ?_⟩⟩
  · exact List.forall_mem_append.mpr ⟨h.log.deleted, List.forall_mem_singleton.mpr hdeleted⟩
  · unfold delete at hvalue
    dsimp only at hvalue
    rw [store.live_delete] at hvalue
    split_ifs at hvalue
    exact h.store.read u hu id value hvalue
  · have hx' : x.flowID ∉ s.deleted ∧ x.flowID ≠ flowID := by
      simpa [delete] using hx'
    show store.live (store.delete s.store (DeviceFlow.key flowID)) u (DeviceFlow.key x.flowID) = _
    rw [store.live_delete, if_neg fun heq => hx'.2 (key_injective heq)]
    exact h.store.held before x after hx hafter hx'.1 u hu hlasts

lemma inv_step {e : Event} (h : Inv store s) (hstep : step store p statusText s e = some t) :
    Inv store t := by
  cases e with
  | tick now =>
    rw [step] at hstep
    split_ifs at hstep with hnow
    exact Option.some.inj hstep ▸ inv_tick h hnow
  | putOther key value ttl => exact Option.some.inj hstep ▸ inv_putOther h key value ttl
  | getOther key => exact Option.some.inj hstep ▸ inv_get h key.key
  | deleteOther key => exact Option.some.inj hstep ▸ inv_deleteOther h key
  | start reply random =>
    exact Option.some.inj hstep ▸ inv_start h (validFlowID_randomToken random.2) reply
  | put c =>
    rw [step] at hstep
    split at hstep
    · rename_i flowID flow hc
      exact Option.some.inj hstep ▸ inv_put h (h.calls _ (List.mem_of_getElem? hc))
    · cases hstep
  | poll flowID fault => exact Option.some.inj hstep ▸ inv_poll h flowID fault
  | check c =>
    rw [step] at hstep
    split at hstep
    · rename_i flowID flow hc
      exact Option.some.inj hstep ▸ inv_check h (h.calls _ (List.mem_of_getElem? hc))
    · cases hstep
  | send c reply =>
    rw [step] at hstep
    split at hstep
    · rename_i flowID flow checkedAt hc
      exact Option.some.inj hstep ▸ inv_send h (h.calls _ (List.mem_of_getElem? hc)) reply
    · cases hstep
  | exchange c reply =>
    rw [step] at hstep
    split at hstep
    · rename_i flowID code verifier hc
      exact Option.some.inj hstep ▸ inv_exchange h (h.calls _ (List.mem_of_getElem? hc)) reply
    · cases hstep
  | importAuth raw => exact Option.some.inj hstep ▸ inv_importAuth h raw
  | replace c fault =>
    rw [step] at hstep
    split at hstep
    · rename_i source credential hc
      exact Option.some.inj hstep ▸ inv_replace h (h.calls _ (List.mem_of_getElem? hc)) fault
    · cases hstep
  | delete c =>
    rw [step] at hstep
    split at hstep
    · rename_i flowID hc
      exact Option.some.inj hstep ▸
        inv_delete h (.inl (h.calls _ (List.mem_of_getElem? hc))) trivial
    · rename_i flowID hc
      have hused := h.calls _ (List.mem_of_getElem? hc)
      exact Option.some.inj hstep ▸ inv_delete h (.inr hused) ⟨flowID, hused⟩
    · cases hstep

lemma inv_run {now : ℤ} {es : List Event}
    (h : (system store p statusText now).run (system store p statusText now).start es = some s) :
    Inv store s := by
  refine TransitionSystem.run_invariant (Inv store) (fun _ _ _ hs hstep => inv_step hs hstep) ?_ h
  refine ⟨fun _ hx => (by cases hx), ⟨fun _ hx => (by cases hx), fun _ hx => (by cases hx),
    fun _ hx => (by cases hx), fun _ hx => (by cases hx), fun _ hx => (by cases hx)⟩,
    fun u _ flowID v hv => ?_, fun before x after hx => ?_⟩
  · rw [system, store.live_new] at hv
    cases hv
  · exact absurd hx (by simp [system])

/-- What holds of the flows, the requests, the codes and the credentials after a run. -/
structure Sound (store : SessionStore σ) (s : DeviceLogins σ) : Prop where
  stored : ∀ x ∈ s.stored, ValidFlowID x.flowID ∧ x.flow.Valid ∧
    ∃ u ≤ x.time, x.flow.expiresAt = toUnixMilli (u + deviceFlowTTL)
  pollable : ∀ before x after, s.stored = before ++ x :: after →
    (∀ y ∈ after, y.flowID ≠ x.flowID) → x.flowID ∉ s.deleted →
      store.unexpired x.time deviceFlowTTL s.clock = true →
        (s.poll store x.flowID none).calls = s.calls ++ [.check x.flowID x.flow]
  unknown : ∀ flowID, ValidFlowID flowID → (∀ x ∈ s.stored, x.flowID ≠ flowID) →
    (s.poll store flowID none).calls =
      s.calls ++ [.fails (failure "device login expired or was not found")]
  sent : ∀ x ∈ s.sent, x.checkedAt ≤ s.clock ∧ ∃ flow, s.HeldAt x.flowID flow x.checkedAt ∧
    flow.deviceAuthID = x.deviceAuthID ∧ flow.userCode = x.userCode
  codes : ∀ x ∈ s.codes, x.2.1 ≠ "" ∧ x.2.2 ≠ "" ∧ ∃ y ∈ s.sent, y.flowID = x.1
  device : ∀ flowID credential, (Source.device flowID, credential) ∈ s.replaced →
    credential.Usable ∧ ∃ code verifier, (flowID, code, verifier) ∈ s.codes
  imported : ∀ credential, (Source.imported, credential) ∈ s.replaced →
    credential.Usable ∧ credential.refreshToken ≠ ""
  started : ∀ start, .ended (.started start) ∈ s.calls →
    ∃ x ∈ s.stored, start = x.flow.start x.flowID
  complete : .ended .complete ∈ s.calls →
    ∃ flowID credential, (Source.device flowID, credential) ∈ s.replaced
  deleted : ∀ flowID ∈ s.deleted,
    (∃ x ∈ s.stored, x.flowID = flowID ∧ ∃ u ≤ s.clock, x.flow.expiresAt ≤ toUnixMilli u) ∨
      ∃ credential, (Source.device flowID, credential) ∈ s.replaced

lemma calls_poll {flowID : String} (h : ValidFlowID flowID) :
    (s.poll store flowID none).calls =
      s.calls ++ [readFlow flowID (store.live s.store s.clock (DeviceFlow.key flowID))] := by
  have hfault : ¬(none : Option Bytes).isSome := Bool.false_ne_true
  rw [poll, if_neg (not_not_intro h), if_neg hfault, ← store.get_eq]
  rfl

/-- **Device logins.** Whatever calls and other uses of the store come in between: a flow can be
polled until it expires or is deleted, and no other; the authorization server is sent the device id
and the user code of a flow only after a check that it has not expired; and the credential is
replaced only for a code that the server has answered with, or by an import, never with one that
lacks an access token or an account. -/
theorem device_logins_sound (store : SessionStore σ) (p : Platform) (statusText : ℤ → String)
    (now : ℤ) (es : List Event) (s : DeviceLogins σ)
    (h : (system store p statusText now).run (system store p statusText now).start es = some s) :
    Sound store s := by
  have hinv := inv_run h
  refine
    { stored := fun x hx => ?_, pollable := fun before x after hx hafter hkept hlasts => ?_,
      unknown := fun flowID hid hnone => ?_, sent := fun x hx => ?_, codes := hinv.log.codes,
      device := fun _ _ hx => hinv.log.replaced _ hx,
      imported := fun _ hx => hinv.log.replaced _ hx,
      started := fun start hcall => ?_, complete := fun hcall => hinv.calls _ hcall,
      deleted := fun flowID hid => ?_ }
  · obtain ⟨hid, hvalid, -, hexpires⟩ := hinv.log.stored x hx
    exact ⟨hid, hvalid, hexpires⟩
  · have hmem : x ∈ s.stored := hx ▸ List.mem_append_right _ List.mem_cons_self
    obtain ⟨hid, hvalid, -⟩ := hinv.log.stored x hmem
    rw [calls_poll hid, hinv.store.held before x after hx hafter hkept s.clock le_rfl hlasts,
      readFlow_encoded hvalid]
  · rw [calls_poll hid]
    cases hvalue : store.live s.store s.clock (DeviceFlow.key flowID) with
    | none => rfl
    | some value =>
      obtain ⟨_, ⟨x, hx, hsame, _⟩, _⟩ := hinv.store.read s.clock le_rfl flowID value hvalue
      exact absurd hsame (hnone x hx)
  · obtain ⟨flow, ⟨hclock, hheld⟩, hsame⟩ := hinv.log.sent x hx
    exact ⟨hclock, flow, hheld, hsame⟩
  · obtain ⟨flowID, flow, ⟨x, hx, rfl, rfl⟩, hstart⟩ := hinv.calls _ hcall
    exact ⟨x, hx, hstart⟩
  · rcases hinv.log.deleted flowID hid with ⟨flow, ⟨x, hx, hsame, rfl⟩, hexpired⟩ | hused
    · exact .inl ⟨x, hx, hsame, hexpired⟩
    · exact .inr hused

def sampleSystem : TransitionSystem (DeviceLogins MemoryStore) Event :=
  system (memoryStore 10) samplePlatform (fun _ => "") 0

def sampleStart : Text :=
  "\x7b\"device_auth_id\":\"d\",\"user_code\":\"u\"\x7d".toList

def sampleFlowID : String := randomToken (List.replicate 24 0)

def sampleCode : Text :=
  "\x7b\"authorization_code\":\"c\",\"code_verifier\":\"v\"\x7d".toList

def sampleTokenSet : Text :=
  "\x7b\"access_token\":\"a\",\"account_id\":\"acct\"\x7d".toList

/-- A login is started and pending, and then has a code, which is exchanged. -/
def completedLogin : List Event :=
  [.start (.ok (200, sampleStart)) ⟨List.replicate 24 0, rfl⟩, .put 0,
    .poll sampleFlowID none, .check 1, .send 1 (.ok (403, [])),
    .poll sampleFlowID none, .check 2, .send 2 (.ok (200, sampleCode)),
    .exchange 2 (.ok (200, sampleTokenSet)), .replace 2 none, .delete 2]

theorem device_logins_sound_sample :
    ∃ s, sampleSystem.run sampleSystem.start completedLogin = some s ∧
      s.sent.map (·.deviceAuthID) = ["d", "d"] ∧ s.codes = [(sampleFlowID, "c", "v")] ∧
      s.replaced.map (fun x => (x.1, x.2.accessToken)) = [(.device sampleFlowID, "a")] ∧
      s.deleted = [sampleFlowID] ∧ Sound (memoryStore 10) s := by
  have hcompleted : (sampleSystem.run sampleSystem.start completedLogin).any (fun s =>
      decide (s.sent.map (·.deviceAuthID) = ["d", "d"] ∧ s.codes = [(sampleFlowID, "c", "v")] ∧
        s.replaced.map (fun x => (x.1, x.2.accessToken)) = [(.device sampleFlowID, "a")] ∧
        s.deleted = [sampleFlowID])) = true := by
    decide +kernel
  obtain ⟨s, hrun, hs⟩ := (Option.any_eq_true _ _).mp hcompleted
  obtain ⟨hsent, hcodes, hreplaced, hdeleted⟩ := of_decide_eq_true hs
  exact ⟨s, hrun, hsent, hcodes, hreplaced, hdeleted, device_logins_sound _ _ _ _ _ s hrun⟩

end DeviceLogins

end CodexOne.Codex
