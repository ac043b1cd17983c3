import CodexOne.Tokens

/-!
What a refresh does to the plan type and the email of the stored credential.

The stored values are filled in before the claims are read, and so is the stored id token.
-/

namespace CodexOne

open GoStrings

namespace Codex

/-- The plan type in the claims of a token. -/
def statedPlan (claims : Obj) : String :=
  firstNonEmpty [stringValue (nestedMap claims "https://api.openai.com/auth") "chatgpt_plan_type",
    stringValue claims "chatgpt_plan_type"]

def statedEmail (claims : Obj) : String :=
  firstNonEmpty [stringValue claims "email",
    stringValue (nestedMap claims "https://api.openai.com/profile") "email"]

/-- What a refresh leaves of a value: the response's, or else that of its claims, or else the
stored one. -/
def restated (response claimed stored : String) : String :=
  let stated := firstNonEmpty [response, claimed]
  if stated = "" then stored else stated

/-- A token that a refresh replaces where the response has one. -/
def replaced (response stored : String) : String := if response = "" then stored else response

/-- The claims that a refresh reads: those of the id token of the response, of the stored one where
it has none, or else of the access token of the response. -/
def refreshClaims (response : TokenSet) (stored : Credential) : Obj :=
  claimsOf { response with idToken := replaced response.idToken stored.idToken }

/-- When a value is restated, by what the claims that are read and those of the response say of it.
The response states it; or it is empty there, and what is stored is what the response's claims say;
or nothing is filled in, and the claims that are read say so. -/
def Follows (response stored read claimed : String) : Prop :=
  trimSpace response ≠ "" ∨
  response = "" ∧ trimSpace stored ≠ "" ∧
    trimSpace stored = (if claimed = "" then stored else claimed) ∨
  (response ≠ "" ∨ trimSpace stored = "") ∧ read = if claimed = "" then stored else claimed

instance (response stored read claimed : String) :
    Decidable (Follows response stored read claimed) := by
  unfold Follows
  infer_instance

lemma firstNonEmpty_nil : firstNonEmpty [] = "" := rfl

lemma firstNonEmpty_cons (value : String) (rest : List String) :
    firstNonEmpty (value :: rest) =
      if trimSpace value = "" then firstNonEmpty rest else trimSpace value := by
  unfold firstNonEmpty
  by_cases h : trimSpace value = ""
  · rw [if_pos h, List.map_cons, List.find?_cons_of_neg (by simpa using h)]
  · rw [if_neg h, List.map_cons, List.find?_cons_of_pos (by simpa using h)]
    rfl

lemma trimSpace_firstNonEmpty (values : List String) :
    trimSpace (firstNonEmpty values) = firstNonEmpty values := by
  induction values with
  | nil => rfl
  | cons value rest ih =>
    rw [firstNonEmpty_cons]
    split
    · exact ih
    · exact trimSpace_idem value

lemma firstNonEmpty_pair {value rest : String} (h : trimSpace rest = rest) :
    firstNonEmpty [value, rest] = if trimSpace value = "" then rest else trimSpace value := by
  rw [firstNonEmpty_cons, firstNonEmpty_cons, firstNonEmpty_nil, h]
  by_cases hrest : rest = ""
  · rw [if_pos hrest, hrest]
  · rw [if_neg hrest]

lemma firstNonEmpty_group (value : String) (rest : List String) :
    firstNonEmpty (value :: rest) = firstNonEmpty [value, firstNonEmpty rest] := by
  rw [firstNonEmpty_pair (trimSpace_firstNonEmpty rest), firstNonEmpty_cons]

lemma refreshed_value_iff {response stored read claimed : String} (hread : trimSpace read = read)
    (hclaimed : trimSpace claimed = claimed) :
    firstNonEmpty [replaced response stored, read] = restated response claimed stored ↔
      Follows response stored read claimed := by
  have hempty : trimSpace "" = "" := trimSpace_empty
  unfold restated Follows replaced
  dsimp only
  rw [firstNonEmpty_pair hread, firstNonEmpty_pair hclaimed]
  by_cases hstates : trimSpace response = ""
  · -- the response says nothing of it, or is blank
    by_cases hnone : response = ""
    · by_cases hblank : trimSpace stored = ""
      · simp [hnone, hblank, hempty]
      · simp [hnone, hblank, hempty]
    · simp [hnone, hstates]
  · -- what the response states comes first
    have hsome : response ≠ "" := fun h => hstates (h ▸ hempty)
    simp [hstates, hsome]

variable {p : Platform} {encrypt : (nonce text : String) → Except String String}
  {decrypt : String → Except String String} {account row : Account} {stored credential : Credential}
  {response : TokenSet} {nonces : Fin 3 → String} {answered now : ℤ}

lemma claimsOf_fillTokens (response : TokenSet) (stored : Credential) :
    claimsOf (fillTokens response stored) = refreshClaims response stored := rfl

lemma credentialFromTokens_fields {tokens : TokenSet}
    (h : credentialFromTokens p tokens now = .ok credential) :
    credential.planType = firstNonEmpty [tokens.planType, statedPlan (claimsOf tokens)] ∧
      credential.email = firstNonEmpty [tokens.email, statedEmail (claimsOf tokens)] ∧
      credential.refreshToken = tokens.refreshToken ∧ credential.idToken = tokens.idToken ∧
      credential.expiresAt = tokenExpiry p tokens (claimsOf tokens) now := by
  unfold credentialFromTokens at h
  dsimp only at h
  split_ifs at h
  cases h
  exact ⟨firstNonEmpty_group .., firstNonEmpty_group .., rfl, rfl, rfl⟩

lemma refreshed_fields
    (hstored : (tokenProvider p encrypt decrypt).credential account = .ok stored)
    (h : (tokenProvider p encrypt decrypt).refreshed account response answered = .ok credential) :
    credentialFromTokens p (fillTokens response stored) answered = .ok credential := by
  unfold Provider.refreshed at h
  rw [hstored] at h
  exact h

end Codex

open Codex

/-- **When a refresh restates the metadata.** The plan type and the email that a refresh stores are
those of the response, or else of its claims, or else the stored ones, exactly when both follow;
the refresh token and the id token are always replaced where the response has them, and only
there. -/
theorem refresh_metadata_iff (p : Platform)
    (encrypt : (nonce text : String) → Except String String)
    (decrypt : String → Except String String) (account row : Account)
    (stored credential : Codex.Credential) (response : TokenSet) (nonces : Fin 3 → String)
    (answered now : ℤ) (hstored : (tokenProvider p encrypt decrypt).credential account = .ok stored)
    (hrefresh : (tokenProvider p encrypt decrypt).refreshed account response answered =
      .ok credential)
    (hrow : (tokenProvider p encrypt decrypt).saveCredential credential nonces now = .ok row) :
    (row.planType =
        restated response.planType (statedPlan (claimsOf response)) stored.planType ∧
      row.email = restated response.email (statedEmail (claimsOf response)) stored.email ∧
      encrypt (nonces 1) (replaced response.refreshToken stored.refreshToken) =
        .ok row.refreshTokenEncrypted ∧
      encrypt (nonces 2) (replaced response.idToken stored.idToken) = .ok row.idTokenEncrypted) ↔
    Follows response.planType stored.planType (statedPlan (refreshClaims response stored))
        (statedPlan (claimsOf response)) ∧
      Follows response.email stored.email (statedEmail (refreshClaims response stored))
        (statedEmail (claimsOf response)) := by
  obtain ⟨hplan, hemail, hrefreshToken, hidToken, -⟩ :=
    credentialFromTokens_fields (refreshed_fields hstored hrefresh)
  obtain ⟨-, access, refresh, idToken, -, hrowRefresh, hrowID, rfl⟩ :=
    Provider.saveCredential_ok hrow
  rw [claimsOf_fillTokens] at hplan hemail
  have hplan_iff := @refreshed_value_iff response.planType stored.planType
    (statedPlan (refreshClaims response stored)) (statedPlan (claimsOf response))
    (trimSpace_firstNonEmpty _) (trimSpace_firstNonEmpty _)
  have hemail_iff := @refreshed_value_iff response.email stored.email
    (statedEmail (refreshClaims response stored)) (statedEmail (claimsOf response))
    (trimSpace_firstNonEmpty _) (trimSpace_firstNonEmpty _)
  dsimp only
  rw [hplan, hemail]
  rw [hrefreshToken] at hrowRefresh
  rw [hidToken] at hrowID
  constructor
  · rintro ⟨h1, h2, -, -⟩
    exact ⟨hplan_iff.mp h1, hemail_iff.mp h2⟩
  · rintro ⟨h1, h2⟩
    exact ⟨hplan_iff.mpr h1, hemail_iff.mpr h2, hrowRefresh, hrowID⟩

def samplePlatform : Platform := ⟨fun _ => none, fun _ => -2 ^ 63, by simp⟩

def sampleEncrypt (nonce text : String) : Except String String := .ok (nonce ++ ":" ++ text)
def sampleDecrypt (text : String) : Except String String := .ok (String.ofList (text.toList.drop 2))

def sampleTokens : Provider := tokenProvider samplePlatform sampleEncrypt sampleDecrypt

/-- A stored account with the plan type `plus`. -/
def samplePlus : Account :=
  ⟨"a@example.com", "acct", "plus", "0:access", "0:refresh", "0:", 1000, 0⟩

/-- A response that states nothing but the new access token. -/
def sampleSilent : TokenSet := ⟨"new access", "", "", "", "", "", 3600, 0, ""⟩

/-- A response whose id token states the plan type `pro`. -/
def samplePro : TokenSet :=
  ⟨"new access", "", "x.eyJodHRwczovL2FwaS5vcGVuYWkuY29tL2F1dGgiOnsiY2hhdGdwdF9wbGFuX3R5cGUiOiJwcm8ifX0.y",
    "", "", "", 3600, 0, ""⟩

/-- A stored account without a plan type. -/
def sampleUnplanned : Account := { samplePlus with planType := "" }

def refreshedRow (account : Account) (response : TokenSet) : Except String Account := do
  sampleTokens.saveCredential (← sampleTokens.refreshed account response 0) (fun _ => "1") 0

def sampleRefresh (response : TokenSet) : Except String Account := refreshedRow samplePlus response

/-- A response that states nothing keeps the plan type, and where none is stored it becomes the one
that the claims of the response state. -/
theorem refresh_metadata_stated :
    (∃ row, sampleRefresh sampleSilent = .ok row ∧ row.planType = "plus") ∧
      ∃ row, refreshedRow sampleUnplanned samplePro = .ok row ∧
        row.planType = restated "" (statedPlan (claimsOf samplePro)) "" ∧ row.planType = "pro" := by
  refine ⟨⟨⟨"a@example.com", "acct", "plus", "1:new access", "1:refresh", "1:", 3600000, 0⟩,
    by decide +kernel, ?_⟩, ⟨"a@example.com", "acct", "pro", "1:new access", "1:refresh",
      "1:" ++ samplePro.idToken, 3600000, 0⟩, by decide +kernel, ?_, rfl⟩
  · have h := (refresh_metadata_iff samplePlatform sampleEncrypt sampleDecrypt samplePlus
      ⟨"a@example.com", "acct", "plus", "1:new access", "1:refresh", "1:", 3600000, 0⟩
      ⟨"a@example.com", "acct", "plus", "access", "refresh", "", unixMilli 1000, 0⟩
      ⟨"a@example.com", "acct", "plus", "new access", "refresh", "", 3600000000000, 0⟩
      sampleSilent (fun _ => "1") 0 0 (by decide +kernel) (by decide +kernel)
      (by decide +kernel)).mpr (by decide +kernel)
    exact h.1.trans (by decide +kernel)
  · have h := (refresh_metadata_iff samplePlatform sampleEncrypt sampleDecrypt sampleUnplanned
      ⟨"a@example.com", "acct", "pro", "1:new access", "1:refresh", "1:" ++ samplePro.idToken,
        3600000, 0⟩
      ⟨"a@example.com", "acct", "", "access", "refresh", "", unixMilli 1000, 0⟩
      ⟨"a@example.com", "acct", "pro", "new access", "refresh", samplePro.idToken, 3600000000000, 0⟩
      samplePro (fun _ => "1") 0 0 (by decide +kernel) (by decide +kernel)
      (by decide +kernel)).mpr (by decide +kernel)
    exact h.1

/-- The stored plan type hides the one that the new id token states. -/
theorem refresh_metadata_stale :
    statedPlan (claimsOf samplePro) = "pro" ∧
      ∃ row, sampleRefresh samplePro = .ok row ∧ row.planType = "plus" := by
  have h : (sampleRefresh samplePro).toOption.any (fun row => row.planType == "plus") = true := by
    decide +kernel
  refine ⟨by decide +kernel, ?_⟩
  cases hrow : sampleRefresh samplePro with
  | error err => rw [hrow] at h; cases h
  | ok row =>
    rw [hrow] at h
    exact ⟨row, rfl, beq_iff_eq.mp h⟩

end CodexOne
