import CodexOne.Compat
import CodexOne.Credentials

/-!
Token sets: the claims in a token, and the credential that a token set makes.
-/

namespace CodexOne.Codex

open GoStrings Members

def isTail (b : ℕ) : Bool := 0x80 ≤ b && b ≤ 0xbf

/-- The runes of a byte string, as the JSON decoder takes them: a byte that starts no rune is
U+FFFD. -/
def decodeRunes : List ℕ → List Char
  | [] => []
  | a :: rest =>
    if a < 0x80 then Char.ofNat a :: decodeRunes rest
    else match rest with
      | [] => '\uFFFD' :: decodeRunes []
      | b :: rest₂ =>
        if 0xc2 ≤ a ∧ a ≤ 0xdf ∧ isTail b then
          Char.ofNat (a % 32 * 64 + b % 64) :: decodeRunes rest₂
        else match rest₂ with
          | [] => '\uFFFD' :: decodeRunes (b :: [])
          | c :: rest₃ =>
            if 0xe0 ≤ a ∧ a ≤ 0xef ∧ isTail b ∧ (a = 0xe0 → 0xa0 ≤ b) ∧ (a = 0xed → b ≤ 0x9f) ∧
                isTail c then
              Char.ofNat (a % 16 * 4096 + b % 64 * 64 + c % 64) :: decodeRunes rest₃
            else match rest₃ with
              | [] => '\uFFFD' :: decodeRunes (b :: c :: [])
              | e :: rest₄ =>
                if 0xf0 ≤ a ∧ a ≤ 0xf4 ∧ isTail b ∧ (a = 0xf0 → 0x90 ≤ b) ∧
                    (a = 0xf4 → b ≤ 0x8f) ∧ isTail c ∧ isTail e then
                  Char.ofNat (a % 8 * 262144 + b % 64 * 4096 + c % 64 * 64 + e % 64) ::
                    decodeRunes rest₄
                else '\uFFFD' :: decodeRunes (b :: c :: e :: rest₄)

def parseJWTClaims (token : String) : Obj :=
  match token.toList.splitOn '.' with
  | _ :: payload :: _ =>
    match Compat.base64Decode false (String.ofList payload) with
    | some raw => ((Raw.parse (decodeRunes raw)).bind Raw.unmarshalObject).getD []
    | none => []
  | _ => []

def nestedMap (values : Obj) (key : String) : Obj :=
  match get values key with
  | some (.obj nested) => nested
  | _ => []

def stringValue (values : Obj) (key : String) : String :=
  match get values key with
  | some (.str value) => trimSpace value
  | _ => ""

def firstNonEmpty (values : List String) : String :=
  ((values.map trimSpace).find? (· ≠ "")).getD ""

/-- An `int64` after an operation that may overflow. -/
def wrap64 (x : ℤ) : ℤ := Int.bmod x (2 ^ 64)

/-- The seconds from year 1 to 1970, where `time.Time` counts from. -/
def unixToInternal : ℤ := 62135596800

/-- `time.Unix` of whole seconds. -/
def unix (sec : ℤ) : ℤ := (wrap64 (sec + unixToInternal) - unixToInternal) * 1000000000

/-- What the reading of a token set takes from the platform: `time.Parse` with the layout
`time.RFC3339`, whose years have four digits, and what the conversion of a `float64` gives that no
`int64` holds. -/
structure Platform where
  parseRFC3339 : String → Option ℤ
  beyondInt64 : ℤ → ℤ
  years : ∀ s t, parseRFC3339 s = some t → -62167392000 ≤ t / 1000000000 ∧
    t / 1000000000 ≤ 253402387200

variable (p : Platform)

/-- The integer that `int64` makes of the `float64` of a literal. -/
def float64ToInt (n : Number) : ℤ :=
  let parts := n.parts
  let ds := parts.int ++ parts.frac
  let m := Number.digitsVal ds
  match if m = 0 then none else
    Number.nearest m (Nat.toDigits 10 m).length (parts.exp - parts.frac.length) with
  | some d =>
    let whole : ℕ := d.mant * 2 ^ d.exp.toNat / 2 ^ (-d.exp).toNat
    let i : ℤ := if parts.neg then -whole else whole
    if -2 ^ 63 ≤ i ∧ i < 2 ^ 63 then i else p.beyondInt64 i
  | none => 0

def numberValue (values : Obj) (key : String) : Option ℤ :=
  match get values key with
  | some (.num n) => some (float64ToInt p n)
  | _ => none

def tokenExpiry (tokens : TokenSet) (claims : Obj) (now : ℤ) : ℤ :=
  if tokens.expiresAt > 0 then
    -- more than ten digits: milliseconds
    if tokens.expiresAt > 10000000000 then unixMilli tokens.expiresAt else unix tokens.expiresAt
  else match if tokens.expired = "" then none else p.parseRFC3339 tokens.expired with
    | some parsed => parsed
    | none =>
      -- the product may wrap around
      if tokens.expiresIn > 0 then now + wrap64 (tokens.expiresIn * 1000000000)
      else match numberValue p claims "exp" with
        | some exp => unix exp
        | none => now + 3600 * 1000000000

/-- The claims that `credentialFromTokens` reads: those of the id token, or else of the access
token. -/
def claimsOf (tokens : TokenSet) : Obj :=
  let claims := parseJWTClaims tokens.idToken
  if claims.length = 0 then parseJWTClaims tokens.accessToken else claims

def credentialFromTokens (tokens : TokenSet) (now : ℤ) : Except String Credential :=
  let claims := claimsOf tokens
  let authClaims := nestedMap claims "https://api.openai.com/auth"
  let profileClaims := nestedMap claims "https://api.openai.com/profile"
  let accountID := firstNonEmpty [tokens.accountID, stringValue authClaims "chatgpt_account_id",
    stringValue claims "chatgpt_account_id", stringValue claims "account_id"]
  let email := firstNonEmpty [tokens.email, stringValue claims "email",
    stringValue profileClaims "email"]
  let plan := firstNonEmpty [tokens.planType, stringValue authClaims "chatgpt_plan_type",
    stringValue claims "chatgpt_plan_type"]
  if tokens.accessToken = "" ∨ accountID = "" then
    .error "Codex token is missing access_token or ChatGPT account ID"
  else .ok
    { email, accountID, planType := plan, accessToken := tokens.accessToken,
      refreshToken := tokens.refreshToken, idToken := tokens.idToken,
      expiresAt := tokenExpiry p tokens claims now, updatedAt := now }

/-- The manager with its own reading of token sets. -/
def tokenProvider (encrypt : (nonce text : String) → Except String String)
    (decrypt : String → Except String String) : Provider where
  encrypt := encrypt
  decrypt := decrypt
  credentialFromTokens := credentialFromTokens p

end CodexOne.Codex
