import CodexOne.Refresh
import CodexOne.Lib.JsonViews
import Mathlib.Tactic.Ring

/-!
When a token set expires, by the field that says so.

An `expires_at` counts seconds up to ten thousand million and milliseconds above. Instants are held
in 64 bits as seconds from year 1 and stored as milliseconds from 1970.
-/

namespace CodexOne

open Decoder (IsInt64)

namespace Codex

/-- What the expiry is taken from. -/
inductive Field where
  | expiresAt
  | expired
  | expiresIn
  | exp
  | missing
  deriving DecidableEq

/-- The field that governs the expiry of a token set with its claims, and its value. -/
inductive Governs (p : Platform) (tokens : TokenSet) (claims : Obj) : Field → ℤ → Prop
  | expiresAt (h : 0 < tokens.expiresAt) : Governs p tokens claims .expiresAt tokens.expiresAt
  | expired {t} (h : tokens.expiresAt ≤ 0) (hne : tokens.expired ≠ "")
      (ht : p.parseRFC3339 tokens.expired = some t) : Governs p tokens claims .expired t
  | expiresIn (h : tokens.expiresAt ≤ 0)
      (hnone : tokens.expired = "" ∨ p.parseRFC3339 tokens.expired = none)
      (hpos : 0 < tokens.expiresIn) : Governs p tokens claims .expiresIn tokens.expiresIn
  | exp {v} (h : tokens.expiresAt ≤ 0)
      (hnone : tokens.expired = "" ∨ p.parseRFC3339 tokens.expired = none)
      (hneg : tokens.expiresIn ≤ 0) (hv : numberValue p claims "exp" = some v) :
      Governs p tokens claims .exp v
  | missing (h : tokens.expiresAt ≤ 0)
      (hnone : tokens.expired = "" ∨ p.parseRFC3339 tokens.expired = none)
      (hneg : tokens.expiresIn ≤ 0) (hv : numberValue p claims "exp" = none) :
      Governs p tokens claims .missing 0

/-- The values whose expiry stays in 64 bits. -/
def Fits : Field → ℤ → Prop
  | .expiresIn, v => v ≤ 9223372036
  | .exp, v => -2 ^ 63 ≤ v ∧ v < 2 ^ 63 - unixToInternal
  | _, _ => True

/-- Those of which the milliseconds stay in 64 bits too. -/
def FitsMillis : Field → ℤ → Prop
  | .exp, v => -9223372036854775 ≤ v ∧ v ≤ 9223372036854775
  | field, v => Fits field v

/-- Two values of a field that count the same unit. -/
def SameUnit : Field → ℤ → ℤ → Prop
  | .expiresAt, a, b => a ≤ 10000000000 ↔ b ≤ 10000000000
  | _, _, _ => True

/-- The clock is millions of years away from the end of `int64` milliseconds. -/
def Plausible (now : ℤ) : Prop :=
  -9000000000000000 ≤ now / 1000000000 ∧ now / 1000000000 ≤ 9000000000000000

lemma wrap64_eq {x : ℤ} (h : IsInt64 x) : wrap64 x = x :=
  Int.bmod_eq_of_le (by have := h.1; omega) (by have := h.2; omega)

/-- The instants whose milliseconds an `int64` holds. -/
def InMillis (t : ℤ) : Prop := IsInt64 (t / 1000000)

lemma toUnixMilli_eq {t : ℤ} (h : InMillis t) : toUnixMilli t = t / 1000000 := wrap64_eq h

lemma unix_eq {sec : ℤ} (hlow : -2 ^ 63 ≤ sec) (hhigh : sec < 2 ^ 63 - unixToInternal) :
    unix sec = sec * 1000000000 := by
  unfold unixToInternal at hhigh
  unfold unix
  rw [wrap64_eq (by unfold IsInt64 unixToInternal; omega)]
  ring

variable {p : Platform} {tokens : TokenSet} {claims : Obj} {now v : ℤ} {field : Field}

lemma no_expired (h : tokens.expired = "" ∨ p.parseRFC3339 tokens.expired = none) :
    (if tokens.expired = "" then none else p.parseRFC3339 tokens.expired) = none := by
  rcases h with h | h
  · rw [if_pos h]
  · rw [h, ite_self]

/-- **The expiry by its field.** -/
lemma tokenExpiry_eq (h : Governs p tokens claims field v) (hfits : Fits field v) :
    tokenExpiry p tokens claims now = match field with
      | .expiresAt => if v > 10000000000 then v * 1000000 else v * 1000000000
      | .expired => v
      | .expiresIn => now + v * 1000000000
      | .exp => v * 1000000000
      | .missing => now + 3600 * 1000000000 := by
  unfold tokenExpiry
  cases h with
  | expiresAt h =>
    rw [if_pos h]
    dsimp only
    split_ifs with hbig
    · -- a large number counts milliseconds
      rfl
    · exact unix_eq (by omega) (by unfold unixToInternal; omega)
  | expired h hne ht => rw [if_neg (not_lt.mpr h), if_neg hne, ht]
  | expiresIn h hnone hpos =>
    rw [if_neg (not_lt.mpr h), no_expired hnone]
    dsimp only [Fits] at hfits ⊢
    rw [if_pos hpos, wrap64_eq (by unfold IsInt64; omega)]
  | exp h hnone hneg hv =>
    rw [if_neg (not_lt.mpr h), no_expired hnone]
    dsimp only [Fits] at hfits ⊢
    rw [if_neg (not_lt.mpr hneg), hv]
    exact unix_eq hfits.1 hfits.2
  | missing h hnone hneg hv =>
    rw [if_neg (not_lt.mpr h), no_expired hnone]
    dsimp only
    rw [if_neg (not_lt.mpr hneg), hv]

lemma FitsMillis.fits (h : FitsMillis field v) : Fits field v := by
  cases field with
  | exp =>
    dsimp only [FitsMillis] at h
    dsimp only [Fits, unixToInternal]
    omega
  | _ => exact h

lemma tokenExpiry_mono {tokens' : TokenSet} {claims' : Obj} {v' : ℤ}
    (h : Governs p tokens claims field v) (h' : Governs p tokens' claims' field v')
    (hfits : Fits field v) (hfits' : Fits field v') (hunit : SameUnit field v v') (hle : v ≤ v') :
    tokenExpiry p tokens claims now ≤ tokenExpiry p tokens' claims' now := by
  rw [tokenExpiry_eq h hfits, tokenExpiry_eq h' hfits']
  cases field with
  | expiresAt =>
    dsimp only [SameUnit] at hunit ⊢
    split_ifs <;> omega
  | expired => exact hle
  | expiresIn => dsimp only; omega
  | exp => dsimp only; omega
  | missing => exact le_rfl

lemma tokenExpiry_inMillis (h : Governs p tokens claims field v) (hfits : FitsMillis field v)
    (hint : IsInt64 tokens.expiresAt) (hnow : Plausible now) :
    InMillis (tokenExpiry p tokens claims now) := by
  obtain ⟨hlow, hhigh⟩ := hnow
  rw [tokenExpiry_eq h hfits.fits]
  unfold InMillis
  cases h with
  | expiresAt h =>
    obtain ⟨hmin, hmax⟩ := hint
    dsimp only [IsInt64]
    split_ifs <;> omega
  | expired h hne ht =>
    have hyears := p.years _ _ ht
    dsimp only [IsInt64]
    omega
  | expiresIn h hnone hpos =>
    dsimp only [FitsMillis, Fits, IsInt64] at hfits ⊢
    omega
  | exp h hnone hneg hv =>
    dsimp only [FitsMillis, IsInt64] at hfits ⊢
    omega
  | missing h hnone hneg hv =>
    dsimp only [IsInt64]
    omega

end Codex

open Codex

/-- **Expiry arithmetic stays in range.** Among the values of a field that count one unit and whose
expiry stays in 64 bits, a later value is a later expiry; an expiry by a positive `expires_in` is
not before the current time; and where the milliseconds stay in 64 bits too, the stored ones are
those of the expiry. -/
theorem token_expiry_in_range (p : Platform)
    (encrypt : (nonce text : String) → Except String String)
    (decrypt : String → Except String String) (now : ℤ) (hnow : Plausible now) :
    (∀ field tokens tokens' claims claims' v v', Governs p tokens claims field v →
      Governs p tokens' claims' field v' → Fits field v → Fits field v' → SameUnit field v v' →
        v ≤ v' → tokenExpiry p tokens claims now ≤ tokenExpiry p tokens' claims' now) ∧
    (∀ tokens claims v, Governs p tokens claims .expiresIn v → Fits .expiresIn v →
      now ≤ tokenExpiry p tokens claims now) ∧
    (∀ field tokens v credential nonces written row, IsInt64 tokens.expiresAt →
      Governs p tokens (claimsOf tokens) field v → FitsMillis field v →
      credentialFromTokens p tokens now = .ok credential →
      (tokenProvider p encrypt decrypt).saveCredential credential nonces written = .ok row →
        credential.expiresAt = tokenExpiry p tokens (claimsOf tokens) now ∧
        unixMilli row.expiresAt ≤ credential.expiresAt ∧
        credential.expiresAt < unixMilli (row.expiresAt + 1)) := by
  refine ⟨?_, ?_, ?_⟩
  · intro field tokens tokens' claims claims' v v' h h' hfits hfits' hunit hle
    exact tokenExpiry_mono h h' hfits hfits' hunit hle
  · intro tokens claims v h hfits
    rw [tokenExpiry_eq h hfits]
    cases h with
    | expiresIn _ _ hpos => dsimp only; omega
  · intro field tokens v credential nonces written row hint h hfits hcredential hrow
    have hexpires := (credentialFromTokens_fields hcredential).2.2.2.2
    have hmillis := tokenExpiry_inMillis h hfits hint hnow
    rw [← hexpires] at hmillis
    obtain ⟨-, _, _, _, -, -, -, rfl⟩ := Provider.saveCredential_ok hrow
    dsimp only
    rw [toUnixMilli_eq hmillis]
    refine ⟨hexpires, ?_, ?_⟩
    · unfold unixMilli
      omega
    · unfold unixMilli
      omega

def sampleExpiresAt (expiresAt : ℤ) : TokenSet :=
  ⟨"access", "", "", "acct", "", "", 0, expiresAt, ""⟩

def sampleExpiring : Codex.Credential :=
  ⟨"", "acct", "", "access", "", "", 1900000000000000000, 1700000000000000000⟩

def sampleExpiringRow : Account :=
  ⟨"", "acct", "", "1:access", "1:", "1:", 1900000000000, 1700000000000⟩

theorem token_expiry_in_range_sample :
    sampleTokens.saveCredential sampleExpiring (fun _ => "1") 1700000000000000000 =
        .ok sampleExpiringRow ∧
      tokenExpiry samplePlatform (sampleExpiresAt 1900000000) [] 1700000000000000000 ≤
        tokenExpiry samplePlatform (sampleExpiresAt 1900000001) [] 1700000000000000000 ∧
      unixMilli sampleExpiringRow.expiresAt ≤ sampleExpiring.expiresAt := by
  have h := token_expiry_in_range samplePlatform sampleEncrypt sampleDecrypt 1700000000000000000
    (by unfold Plausible; decide)
  refine ⟨by decide, ?_, ?_⟩
  · exact h.1 .expiresAt _ _ _ _ 1900000000 1900000001 (.expiresAt (by decide))
      (.expiresAt (by decide)) trivial trivial (by unfold SameUnit; decide) (by decide)
  · exact (h.2.2 .expiresAt (sampleExpiresAt 1900000000) 1900000000 sampleExpiring (fun _ => "1")
      1700000000000000000 sampleExpiringRow (by unfold IsInt64; decide) (.expiresAt (by decide))
      trivial (by decide) (by decide)).2.1

/-- One more is a thousand times less: seconds end where milliseconds begin. -/
theorem token_expiry_units :
    Governs samplePlatform (sampleExpiresAt 10000000000) [] .expiresAt 10000000000 ∧
      Governs samplePlatform (sampleExpiresAt 10000000001) [] .expiresAt 10000000001 ∧
      tokenExpiry samplePlatform (sampleExpiresAt 10000000001) [] 1700000000000000000 <
        1700000000000000000 ∧
      1700000000000000000 <
        tokenExpiry samplePlatform (sampleExpiresAt 10000000000) [] 1700000000000000000 :=
  ⟨.expiresAt (by decide), .expiresAt (by decide), by decide, by decide⟩

end CodexOne
