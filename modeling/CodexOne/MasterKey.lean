import CodexOne.BrowserCallback
import CodexOne.Lib.Base64

/-!
The master key and the tokens that are encrypted with it, `internal/cryptox`.

A key may be spelled in six ways, which are tried in turn. A text is read as 32 bytes in one way
only, or in several ways as the same bytes, so the order does not matter.
-/

namespace CodexOne.Cryptox

open Base64
open Codex (trimBytes)

abbrev Key := {k : Bytes // k.length = 32}

def asKey (b : Bytes) : Option Key := if h : b.length = 32 then some ⟨b, h⟩ else none

def encodings : List Encoding := [RawStdEncoding, StdEncoding, RawURLEncoding, URLEncoding]

def decodeKey (raw : Bytes) : Except String Key :=
  match encodings.findSome? fun encoding => (decode encoding raw).bind asKey with
  | some key => .ok key
  | none =>
    match (hexDecode raw).bind asKey with
    | some key => .ok key
    | none =>
      match asKey raw with
      | some key => .ok key
      | none => .error "MASTER_KEY must decode to exactly 32 bytes"

structure Config where
  masterKey : Bytes
  storageDriver : String

/-- What the calls of a start give, and the errors of those that fail. -/
structure Calls where
  /-- The error of `ReadFile`, other than that there is no file. -/
  readFile : Option String
  random : Except String Key
  mkdirAll : Option String
  /-- A file that another process creates after the first read. -/
  created : Option Bytes
  openFile : Option String
  rereadFile : Option String
  /-- The error of `WriteString`, and what it wrote. -/
  writeString : Option (String × Bytes)

/-- `loadKey`, with the key file before and after it. -/
def loadKey (cfg : Config) (calls : Calls) (file : Option Bytes) :
    Except String Key × Option Bytes :=
  if cfg.masterKey ≠ [] then (decodeKey cfg.masterKey, file)
  else if cfg.storageDriver ≠ "sqlite" then (.error "MASTER_KEY is required", file)
  else
    match calls.readFile, file with
    | some err, _ => (.error ("read master key: " ++ err), file)
    | none, some raw => (decodeKey (trimBytes raw), file)
    | none, none =>
      match calls.random with
      | .error err => (.error ("generate master key: " ++ err), none)
      | .ok key =>
        match calls.mkdirAll with
        | some err => (.error ("create master key directory: " ++ err), none)
        | none =>
          -- the file is opened for creation only
          match calls.openFile, calls.created with
          | some err, file => (.error ("create master key: " ++ err), file)
          | none, some raw =>
            match calls.rereadFile with
            | some err => (.error ("read concurrently-created master key: " ++ err), some raw)
            | none => (decodeKey (trimBytes raw), some raw)
          | none, none =>
            match calls.writeString with
            | some (err, written) => (.error ("write master key: " ++ err), some written)
            | none => (.ok key, some (encode RawStdEncoding key.val ++ [0x0a]))

abbrev Nonce := {n : Bytes // n.length = 12}

/-- AES-GCM under a key. -/
structure AEAD where
  sealed : Key → Nonce → (plain : Bytes) → Bytes
  opened : Key → Nonce → (ciphertext : Bytes) → Option Bytes

variable (aead : AEAD) (key : Key)

def encrypt (random : Except String Nonce) (plain : Bytes) : Except String Bytes :=
  if plain = [] then .ok []
  else
    match random with
    | .error err => .error ("generate token nonce: " ++ err)
    | .ok nonce => .ok (encode RawURLEncoding (nonce.val ++ aead.sealed key nonce plain))

def decrypt (encoded : Bytes) : Except String Bytes :=
  if encoded = [] then .ok []
  else
    (decode RawURLEncoding encoded).elim (.error "decode encrypted token: illegal base64 data")
      fun payload =>
        if h : payload.length < 12 then .error "encrypted token is truncated"
        else
          (aead.opened key ⟨payload.take 12, by rw [List.length_take]; omega⟩
            (payload.drop 12)).elim
            (.error "decrypt token: cipher: message authentication failed") .ok

variable {aead key}

/-- A text spells a key: it is read as the key in base64 or hexadecimal, or is the key. -/
def Spells (raw : Bytes) (key : Key) : Prop :=
  (∃ encoding ∈ encodings, decode encoding raw = some key.val) ∨
    hexDecode raw = some key.val ∨ raw = key.val

lemma asKey_val (key : Key) : asKey key.val = some key := dif_pos key.property

lemma asKey_eq_some {b : Bytes} (h : asKey b = some key) : b = key.val := by
  unfold asKey at h
  split_ifs at h
  exact congrArg Subtype.val (Option.some.inj h)

lemma findSome_encodings {raw : Bytes}
    (h : (encodings.findSome? fun encoding => (decode encoding raw).bind asKey) = some key) :
    ∃ encoding ∈ encodings, decode encoding raw = some key.val := by
  obtain ⟨encoding, hmem, hkey⟩ := List.exists_of_findSome?_eq_some h
  obtain ⟨b, hb, hasKey⟩ := Option.bind_eq_some_iff.mp hkey
  exact ⟨encoding, hmem, asKey_eq_some hasKey ▸ hb⟩

lemma length_of_decode {encoding : Encoding} {raw : Bytes}
    (h : decode encoding raw = some key.val) :
    43 ≤ (raw.filter (!isLineBreak ·)).length ∧ (raw.filter (!isLineBreak ·)).length ≤ 45 := by
  have hlength := decodeQuanta_length h
  rw [key.property] at hlength
  omega

/-- **One key.** A text that spells a key is decoded to it. -/
lemma decodeKey_of_spells {raw : Bytes} (h : Spells raw key) : decodeKey raw = .ok key := by
  unfold decodeKey
  rcases hfound : encodings.findSome? fun encoding => (decode encoding raw).bind asKey with
    _ | found
  · dsimp only
    rcases h with ⟨encoding, hmem, hdec⟩ | hhex | rfl
    · have hnone := List.findSome?_eq_none_iff.mp hfound encoding hmem
      rw [hdec, Option.bind_some, asKey_val] at hnone
      cases hnone
    · rw [hhex, Option.bind_some, asKey_val]
    · have hhex : (hexDecode key.val).bind asKey = none := by
        rw [Option.bind_eq_none_iff]
        intro b hb
        have hlength := (hexDecode_eq_some hb).1
        rw [key.property] at hlength
        exact dif_neg (by omega)
      rw [hhex, asKey_val]
  · dsimp only
    obtain ⟨encoding, hmem, hdec⟩ := findSome_encodings hfound
    have hlength := length_of_decode hdec
    rcases h with ⟨encoding', -, hdec'⟩ | hhex | rfl
    · rw [Subtype.ext (decode_unique hdec hdec')]
    · -- 64 digits are too long for a key in base64
      obtain ⟨hdigits, hline⟩ := hexDecode_eq_some hhex
      have hfilter : raw.filter (!isLineBreak ·) = raw :=
        List.filter_eq_self.mpr fun b hb => by rw [hline b hb]; rfl
      rw [hfilter, hdigits, key.property] at hlength
      omega
    · have hle := List.length_filter_le (!isLineBreak ·) key.val
      rw [key.property] at hle
      omega

lemma spells_encode {encoding : Encoding} (h : encoding ∈ encodings) (key : Key) :
    Spells (encode encoding key.val) key := .inl ⟨encoding, h, decode_encode encoding key.val⟩

/-! ### The key file -/

lemma trimBytes_keyFile (key : Key) :
    trimBytes (encode RawStdEncoding key.val ++ [0x0a]) = encode RawStdEncoding key.val := by
  have hvisible : ∀ b ∈ encode RawStdEncoding key.val, 0x21 ≤ b ∧ b < 0x80 :=
    forall_mem_encode (fun n hn => visible_digit false hn) (by decide) key.val
  have hne : key.val ≠ [] := fun h => by
    have hlength := key.property
    rw [h] at hlength
    cases hlength
  exact Codex.trimBytes_line (fun b hb => hvisible b (List.mem_of_head? hb))
    (fun b hb => hvisible b (List.mem_of_getLast? hb)) (encode_ne_nil _ hne)

section Starts

variable {cfg : Config} {calls restart : Calls} {file file' : Option Bytes}

/-- A first start makes a key, if no call fails and no other process makes one. -/
structure Calls.Make (calls : Calls) (key : Key) : Prop where
  readFile : calls.readFile = none
  random : calls.random = .ok key
  mkdirAll : calls.mkdirAll = none
  created : calls.created = none
  openFile : calls.openFile = none
  writeString : calls.writeString = none

lemma loadKey_first (hkey : cfg.masterKey = []) (hdriver : cfg.storageDriver = "sqlite")
    (h : calls.Make key) :
    loadKey cfg calls none = (.ok key, some (encode RawStdEncoding key.val ++ [0x0a])) := by
  unfold loadKey
  rw [if_neg (not_not.mpr hkey), if_neg (not_not.mpr hdriver), h.readFile]
  dsimp only
  rw [h.random]
  dsimp only
  rw [h.mkdirAll]
  dsimp only
  rw [h.openFile, h.created]
  dsimp only
  rw [h.writeString]

lemma loadKey_file (hkey : cfg.masterKey = []) (hdriver : cfg.storageDriver = "sqlite")
    (hread : calls.readFile = none) (raw : Bytes) :
    loadKey cfg calls (some raw) = (decodeKey (trimBytes raw), some raw) := by
  unfold loadKey
  rw [if_neg (not_not.mpr hkey), if_neg (not_not.mpr hdriver), hread]

lemma loadKey_ok (h : loadKey cfg calls file = (.ok key, file')) :
    cfg.masterKey ≠ [] ∧ decodeKey cfg.masterKey = .ok key ∨
      cfg.masterKey = [] ∧ cfg.storageDriver = "sqlite" ∧
        ∃ raw, file' = some raw ∧ decodeKey (trimBytes raw) = .ok key := by
  unfold loadKey at h
  by_cases hkey : cfg.masterKey ≠ []
  · rw [if_pos hkey] at h
    exact .inl ⟨hkey, congrArg Prod.fst h⟩
  rw [if_neg hkey] at h
  by_cases hdriver : cfg.storageDriver ≠ "sqlite"
  · -- only SQLite may generate a key
    rw [if_pos hdriver] at h
    cases congrArg Prod.fst h
  rw [if_neg hdriver] at h
  refine .inr ⟨not_not.mp hkey, not_not.mp hdriver, ?_⟩
  split at h
  · cases congrArg Prod.fst h
  · exact ⟨_, (congrArg Prod.snd h).symm, congrArg Prod.fst h⟩
  · split at h
    · cases congrArg Prod.fst h
    · split at h
      · cases congrArg Prod.fst h
      · split at h
        · cases congrArg Prod.fst h
        · split at h
          · cases congrArg Prod.fst h
          · exact ⟨_, (congrArg Prod.snd h).symm, congrArg Prod.fst h⟩
        · split at h
          · cases congrArg Prod.fst h
          · obtain ⟨hok, rfl⟩ := Prod.mk.inj h
            obtain rfl := Except.ok.inj hok
            refine ⟨_, rfl, ?_⟩
            rw [trimBytes_keyFile]
            exact decodeKey_of_spells (spells_encode (by decide) _)

/-- A restart whose read does not fail has the key of the start before. -/
lemma loadKey_again (h : loadKey cfg calls file = (.ok key, file'))
    (hread : restart.readFile = none) : loadKey cfg restart file' = (.ok key, file') := by
  rcases loadKey_ok h with ⟨hkey, hdec⟩ | ⟨hkey, hdriver, raw, rfl, hdec⟩
  · unfold loadKey
    rw [if_pos hkey, hdec]
  · rw [loadKey_file hkey hdriver hread, hdec]

end Starts

/-- What `open` gives for what `seal` made. -/
def AEAD.Inverts (aead : AEAD) : Prop :=
  ∀ key nonce plain, aead.opened key nonce (aead.sealed key nonce plain) = some plain

lemma decrypt_encrypt (hopen : aead.Inverts) {random : Except String Nonce} {plain stored : Bytes}
    (h : encrypt aead key random plain = .ok stored) : decrypt aead key stored = .ok plain := by
  unfold encrypt at h
  by_cases hplain : plain = []
  · rw [if_pos hplain] at h
    cases Except.ok.inj h
    rw [hplain]
    rfl
  rw [if_neg hplain] at h
  cases random with
  | error err => cases h
  | ok nonce =>
    cases Except.ok.inj h
    have hlength := nonce.property
    have hne : nonce.val ++ aead.sealed key nonce plain ≠ [] := fun hnil => by
      rw [List.append_eq_nil_iff] at hnil
      rw [hnil.1] at hlength
      cases hlength
    -- the nonce goes in front and is cut off again
    have htake : (nonce.val ++ aead.sealed key nonce plain).take 12 = nonce.val :=
      List.take_left' hlength
    have hdrop : (nonce.val ++ aead.sealed key nonce plain).drop 12 =
        aead.sealed key nonce plain := List.drop_left' hlength
    have hshort : ¬(nonce.val ++ aead.sealed key nonce plain).length < 12 := by
      rw [List.length_append]
      omega
    rw [decrypt, if_neg (encode_ne_nil _ hne), decode_encode, Option.elim_some, dif_neg hshort]
    simp only [htake, hdrop]
    rw [hopen key nonce plain, Option.elim_some]

/-- **Stored tokens survive restarts.** A first start returns the key it writes. A start whose read
of the key file does not fail returns the key of the start before it, and each spelling of a key is
decoded to that key. So what was encrypted before a restart is decrypted after it. -/
theorem tokens_survive_restarts {aead : AEAD} (hopen : aead.Inverts) (cfg : Config)
    (restart : Calls) (hread : restart.readFile = none) :
    (∀ calls key, cfg.masterKey = [] → cfg.storageDriver = "sqlite" → calls.Make key →
      ∃ file, loadKey cfg calls none = (.ok key, some file) ∧
        loadKey cfg restart (some file) = (.ok key, some file)) ∧
    (∀ raw key, Spells raw key → decodeKey raw = .ok key) ∧
    (∀ key : Key, (∀ encoding ∈ encodings, Spells (encode encoding key.val) key) ∧
      Spells (hexEncode key.val) key ∧ Spells key.val key) ∧
    (∀ raw key, cfg.masterKey = [] → cfg.storageDriver = "sqlite" → Spells (trimBytes raw) key →
      loadKey cfg restart (some raw) = (.ok key, some raw)) ∧
    ∀ calls file key file', loadKey cfg calls file = (.ok key, file') →
      loadKey cfg restart file' = (.ok key, file') ∧
        ∀ random plain stored, encrypt aead key random plain = .ok stored →
          ∀ key', (loadKey cfg restart file').1 = .ok key' →
            decrypt aead key' stored = .ok plain := by
  refine ⟨fun calls key hkey hdriver hmake => ?_, fun raw key => decodeKey_of_spells,
    fun key => ⟨fun encoding hmem => spells_encode hmem key, .inr (.inl (hexDecode_hexEncode _)),
      .inr (.inr rfl)⟩, fun raw key hkey hdriver hspells => ?_, fun calls file key file' h => ?_⟩
  · have hfirst := loadKey_first hkey hdriver hmake
    exact ⟨_, hfirst, loadKey_again hfirst hread⟩
  · rw [loadKey_file hkey hdriver hread, decodeKey_of_spells hspells]
  · have hagain := loadKey_again h hread
    refine ⟨hagain, fun random plain stored hstored key' hkey' => ?_⟩
    rw [hagain] at hkey'
    obtain rfl := Except.ok.inj hkey'
    exact decrypt_encrypt hopen hstored

section Sample

def zeroKey : Key := ⟨List.replicate 32 0, rfl⟩

def zeroNonce : Nonce := ⟨List.replicate 12 0, rfl⟩

/-- What AES-256-GCM makes of a block of zeros under the key and the nonce of zeros. -/
def zeroBlockSealed : Bytes :=
  [0xce, 0xa7, 0x40, 0x3d, 0x4d, 0x60, 0x6b, 0x6e, 0x07, 0x4e, 0xc5, 0xd3, 0xba, 0xf3, 0x9d, 0x18,
    0xd0, 0xd1, 0xc8, 0xa7, 0x99, 0x99, 0x6b, 0xf0, 0x26, 0x5b, 0x98, 0xb5, 0xd4, 0x8a, 0xb9, 0x19]

/-- AES-GCM on that block. -/
def sampleAEAD : AEAD where
  sealed key nonce plain :=
    if key = zeroKey ∧ nonce = zeroNonce ∧ plain = List.replicate 16 0 then zeroBlockSealed
    else 0 :: plain
  opened key nonce ciphertext :=
    if key = zeroKey ∧ nonce = zeroNonce ∧ ciphertext = zeroBlockSealed then
      some (List.replicate 16 0)
    else
      match ciphertext with
      | 0 :: plain => some plain
      | _ => none

lemma sampleAEAD_inverts : sampleAEAD.Inverts := by
  intro key nonce plain
  unfold sampleAEAD
  dsimp only
  by_cases h : key = zeroKey ∧ nonce = zeroNonce ∧ plain = List.replicate 16 0
  · rw [if_pos h, if_pos ⟨h.1, h.2.1, rfl⟩, h.2.2]
  · rw [if_neg h, if_neg fun h' => by cases h'.2.2]
    rfl

theorem tokens_survive_restarts_sample :
    ∃ stored, encrypt sampleAEAD zeroKey (.ok zeroNonce) (List.replicate 16 0) = .ok stored ∧
      ∀ key', (loadKey ⟨[], "sqlite"⟩ ⟨none, .error "", none, none, none, none, none⟩
          (some (encode RawStdEncoding zeroKey.val ++ [0x0a]))).1 = .ok key' →
        decrypt sampleAEAD key' stored = .ok (List.replicate 16 0) := by
  obtain ⟨-, -, -, -, hall⟩ := tokens_survive_restarts sampleAEAD_inverts ⟨[], "sqlite"⟩
    ⟨none, .error "", none, none, none, none, none⟩ rfl
  have hfirst : loadKey ⟨[], "sqlite"⟩ ⟨none, .ok zeroKey, none, none, none, none, none⟩ none =
      (.ok zeroKey, some (encode RawStdEncoding zeroKey.val ++ [0x0a])) := by decide
  exact ⟨_, rfl, (hall _ _ _ _ hfirst).2 (.ok zeroNonce) (List.replicate 16 0) _ rfl⟩

end Sample

end CodexOne.Cryptox
