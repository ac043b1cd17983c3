import CodexOne.BrowserCallback
import CodexOne.Lib.Utf8
import CodexOne.ResponseStream

/-!
Error texts that are cut to a limit of bytes.

A close reason is cut at the last rune that fits. The texts of the request log and of error messages
are cut at the limit itself, so what is left of a rune there is no valid text: it is stored as it is
in the log, and becomes longer again in the JSON of a message.
-/

namespace CodexOne.Truncation

open Codex (trimBytes cutPrefixes spaces)
open GoStrings (isSpace trimRunes)
open ResponseStream (UpstreamResponseError)
open String (utf8EncodeChar)
open Utf8

def trimText (value : Bytes) (limit : ℕ) : Bytes :=
  if value.length ≤ limit then value else value.take limit

def compactError (body : Bytes) : Bytes := trimText (trimBytes body) 500

structure RequestTelemetry where
  reasoningEffort : String
  upstreamReasoningEffort : String
  reasoningTokens : ℤ
  firstReasoningMS : ℤ
  firstOutputMS : ℤ

/-- `store.RequestLog`, without the name of the key, which is filled in when it is read. -/
structure RequestLog where
  id : String
  requestID : String
  apiKeyID : String
  method : String
  path : String
  model : String
  status : ℤ
  durationMS : ℤ
  inputTokens : ℤ
  outputTokens : ℤ
  reasoningTokens : ℤ
  reasoningEffort : String
  upstreamReasoningEffort : String
  firstReasoningMS : ℤ
  firstOutputMS : ℤ
  error : Bytes
  createdAt : ℤ

/-- What `record` reads off the request and the clock, and the id it draws. -/
structure LoggedRequest where
  id : String
  apiKeyID : String
  method : String
  path : String
  elapsedMS : ℤ
  now : ℤ

/-- The entry that `Service.record` stores. -/
def record (r : LoggedRequest) (requestID model : String) (status inputTokens outputTokens : ℤ)
    (telemetry : RequestTelemetry) (errText : Bytes) : RequestLog where
  id := r.id
  requestID := requestID
  apiKeyID := r.apiKeyID
  method := r.method
  path := r.path
  model := model
  status := status
  durationMS := r.elapsedMS
  inputTokens := inputTokens
  outputTokens := outputTokens
  reasoningTokens := telemetry.reasoningTokens
  reasoningEffort := telemetry.reasoningEffort
  upstreamReasoningEffort := telemetry.upstreamReasoningEffort
  firstReasoningMS := telemetry.firstReasoningMS
  firstOutputMS := telemetry.firstOutputMS
  error := trimText errText 500
  createdAt := r.now

/-- A byte string as `json.Marshal` encodes it, with a rune for every byte that belongs to none. -/
def jsonValue (s : Bytes) : Json := .str (String.ofList (toText s))

/-- The payload of `webSocketWriter.writeError`. -/
def webSocketError (code : String) (message : Bytes) (requestID : String) (status : ℤ) : Obj :=
  [("type", .str "error"),
   ("status", .num (Number.ofInt status)),
   ("request_id", .str requestID),
   ("error", .obj
    [("type", .str "invalid_request_error"),
     ("code", .str code),
     ("message", jsonValue (trimText message 1000))])]

/-- The status and the payload of `writeUpstreamResponseFailure`. -/
def upstreamResponseFailure (failure : UpstreamResponseError) : ℤ × Obj :=
  let errorType := firstNonEmpty [failure.type, "upstream_response_failed"]
  let errorCode := firstNonEmpty [failure.code, errorType]
  (failure.httpStatus,
   [("error", .obj
    [("message", jsonValue (trimText (encode failure.message.toList) 500)),
     ("type", .str errorType),
     ("code", .str errorCode)])])

def errorMessage (payload : Obj) : Text :=
  (Obj.val (Obj.val payload "error").members "message").text.toList

/-- The loop of `truncateWebSocketCloseReason`, and the prefix it ends with. -/
def backUp (reason : Bytes) : (maxBytes : ℕ) → Bytes
  | 0 => []
  | maxBytes + 1 =>
    if validString (reason.take (maxBytes + 1)) then reason.take (maxBytes + 1)
    else backUp reason maxBytes

def truncateWebSocketCloseReason (reason : Bytes) (maxBytes : ℕ) : Bytes :=
  let reason := trimBytes reason
  if reason.length ≤ maxBytes then reason else backUp reason maxBytes

lemma mem_spaces {p : Bytes} : p ∈ spaces ↔ ∃ c, isSpace c = true ∧ p = utf8EncodeChar c := by
  have hspaces : spaces = spaceCodes.map fun n => utf8EncodeChar (Char.ofNat n) := by
    decide
  have hcodes : ∀ n ∈ spaceCodes, (Char.ofNat n).toNat = n := by decide
  rw [hspaces, List.mem_map]
  constructor
  · rintro ⟨n, hn, rfl⟩
    exact ⟨Char.ofNat n, (GoStrings.isSpace_iff _).mpr ((hcodes n hn).symm ▸ hn), rfl⟩
  · rintro ⟨c, hc, rfl⟩
    exact ⟨c.toNat, (GoStrings.isSpace_iff c).mp hc, by rw [Char.ofNat_toNat]⟩

/-- Cutting the encodings of spaces off the front, for an encoding of which none begins another
one. -/
lemma cutPrefixes_flatMap {enc : Char → Bytes} {prefixes : List Bytes}
    (hmem : ∀ p, p ∈ prefixes ↔ ∃ c, isSpace c = true ∧ p = enc c) (hpos : ∀ c, enc c ≠ [])
    (hfree : ∀ c d s t, enc c ++ s = enc d ++ t → c = d) (fuel : ℕ) (t : Text)
    (hfuel : (t.flatMap enc).length ≤ fuel) :
    cutPrefixes prefixes fuel (t.flatMap enc) = (t.dropWhile isSpace).flatMap enc := by
  induction fuel generalizing t with
  | zero =>
    cases t with
    | nil => rfl
    | cons c t =>
      have hlen := List.length_pos_of_ne_nil (hpos c)
      rw [List.flatMap_cons, List.length_append] at hfuel
      omega
  | succ fuel ih =>
    cases t with
    | nil =>
      have hnone : prefixes.find? (·.isPrefixOf []) = none := by
        refine List.find?_eq_none.mpr fun p hp hbegins => ?_
        obtain ⟨c, -, rfl⟩ := (hmem p).mp hp
        exact hpos c (List.prefix_nil.mp (List.isPrefixOf_iff_prefix.mp hbegins))
      rw [List.flatMap_nil, cutPrefixes, hnone]
      rfl
    | cons c t =>
      have hlen := List.length_pos_of_ne_nil (hpos c)
      rw [List.flatMap_cons, List.length_append] at hfuel
      -- the only encoding that the bytes begin with is that of the rune
      have honly {p : Bytes} (hp : p ∈ prefixes)
          (hbegins : p.isPrefixOf (enc c ++ t.flatMap enc) = true) :
          isSpace c = true ∧ p = enc c := by
        obtain ⟨d, hd, rfl⟩ := (hmem p).mp hp
        obtain ⟨rest, hrest⟩ := List.isPrefixOf_iff_prefix.mp hbegins
        obtain rfl := hfree _ _ _ _ hrest
        exact ⟨hd, rfl⟩
      rw [List.flatMap_cons, cutPrefixes]
      cases hc : isSpace c with
      | true =>
        have hsome : prefixes.find? (·.isPrefixOf (enc c ++ t.flatMap enc)) = some (enc c) := by
          have hin : enc c ∈ prefixes := (hmem _).mpr ⟨c, hc, rfl⟩
          have hself : (enc c).isPrefixOf (enc c ++ t.flatMap enc) = true :=
            List.isPrefixOf_iff_prefix.mpr (List.prefix_append _ _)
          obtain ⟨p, hp⟩ := Option.isSome_iff_exists.mp
            (List.find?_isSome (p := fun p => p.isPrefixOf (enc c ++ t.flatMap enc)).mpr
              ⟨_, hin, hself⟩)
          have hbegins : p.isPrefixOf (enc c ++ t.flatMap enc) = true :=
            List.find?_some (p := fun p : Bytes => p.isPrefixOf (enc c ++ t.flatMap enc)) hp
          rw [hp, (honly (List.mem_of_find?_eq_some hp) hbegins).2]
        rw [hsome, List.dropWhile_cons_of_pos hc]
        dsimp only
        rw [List.drop_left, ih t (by omega)]
      | false =>
        have hnone : prefixes.find? (·.isPrefixOf (enc c ++ t.flatMap enc)) = none := by
          refine List.find?_eq_none.mpr fun p hp hbegins => ?_
          rw [(honly hp hbegins).1] at hc
          cases hc
        rw [hnone, List.dropWhile_cons_of_neg (by rw [hc]; exact Bool.false_ne_true),
          List.flatMap_cons]

lemma eq_of_suffix {c d : Char} (h : utf8EncodeChar c <:+ utf8EncodeChar d) : c = d := by
  obtain ⟨x, hx⟩ := h
  have hpos := utf8EncodeChar_pos c
  have hlt : x.length < (utf8EncodeChar d).length := by
    rw [← hx, List.length_append]
    omega
  -- the first byte of an encoding is no other byte of one
  have hfirst : ((utf8EncodeChar d)[x.length]).IsUTF8FirstByte := by
    have hbyte : (utf8EncodeChar d)[x.length] = (utf8EncodeChar c)[0] := by
      simp only [← hx, List.getElem_append_right (Nat.le_refl _), Nat.sub_self]
    rw [hbyte]
    exact UInt8.isUTF8FirstByte_getElem_zero_utf8EncodeChar
  have hnil := List.eq_nil_of_length_eq_zero
    (UInt8.isUTF8FirstByte_getElem_utf8EncodeChar.mp hfirst)
  rw [hnil, List.nil_append] at hx
  exact eq_of_prefix (s := []) (t := []) (by rw [hx])

lemma eq_of_reversed_prefix {c d : Char} {s t : Bytes}
    (h : (utf8EncodeChar c).reverse ++ s = (utf8EncodeChar d).reverse ++ t) : c = d := by
  have hrev := congrArg List.reverse h
  rw [List.reverse_append, List.reverse_append, List.reverse_reverse, List.reverse_reverse] at hrev
  have hc : utf8EncodeChar c <:+ s.reverse ++ utf8EncodeChar c := List.suffix_append _ _
  have hd : utf8EncodeChar d <:+ s.reverse ++ utf8EncodeChar c := hrev ▸ List.suffix_append _ _
  rcases Nat.le_total (utf8EncodeChar c).length (utf8EncodeChar d).length with hle | hle
  · exact eq_of_suffix (List.suffix_of_suffix_length_le hc hd hle)
  · exact (eq_of_suffix (List.suffix_of_suffix_length_le hd hc hle)).symm

lemma trimBytes_encode (t : Text) : trimBytes (encode t) = encode (trimRunes t) := by
  have hleft : cutPrefixes spaces (encode t).length (encode t) = encode (t.dropWhile isSpace) :=
    cutPrefixes_flatMap (fun p => mem_spaces) (fun c => String.utf8EncodeChar_ne_nil)
      (fun _ _ _ _ => eq_of_prefix) _ t le_rfl
  -- the right end is trimmed like the left one, on reversed bytes
  have hreverse (u : Text) :
      (encode u).reverse = u.reverse.flatMap fun c => (utf8EncodeChar c).reverse := by
    rw [encode, List.reverse_flatMap]
    rfl
  have hmem (p : Bytes) : p ∈ spaces.map List.reverse ↔
      ∃ c, isSpace c = true ∧ p = (utf8EncodeChar c).reverse := by
    rw [List.mem_map]
    constructor
    · rintro ⟨p, hp, rfl⟩
      obtain ⟨c, hc, rfl⟩ := mem_spaces.mp hp
      exact ⟨c, hc, rfl⟩
    · rintro ⟨c, hc, rfl⟩
      exact ⟨_, mem_spaces.mpr ⟨c, hc, rfl⟩, rfl⟩
  unfold trimBytes
  dsimp only
  rw [hleft, hreverse, cutPrefixes_flatMap hmem
    (fun c => List.reverse_ne_nil_iff.mpr String.utf8EncodeChar_ne_nil)
    (fun _ _ _ _ => eq_of_reversed_prefix) _ _ ?_]
  · rw [List.reverse_flatMap, trimRunes, encode]
    refine congrArg (List.flatMap · _) (funext fun c => ?_)
    exact List.reverse_reverse _
  · rw [← hreverse, List.length_reverse]

/-! ### Cuts -/

/-- A text is cut to a limit: what is left is a valid prefix that is not longer than the limit,
and the next rune of the text does not fit. -/
structure Truncated (limit : ℕ) (text result : Bytes) : Prop where
  valid : validString result = true
  isPrefix : result <+: text
  bound : result.length ≤ limit
  short : result ≠ text →
    ∃ c rest, text = result ++ utf8EncodeChar c ++ rest ∧ limit < result.length + c.utf8Size

/-- A text is not longer than a limit, or one of its runes begins there. -/
def Fits (limit : ℕ) (t : Text) : Prop := t.byteLen ≤ limit ∨ Boundary t limit

variable {t : Text} {limit : ℕ}

lemma truncated_prefix {u v : Text} (hle : u.byteLen ≤ limit)
    (hnext : ∀ c rest, v = c :: rest → limit < u.byteLen + c.utf8Size) :
    Truncated limit (encode (u ++ v)) (encode u) := by
  rw [encode_append]
  refine ⟨validString_encode u, List.prefix_append _ _, by rwa [length_encode], fun hne => ?_⟩
  cases v with
  | nil => exact absurd (List.append_nil _).symm hne
  | cons c rest =>
    refine ⟨c, encode rest, ?_, ?_⟩
    · rw [encode_cons, List.append_assoc]
    · rw [length_encode]
      exact hnext c rest rfl

lemma truncated_self (h : t.byteLen ≤ limit) : Truncated limit (encode t) (encode t) := by
  have hself := truncated_prefix (v := []) h nofun
  rwa [List.append_nil] at hself

lemma trimText_of_le (h : t.byteLen ≤ limit) : trimText (encode t) limit = encode t := by
  rw [trimText, if_pos (by rwa [length_encode])]

lemma trimText_of_lt (h : limit < t.byteLen) :
    trimText (encode t) limit = (encode t).take limit := by
  rw [trimText, if_neg (by rw [length_encode]; omega)]

lemma Fits.trimText (h : Fits limit t) :
    ∃ u, trimText (encode t) limit = encode u ∧ Truncated limit (encode t) (encode u) := by
  by_cases hle : t.byteLen ≤ limit
  · exact ⟨t, trimText_of_le hle, truncated_self hle⟩
  · obtain ⟨u, v, rfl, rfl⟩ := h.resolve_left hle
    refine ⟨u, ?_, truncated_prefix (Nat.le_refl _) fun c rest _ => ?_⟩
    · rw [trimText_of_lt (by omega), encode_append, ← length_encode, List.take_left]
    · have hpos := c.utf8Size_pos
      omega

lemma invalid_of_not_fits (h : ¬Fits limit t) :
    (trimText (encode t) limit).length = limit ∧
      validString (trimText (encode t) limit) = false := by
  have hlt : limit < t.byteLen := Nat.not_le.mp fun hle => h (.inl hle)
  rw [trimText_of_lt hlt]
  refine ⟨?_, ?_⟩
  · rw [List.length_take, length_encode]
    omega
  · rw [← Bool.not_eq_true, validString_take hlt.le]
    exact fun hb => h (.inr hb)

lemma truncated_trimText_iff :
    Truncated limit (encode t) (trimText (encode t) limit) ↔ Fits limit t := by
  constructor
  · intro h
    by_contra hfits
    have hvalid := h.valid
    rw [(invalid_of_not_fits hfits).2] at hvalid
    cases hvalid
  · intro h
    obtain ⟨u, hu, htruncated⟩ := h.trimText
    rwa [hu]

lemma truncated_jsonValue_iff :
    Truncated limit (encode t) (encode (jsonValue (trimText (encode t) limit)).text.toList) ↔
      Fits limit t := by
  have htext (s : Bytes) : (jsonValue s).text.toList = toText s := String.toList_ofList
  rw [htext]
  constructor
  · intro h
    by_contra hfits
    obtain ⟨hlength, hinvalid⟩ := invalid_of_not_fits hfits
    have hlonger := length_lt_toText hinvalid
    have hbound := h.bound
    rw [length_encode] at hbound
    omega
  · intro h
    obtain ⟨u, hu, htruncated⟩ := h.trimText
    rwa [hu, toText_encode]

/-- The loop ends with the longest prefix that ends between runes. -/
lemma backUp_spec (n : ℕ) (hn : n ≤ t.byteLen) :
    ∃ u v, t = u ++ v ∧ backUp (encode t) n = encode u ∧ u.byteLen ≤ n ∧
      ∀ m, u.byteLen < m → m ≤ n → ¬Boundary t m := by
  induction n with
  | zero =>
    exact ⟨[], t, rfl, rfl, Nat.le_refl 0, fun m h1 h2 => by omega⟩
  | succ n ih =>
    rw [backUp]
    -- a prefix that ends between runes ends the loop
    cases hvalid : validString ((encode t).take (n + 1)) with
    | true =>
      obtain ⟨u, v, rfl, hu⟩ := (validString_take hn).mp hvalid
      refine ⟨u, v, rfl, ?_, hu.le, fun m h1 h2 => by omega⟩
      rw [if_pos rfl, encode_append, ← hu, ← length_encode, List.take_left]
    | false =>
      obtain ⟨u, v, heq, hback, hle, hlast⟩ := ih (by omega)
      rw [if_neg Bool.false_ne_true]
      refine ⟨u, v, heq, hback, by omega, fun m h1 h2 hb => ?_⟩
      rcases Nat.lt_or_eq_of_le h2 with hlt | rfl
      · exact hlast m h1 (by omega) hb
      · rw [(validString_take hn).mpr hb] at hvalid
        cases hvalid

lemma truncated_closeReason (t : Text) (limit : ℕ) :
    Truncated limit (encode (trimRunes t)) (truncateWebSocketCloseReason (encode t) limit) := by
  unfold truncateWebSocketCloseReason
  dsimp only
  rw [trimBytes_encode, length_encode]
  by_cases hle : Text.byteLen (trimRunes t) ≤ limit
  · rw [if_pos hle]
    exact truncated_self hle
  · rw [if_neg hle]
    obtain ⟨u, v, heq, hback, hu, hlast⟩ := backUp_spec (t := trimRunes t) limit (by omega)
    rw [hback, heq]
    refine truncated_prefix hu fun c rest hv => ?_
    by_contra hfits
    refine hlast (u.byteLen + c.utf8Size) ?_ (by omega) ⟨u ++ [c], rest, ?_, ?_⟩
    · have hpos := c.utf8Size_pos
      omega
    · rw [heq, hv, List.append_assoc]
      rfl
    · rw [Text.byteLen_append, Text.byteLen_cons]
      rfl

variable (r : LoggedRequest) (requestID model code : String)
  (status inputTokens outputTokens : ℤ) (telemetry : RequestTelemetry)

/-- **Truncated texts.** The log and the error messages hold a valid prefix of the text, as long as
the limit allows, exactly if the text is not longer than the limit or one of its runes begins at
the limit. A close reason always is one. -/
theorem truncated_texts_iff (t : Text) (failure : UpstreamResponseError) (limit : ℕ) :
    (Truncated 500 (encode t) (record r requestID model status inputTokens outputTokens telemetry
      (encode t)).error ↔ Fits 500 t) ∧
    (Truncated 500 (encode (trimRunes t)) (record r requestID model status inputTokens outputTokens
      telemetry (compactError (encode t))).error ↔ Fits 500 (trimRunes t)) ∧
    (Truncated 1000 (encode t) (encode (errorMessage
      (webSocketError code (encode t) requestID status))) ↔ Fits 1000 t) ∧
    (Truncated 500 (encode failure.message.toList) (encode (errorMessage
      (upstreamResponseFailure failure).2)) ↔ Fits 500 failure.message.toList) ∧
    Truncated limit (encode (trimRunes t)) (truncateWebSocketCloseReason (encode t) limit) := by
  have htwice (s : Bytes) : trimText (trimText s 500) 500 = trimText s 500 := by
    unfold trimText
    split_ifs with h1 h2
    · rfl
    · rfl
    · rw [List.take_take, Nat.min_self]
  have hcompact : (record r requestID model status inputTokens outputTokens telemetry
      (compactError (encode t))).error = trimText (encode (trimRunes t)) 500 := by
    rw [record, compactError, htwice, trimBytes_encode]
  refine ⟨truncated_trimText_iff, ?_, truncated_jsonValue_iff, truncated_jsonValue_iff,
    truncated_closeReason t limit⟩
  rw [hcompact]
  exact truncated_trimText_iff

lemma not_fits {u v : Text} {c : Char} (h1 : u.byteLen < limit)
    (h2 : limit < u.byteLen + c.utf8Size) : ¬Fits limit (u ++ c :: v) := by
  rintro (hle | ⟨x, y, heq, hx⟩)
  · rw [Text.byteLen_append, Text.byteLen_cons] at hle
    omega
  · rcases List.append_eq_append_iff.mp heq with ⟨a, rfl, ha⟩ | ⟨a, rfl, -⟩
    · rw [Text.byteLen_append] at hx
      cases a with
      | nil =>
        have hnil : Text.byteLen [] = 0 := rfl
        omega
      | cons d a =>
        obtain ⟨rfl, -⟩ := List.cons.inj ha
        rw [Text.byteLen_cons] at hx
        omega
    · rw [Text.byteLen_append] at h1
      omega

lemma byteLen_replicate (n : ℕ) : Text.byteLen (List.replicate n 'a') = n := by
  induction n with
  | zero => rfl
  | succ n ih =>
    have hsize : 'a'.utf8Size = 1 := by decide
    rw [List.replicate_succ, Text.byteLen_cons, ih, hsize, Nat.add_comm]

/-- A text whose 500th byte is the first one of a rune of two bytes is stored with half of the
rune. -/
theorem truncated_record_invalid :
    ¬∀ (t : Text) (r : LoggedRequest) (requestID model : String)
      (status inputTokens outputTokens : ℤ) (telemetry : RequestTelemetry),
      Truncated 500 (encode t) (record r requestID model status inputTokens outputTokens telemetry
        (encode t)).error := by
  intro h
  obtain ⟨u, hu⟩ : ∃ u : Text, u.byteLen = 499 := ⟨List.replicate 499 'a', byteLen_replicate 499⟩
  have hsize : 'é'.utf8Size = 2 := by decide
  have hcut := h (u ++ ['é']) ⟨"", "", "", "", 0, 0⟩ "" "" 502 0 0 ⟨"", "", 0, 0, 0⟩
  exact not_fits (by omega) (by omega) (truncated_trimText_iff.mp hcut)

end CodexOne.Truncation
