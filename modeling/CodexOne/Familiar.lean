import CodexOne.Forwarded

/-!
The identifiers of one request and the pseudonyms they get.

A pseudonym stands for the identifier it was made of. So as long as the UUIDs of the identifiers
of a request are apart, none of its fields and headers finds its pseudonym taken.
-/

namespace CodexOne

open GoStrings Members JsonOf

def windowBase (value : String) : String :=
  cleanIdentityValue (Identity.windowParts (cleanIdentityValue value)).1

/-- The identifiers in turn metadata, each with its kind. -/
def turnPairs (raw : String) : List (String × String) :=
  match (Raw.parse raw.toList).bind Raw.unmarshal with
  | some (.obj metadata) =>
    [("turn", cleanIdentityValue (Obj.val metadata "turn_id").text),
      ("thread", cleanIdentityValue (Obj.val metadata "thread_id").text),
      ("window", windowBase (Obj.val metadata "window_id").text)]
  | _ => []

def clientPairs (metadata : Obj) : List (String × String) :=
  [("installation", cleanIdentityValue (Obj.val metadata "x-codex-installation-id").text),
    ("installation", cleanIdentityValue (Obj.val metadata "installation_id").text),
    ("request", cleanIdentityValue (Obj.val metadata "x-client-request-id").text),
    ("request", cleanIdentityValue (Obj.val metadata "request_id").text),
    ("thread", cleanIdentityValue (Obj.val metadata "thread_id").text),
    ("thread", cleanIdentityValue (Obj.val metadata "x-codex-thread-id").text),
    ("window", windowBase (Obj.val metadata "x-codex-window-id").text),
    ("window", windowBase (Obj.val metadata "window_id").text)] ++
    turnPairs (Obj.val metadata "x-codex-turn-metadata").text ++
    turnPairs (Obj.val metadata "turn_metadata").text

/-- The value of a header as `applyHeaders` reads it. -/
def headerText (headers : Header) (name : String) : String :=
  cleanIdentityValue (trimSpace (headers.get name))

def headerPairs (headers : Header) : List (String × String) :=
  [("request", cleanIdentityValue (headerText headers "X-Client-Request-Id")),
    ("thread", cleanIdentityValue (headerText headers "Thread-Id")),
    ("window", windowBase (headerText headers "X-Codex-Window-Id"))] ++
    turnPairs (trimSpace (headers.get "X-Codex-Turn-Metadata"))

def UUIDsApartOn (d : Digests) (keyID : String) (pairs : List (String × String)) : Prop :=
  ∀ p ∈ pairs, ∀ q ∈ pairs, p.2 ≠ "" → q.2 ≠ "" →
    d.identityUUID keyID p.1 p.2 = d.identityUUID keyID q.1 q.2 →
      p.1 = q.1 ∧ trimSpace p.2 = trimSpace q.2

instance (d : Digests) (keyID : String) (pairs : List (String × String)) :
    Decidable (UUIDsApartOn d keyID pairs) :=
  inferInstanceAs (Decidable (∀ p ∈ pairs, ∀ q ∈ pairs, p.2 ≠ "" → q.2 ≠ "" →
    d.identityUUID keyID p.1 p.2 = d.identityUUID keyID q.1 q.2 →
      p.1 = q.1 ∧ trimSpace p.2 = trimSpace q.2))

namespace Identity

open IdentityM

variable {α β : Type} {d : Digests} {pairs : List (String × String)} {keyID client up : String}
  {named : String → Prop}
  {i j : Identity}

lemma trimSpace_clean (value : String) :
    trimSpace (cleanIdentityValue value) = cleanIdentityValue value := by
  unfold cleanIdentityValue
  split_ifs
  · exact trimSpace_idem value
  · decide

/-! ### Entries -/

/-- An entry for an identifier of the request, or for a window of its session. -/
inductive Known (d : Digests) (pairs : List (String × String)) (keyID client up : String) :
    String × String → Prop
  | value {kind value : String} (hmem : (kind, value) ∈ pairs) (hne : value ≠ "")
      (htrim : trimSpace value = value) :
      Known d pairs keyID client up (d.identityUUID keyID kind value, value)
  | window (suffix : String) (hclient : client ≠ "")
      (htrim : trimSpace (client ++ suffix) = client ++ suffix) :
      Known d pairs keyID client up (up ++ suffix, client ++ suffix)

/-- The session of the request has the pseudonym of its identifier. -/
structure SessionOf (d : Digests) (pairs : List (String × String)) (keyID client up : String) :
    Prop where
  mem : ("prompt-cache", cleanIdentityValue client) ∈ pairs
  valid : client ≠ "" → validIdentityValue client = true
  pseudonym : client ≠ "" → up = d.identityUUID keyID "prompt-cache" (cleanIdentityValue client)

lemma identityUUID_length (secret kind value : String) :
    (d.identityUUID secret kind value).length = 36 := (Digests.isUUID_identityUUID _ _ _).length

lemma Known.unique (hs : SessionOf d pairs keyID client up)
    (hapart : UUIDsApartOn d keyID pairs) {e f : String × String}
    (he : Known d pairs keyID client up e) (hf : Known d pairs keyID client up f)
    (h : e.1 = f.1) : e.2 = f.2 := by
  -- a window of the session has the pseudonym of an identifier only without a suffix
  have hwindow {kind value suffix : String} (hmem : (kind, value) ∈ pairs) (hne : value ≠ "")
      (htrim : trimSpace value = value) (hclient : client ≠ "")
      (hwhole : trimSpace (client ++ suffix) = client ++ suffix)
      (h : d.identityUUID keyID kind value = up ++ suffix) : value = client ++ suffix := by
    rw [hs.pseudonym hclient] at h
    have hlen := congrArg String.length h
    rw [String.length_append, identityUUID_length, identityUUID_length] at hlen
    obtain rfl : suffix = "" := String.length_eq_zero_iff.mp (by omega)
    rw [String.append_empty] at h hwhole ⊢
    have hvalid := hs.valid hclient
    have hfilled : cleanIdentityValue client ≠ "" := clean_ne_empty hvalid
    have hsame := hapart _ hmem _ hs.mem
    dsimp only at hsame
    obtain ⟨-, ht⟩ := hsame hne hfilled h
    rwa [htrim, (clean_of_valid hvalid).1, trimSpace_idem, hwhole] at ht
  cases he with
  | value hmem hne htrim =>
    cases hf with
    | value hmem' hne' htrim' =>
      obtain ⟨-, ht⟩ := hapart _ hmem _ hmem' hne hne' h
      rwa [htrim, htrim'] at ht
    | window suffix hclient hwhole => exact hwindow hmem hne htrim hclient hwhole h
  | window suffix hclient hwhole =>
    cases hf with
    | value hmem' hne' htrim' =>
      exact (hwindow hmem' hne' htrim' hclient hwhole h.symm).symm
    | window suffix' =>
      have hsuffix : suffix = suffix' := by
        have hl := congrArg String.toList h
        dsimp only at hl
        rw [String.toList_append, String.toList_append] at hl
        exact String.toList_injective (List.append_cancel_left hl)
      rw [hsuffix]

/-- The name of an item: a kind, an underscore and the rest. -/
def ItemName (name : String) : Prop :=
  ∃ kind rest : String, name = kind ++ "_" ++ rest ∧ kind.length ≤ 4

lemma underscore_not_mem_hex {bytes : List UInt8} : '_' ∉ Digests.hex bytes := by
  intro h
  obtain ⟨b, -, hc⟩ := List.mem_flatMap.mp h
  have hdigit : ∀ n < 16, '_' ≠ hexDigit n := by decide
  simp only [hexDigits, List.mem_cons, List.not_mem_nil, or_false] at hc
  rcases hc with hc | hc
  · exact hdigit _ (Nat.mod_lt _ (by decide)) hc
  · exact hdigit _ (Nat.mod_lt _ (by decide)) hc

lemma underscore_not_mem_uuid (secret kind value : String) :
    '_' ∉ (d.identityUUID secret kind value).toList := by
  intro hc
  unfold Digests.identityUUID Digests.uuidString at hc
  dsimp only at hc
  rw [String.toList_ofList] at hc
  simp only [List.mem_append, List.mem_cons, or_assoc] at hc
  rcases hc with hc | hc | hc | hc | hc | hc | hc | hc | hc
  all_goals first
    | exact underscore_not_mem_hex hc
    | exact absurd hc (by decide)

lemma not_itemName_uuid (secret kind value suffix : String) :
    ¬ItemName (d.identityUUID secret kind value ++ suffix) := by
  rintro ⟨k, rest, h, hk⟩
  have hl := congrArg (List.take 36) (congrArg String.toList h)
  have huuid : (d.identityUUID secret kind value).toList.length = 36 := by
    rw [String.length_toList, identityUUID_length]
  have hkind : (k ++ "_").toList.length ≤ 36 := by
    rw [String.length_toList, String.length_append]
    have hsep : "_".length = 1 := by decide
    omega
  rw [String.toList_append, List.take_left' huuid, String.toList_append, List.take_append,
    List.take_of_length_le hkind] at hl
  refine underscore_not_mem_uuid (d := d) secret kind value ?_
  rw [hl]
  simp

lemma Known.not_itemName (hs : SessionOf d pairs keyID client up) {e : String × String}
    (he : Known d pairs keyID client up e) : ¬ItemName e.1 := by
  cases he with
  | @value kind value hmem hne htrim =>
    have h := not_itemName_uuid (d := d) keyID kind value ""
    rwa [String.append_empty] at h
  | window suffix hclient =>
    rw [hs.pseudonym hclient]
    exact not_itemName_uuid _ _ _ _

lemma remember_collision {u c : String} (hi : i.mappingErr ≠ some collision)
    (h : (i.remember u c).mappingErr = some collision) :
    ∃ c', (u, c') ∈ i.reverse ∧ c' ≠ c := by
  unfold remember at h
  by_cases h1 : u = "" ∨ c = "" ∨ u = c
  · -- the entry is skipped
    rw [if_pos h1] at h
    exact absurd h hi
  by_cases h2 : i.mappingErr ≠ none
  · rw [if_neg h1, if_pos h2] at h
    exact absurd h hi
  rw [if_neg h1, if_neg h2] at h
  split at h
  · -- the name is in the table, for another client id or for this one
    rename_i existing hex
    split_ifs at h with hne
    · exact ⟨existing, (lookup_eq_some_iff i.distinct).mp hex, hne⟩
    · exact absurd h hi
  · split_ifs at h with hfit
    · exact absurd (Option.some.inj h) (by decide)
    · exact absurd h hi

/-- The table holds identifiers of the request, and items of some names. -/
structure Familiar (d : Digests) (pairs : List (String × String)) (keyID client up : String)
    (named : String → Prop) (i : Identity) : Prop where
  key : i.keyID = keyID
  clientID : i.clientSessionID = client
  upstreamID : i.upstreamSessionID = up
  err : i.mappingErr ≠ some collision
  entries : ∀ e ∈ i.reverse, Known d pairs keyID client up e ∨ named e.1

lemma Familiar.remember (hs : SessionOf d pairs keyID client up)
    (hapart : UUIDsApartOn d keyID pairs) (hnamed : ∀ name, named name → ItemName name)
    (h : Familiar d pairs keyID client up named i) {u c : String}
    (hk : Known d pairs keyID client up (u, c)) :
    Familiar d pairs keyID client up named (i.remember u c) := by
  have hext := extends_remember i u c
  refine ⟨hext.keyID ▸ h.key, hext.clientSessionID ▸ h.clientID,
    hext.upstreamSessionID ▸ h.upstreamID,
    fun herr => ?_, fun e he => ?_⟩
  · obtain ⟨c', hmem, hne⟩ := remember_collision h.err herr
    rcases h.entries _ hmem with hknown | hitem
    · exact hne (hknown.unique hs hapart hk rfl)
    · exact hk.not_itemName hs (hnamed _ hitem)
  · rcases mem_remember he with he | rfl
    · exact h.entries e he
    · exact .inl hk

/-! ### Methods -/

lemma Preserves.of_bind_ok {inv : Identity → Prop} {m : IdentityM α} {f : α → IdentityM β}
    (hm : Preserves inv m) (hf : ∀ i a j, m.run i = (.ok a, j) → Preserves inv (f a)) :
    Preserves inv (m >>= f) := fun i hi => by
  have h := hm i hi
  rw [run_bind]
  rcases hr : m.run i with ⟨_ | a, j⟩ <;> rw [hr] at h
  · exact h
  · exact hf i a j hr j h

/-- All fields but some keep their values. -/
def Frame (names : List String) (o out : Obj) : Prop :=
  ∀ key ∉ names, Obj.val out key = Obj.val o key

lemma Frame.refl (names : List String) (o : Obj) : Frame names o o := fun _ _ => rfl

lemma Frame.set (o : Obj) (name : String) (v : Json) : Frame [name] o (Members.set o name v) :=
  fun _ hk => Obj.val_congr (get_set_ne _ _ (by simpa using hk))

lemma Frame.trans {names names' : List String} {o p q : Obj} (h : Frame names o p)
    (h' : Frame names' p q) : Frame (names' ++ names) o q := fun key hk => by
  rw [List.mem_append, not_or] at hk
  rw [h' key hk.1, h key hk.2]

lemma remapTurnField_frame {metadata out : Obj} {name : String} {map : String → IdentityM String}
    (h : (remapTurnField metadata name map).run i = (.ok out, j)) : Frame [name] metadata out := by
  unfold remapTurnField at h
  split at h
  · exact (pure_ok h).1 ▸ .refl _ _
  · split_ifs at h
    · cases h
    · obtain ⟨_, _, -, h2⟩ := bind_ok h
      exact (pure_ok h2).1 ▸ .set _ _ _
    · exact (pure_ok h).1 ▸ .refl _ _
  · cases h

lemma turnSessionKey_frame {metadata out : Obj}
    (h : (turnSessionKey metadata).run i = (.ok out, j)) :
    Frame ["prompt_cache_key"] metadata out := by
  rw [turnSessionKey, run_self_bind] at h
  split at h
  · exact (pure_ok h).1 ▸ .refl _ _
  · split_ifs at h
    · cases h
    · exact (pure_ok h).1 ▸ .set _ _ _
    · exact (pure_ok h).1 ▸ .refl _ _
  · cases h

lemma remapClientField_frame {metadata out : Obj} {name : String}
    {map : String → IdentityM String}
    (h : (remapClientField map name metadata).run i = (.ok out, j)) :
    Frame [name] metadata out := by
  unfold remapClientField at h
  split at h
  · exact (pure_ok h).1 ▸ .refl _ _
  · split_ifs at h
    · exact (pure_ok h).1 ▸ .refl _ _
    · cases h
    · obtain ⟨_, _, -, h2⟩ := bind_ok h
      exact (pure_ok h2).1 ▸ .set _ _ _
  · cases h

lemma remapClientSession_frame {metadata out : Obj} {name : String}
    (h : (remapClientSession name metadata).run i = (.ok out, j)) :
    Frame [name] metadata out := by
  rw [remapClientSession, run_self_bind] at h
  split_ifs at h
  · exact (pure_ok h).1 ▸ .set _ _ _
  · exact (pure_ok h).1 ▸ .refl _ _

lemma remapClientTurn_frame {metadata out : Obj} {name : String}
    (h : (remapClientTurn d name metadata).run i = (.ok out, j)) : Frame [name] metadata out :=
  fun key hk => Obj.val_congr ((remapClientTurn_ok (.refl i) h).1 key (by simpa using hk))

lemma preserves_turnField {inv : Identity → Prop} {metadata : Obj} {name : String}
    {map : String → IdentityM String}
    (h : Preserves inv (map (Obj.val metadata name).text)) :
    Preserves inv (remapTurnField metadata name map) := by
  unfold remapTurnField
  split
  · exact .of_pure _
  · rename_i text hg
    rw [Obj.val_of_get hg] at h
    split_ifs
    · exact .of_fail _
    · exact .of_bind h fun _ => .of_pure _
    · exact .of_pure _
  · exact .of_fail _

lemma preserves_clientField {inv : Identity → Prop} {metadata : Obj} {name : String}
    {map : String → IdentityM String}
    (h : Preserves inv (map (Obj.val metadata name).text)) :
    Preserves inv (remapClientField map name metadata) := by
  unfold remapClientField
  split
  · exact .of_pure _
  · rename_i text hg
    rw [Obj.val_of_get hg] at h
    split_ifs
    · exact .of_pure _
    · exact .of_fail _
    · exact .of_bind h fun _ => .of_pure _
  · exact .of_fail _

namespace Familiar

variable (hs : SessionOf d pairs keyID client up) (hapart : UUIDsApartOn d keyID pairs)
  (hnamed : ∀ name, named name → ItemName name)
include hs hapart hnamed

lemma mapValue {kind value : String} (h : (kind, cleanIdentityValue value) ∈ pairs) :
    Preserves (Familiar d pairs keyID client up named) (mapValue d kind value) := by
  refine .of_self fun i hi => ?_
  dsimp only
  split_ifs with hc
  · exact hi
  · rw [not_or] at hc
    refine hi.remember hs hapart hnamed ?_
    rw [hi.key]
    exact .value h hc.1 (trimSpace_clean value)

lemma mapWindow {value : String} (h : ("window", windowBase value) ∈ pairs) :
    Preserves (Familiar d pairs keyID client up named) (mapWindow d value) := by
  refine .of_self fun i hi => ?_
  dsimp only
  split_ifs with hc hsession
  · exact hi
  · rw [not_or] at hc
    obtain ⟨hvalue, hbase, -⟩ :=
      windowParts_spec (Prod.mk.eta (p := windowParts (cleanIdentityValue value))).symm hc.1
    have hclient := hsession.1.trans hi.clientID
    rw [hclient] at hvalue hbase
    have hknown : Known d pairs keyID client up
        (up ++ (windowParts (cleanIdentityValue value)).2,
          client ++ (windowParts (cleanIdentityValue value)).2) :=
      .window _ hbase (by rw [← hvalue]; exact trimSpace_clean value)
    rw [← hvalue] at hknown
    refine hi.remember hs hapart hnamed ?_
    rw [hi.upstreamID]
    exact hknown
  · exact (Familiar.mapValue hs hapart hnamed h).of_bind (fun _ => .of_pure _) i hi

lemma remapTurnMetadata {raw : String} (h : turnPairs raw ⊆ pairs) :
    Preserves (Familiar d pairs keyID client up named) (remapTurnMetadata d raw) := by
  refine .of_self fun i hi => ?_
  split_ifs
  · exact hi
  · exact hi
  · unfold turnPairs at h
    split
    · rename_i metadata hm
      rw [hm] at h
      simp only [List.cons_subset, List.nil_subset, and_true] at h
      obtain ⟨hturn, hthread, hwindow⟩ := h
      refine Preserves.of_bind_ok
        ((composes_preserves _).turnSessionKey _) (fun _ m1 _ h1 => ?_) i hi
      have s1 := turnSessionKey_frame h1
      refine .of_bind_ok (preserves_turnField ?_) fun _ m2 _ h2 => ?_
      · rw [s1 _ (by decide)]
        exact Familiar.mapValue hs hapart hnamed hturn
      have s2 := s1.trans (remapTurnField_frame h2)
      refine .of_bind_ok (preserves_turnField ?_) fun _ m3 _ h3 => ?_
      · rw [s2 _ (by decide)]
        exact Familiar.mapValue hs hapart hnamed hthread
      have s3 := s2.trans (remapTurnField_frame h3)
      refine .of_bind (preserves_turnField ?_) fun _ =>
        .of_bind .of_mappingError fun _ => .of_pure _
      rw [s3 _ (by decide)]
      exact Familiar.mapWindow hs hapart hnamed hwindow
    · exact hi

lemma remapClientTurn {metadata : Obj} {name : String}
    (h : turnPairs (Obj.val metadata name).text ⊆ pairs) :
    Preserves (Familiar d pairs keyID client up named) (remapClientTurn d name metadata) := by
  unfold Identity.remapClientTurn
  split
  · exact .of_pure _
  · rename_i text hg
    rw [Obj.val_of_get hg] at h
    exact .of_bind (.of_mapError (Familiar.remapTurnMetadata hs hapart hnamed h) _)
      fun _ => .of_pure _
  · exact .of_fail _

lemma remapClientMetadata {metadata : Obj} (h : clientPairs metadata ⊆ pairs) :
    Preserves (Familiar d pairs keyID client up named) (remapClientMetadata d metadata) := by
  refine .of_self fun i hi => ?_
  split_ifs
  · exact hi
  unfold clientPairs at h
  simp only [List.cons_append, List.nil_append, List.cons_subset, List.append_subset] at h
  obtain ⟨p1, p2, p3, p4, p5, p6, p7, p8, p12, p13⟩ := h
  -- each field still has the value that the client gave it
  have hvalue {kind name : String} {m : Obj} (hv : Obj.val m name = Obj.val metadata name)
      (hp : (kind, cleanIdentityValue (Obj.val metadata name).text) ∈ pairs) :
      Preserves (Familiar d pairs keyID client up named)
        (remapClientField (Identity.mapValue d kind) name m) :=
    preserves_clientField (Familiar.mapValue hs hapart hnamed (hv ▸ hp))
  have hwindow {name : String} {m : Obj} (hv : Obj.val m name = Obj.val metadata name)
      (hp : ("window", windowBase (Obj.val metadata name).text) ∈ pairs) :
      Preserves (Familiar d pairs keyID client up named)
        (remapClientField (Identity.mapWindow d) name m) :=
    preserves_clientField (Familiar.mapWindow hs hapart hnamed (hv ▸ hp))
  have hturn {name : String} {m : Obj} (hv : Obj.val m name = Obj.val metadata name)
      (hp : turnPairs (Obj.val metadata name).text ⊆ pairs) :
      Preserves (Familiar d pairs keyID client up named) (Identity.remapClientTurn d name m) :=
    Familiar.remapClientTurn hs hapart hnamed (hv ▸ hp)
  have hsession (name : String) (m : Obj) : Preserves (Familiar d pairs keyID client up named)
      (remapClientSession name m) := (composes_preserves _).remapClientSession name m
  refine Preserves.of_bind_ok (hvalue rfl p1) (fun _ _ _ h1 => ?_) i hi
  have s1 := remapClientField_frame h1
  refine .of_bind_ok (hvalue (s1 _ (by decide)) p2) fun _ _ _ h2 => ?_
  have s2 := s1.trans (remapClientField_frame h2)
  refine .of_bind_ok (hvalue (s2 _ (by decide)) p3) fun _ _ _ h3 => ?_
  have s3 := s2.trans (remapClientField_frame h3)
  refine .of_bind_ok (hvalue (s3 _ (by decide)) p4) fun _ _ _ h4 => ?_
  have s4 := s3.trans (remapClientField_frame h4)
  refine .of_bind_ok (hvalue (s4 _ (by decide)) p5) fun _ _ _ h5 => ?_
  have s5 := s4.trans (remapClientField_frame h5)
  refine .of_bind_ok (hvalue (s5 _ (by decide)) p6) fun _ _ _ h6 => ?_
  have s6 := s5.trans (remapClientField_frame h6)
  refine .of_bind_ok (hwindow (s6 _ (by decide)) p7) fun _ _ _ h7 => ?_
  have s7 := s6.trans (remapClientField_frame h7)
  refine .of_bind_ok (hwindow (s7 _ (by decide)) p8) fun _ _ _ h8 => ?_
  have s8 := s7.trans (remapClientField_frame h8)
  refine .of_bind_ok (hsession _ _) fun _ _ _ h9 => ?_
  have s9 := s8.trans (remapClientSession_frame h9)
  refine .of_bind_ok (hsession _ _) fun _ _ _ h10 => ?_
  have s10 := s9.trans (remapClientSession_frame h10)
  refine .of_bind_ok (hsession _ _) fun _ _ _ h11 => ?_
  have s11 := s10.trans (remapClientSession_frame h11)
  refine .of_bind_ok (hturn (s11 _ (by decide)) p12) fun _ _ _ h12 => ?_
  have s12 := s11.trans (remapClientTurn_frame h12)
  exact .of_bind (hturn (s12 _ (by decide)) p13) fun _ =>
    .of_bind .of_mappingError fun _ => .of_pure _

lemma prepareBody {object : Obj} {fixed : Bool}
    (h : clientPairs (Obj.val object "client_metadata").members ⊆ pairs) :
    Preserves (Familiar d pairs keyID client up named) (prepareBody d object fixed) := by
  have hmetadata {o : Obj} (ho : Members.get o "client_metadata" =
      Members.get object "client_metadata") :
      Preserves (Familiar d pairs keyID client up named) (prepareMetadata d o) := by
    unfold prepareMetadata
    rw [ho]
    split
    · rename_i metadata hm
      rw [Obj.val_of_get hm] at h
      exact .of_bind (Familiar.remapClientMetadata hs hapart hnamed h) fun _ => .of_pure _
    · exact .of_pure _
  refine .of_self fun i hi => ?_
  split
  · exact hi
  · split_ifs
    · exact hi
    · exact (hmetadata (get_set_ne _ _ (by decide))).of_bind
        (fun _ => .of_bind .of_mappingError fun _ => .of_pure _) i hi
    · exact (hmetadata rfl).of_bind
        (fun _ => .of_bind .of_mappingError fun _ => .of_pure _) i hi

omit hs hapart hnamed in
lemma applyHeader {map : String → IdentityM String} {name : String} {source target : Header}
    (h : Preserves (Familiar d pairs keyID client up named) (map (headerText source name))) :
    Preserves (Familiar d pairs keyID client up named) (applyHeader map name source target) := by
  unfold Identity.applyHeader
  split_ifs
  · exact .of_fail _
  · exact .of_bind h fun _ => .of_pure _
  · exact .of_pure _

lemma applyHeaders {target source : Header} {websocketTransport : Bool}
    (h : headerPairs source ⊆ pairs) :
    Preserves (Familiar d pairs keyID client up named)
      (applyHeaders d target source websocketTransport) := by
  unfold headerPairs at h
  simp only [List.cons_append, List.nil_append, List.cons_subset] at h
  obtain ⟨p1, p2, p3, p4⟩ := h
  have hturn (target : Header) :
      Preserves (Familiar d pairs keyID client up named) (applyTurnHeader d source target) := by
    unfold applyTurnHeader
    split_ifs
    · exact .of_bind (.of_mapError (Familiar.remapTurnMetadata hs hapart hnamed p4) _)
        fun _ => .of_pure _
    · exact .of_pure _
  refine .of_self fun i hi => ?_
  dsimp only
  split_ifs
  · exact Preserves.of_bind .of_mappingError (fun _ => .of_pure _) i hi
  · refine Preserves.of_bind (applyHeader (Familiar.mapValue hs hapart hnamed p1))
      (fun _ => ?_) i hi
    refine .of_bind (applyHeader (Familiar.mapValue hs hapart hnamed p2)) fun _ => ?_
    refine .of_bind (applyHeader (Familiar.mapWindow hs hapart hnamed p3)) fun _ => ?_
    exact .of_bind (hturn _) fun _ => .of_bind .of_mappingError fun _ => .of_pure _

end Familiar

lemma new_familiar {key : Option String} {headers : Header} {object : Obj}
    (h : Identity.new d key headers object true = .ok i)
    (hmem : ("prompt-cache", cleanIdentityValue i.clientSessionID) ∈ pairs) :
    SessionOf d pairs i.keyID i.clientSessionID i.upstreamSessionID ∧
      Familiar d pairs i.keyID i.clientSessionID i.upstreamSessionID named i := by
  obtain ⟨client, up, j, rfl, hj, ⟨hvalid, hrun⟩ | ⟨rfl, rfl, -⟩⟩ := new_ok d h
  · obtain ⟨hclean, -⟩ := clean_of_valid hvalid
    have hne : cleanIdentityValue client ≠ "" := clean_ne_empty hvalid
    rw [Identity.mapValue, run_self_bind] at hrun
    dsimp only at hrun
    rw [if_neg (by rw [not_or]; exact ⟨hne, Bool.true_eq_false.mp⟩)] at hrun
    obtain ⟨_, k, h1, h2⟩ := bind_ok hrun
    obtain ⟨rfl, rfl⟩ := pure_ok h2
    rw [run_update, Prod.mk.injEq] at h1
    have hext := extends_remember (blank true (trimSpace (key.getD "")) client)
      (d.identityUUID (trimSpace (key.getD "")) "prompt-cache" (cleanIdentityValue client))
      (cleanIdentityValue client)
    have hk : (blank true (trimSpace (key.getD "")) client).remember
        (d.identityUUID (trimSpace (key.getD "")) "prompt-cache" (cleanIdentityValue client))
        (cleanIdentityValue client) = j := h1.2
    rw [hk] at hext
    have hkey : j.keyID = trimSpace (key.getD "") := hext.keyID.symm
    have hclient : j.clientSessionID = client := hext.clientSessionID.symm
    dsimp only at hmem ⊢
    rw [hclient] at hmem ⊢
    rw [hkey]
    refine ⟨⟨hmem, fun _ => hvalid, fun _ => rfl⟩, rfl, rfl, rfl, fun herr => ?_, fun e he => ?_⟩
    · rw [hj] at herr
      cases herr
    · rw [← hk] at he
      rcases mem_remember he with he | rfl
      · cases he
      · exact .inl (.value hmem hne (trimSpace_clean client))
  · -- no session from the client, and nothing remembered
    exact ⟨⟨hmem, fun hne => absurd rfl hne, fun hne => absurd rfl hne⟩, rfl, rfl, rfl,
      fun h => (by cases h), fun _ h => (by cases h)⟩

end Identity

end CodexOne
