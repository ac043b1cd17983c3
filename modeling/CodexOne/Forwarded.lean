import CodexOne.Endpoints
import CodexOne.Restore

/-!
The identity fields that a request shows upstream.

Identifiers travel in three containers: the client metadata of the body, the turn metadata that
is embedded in it as text, and the turn metadata header. What the upstream reads in a field is
the client's value with the identifier replaced, field by field of each container.
-/

namespace CodexOne

open GoStrings Members JsonOf IdentityM

section Clean

variable {s value base suffix : String}

lemma clean_of_valid (h : validIdentityValue value = true) :
    cleanIdentityValue value = trimSpace value ∧ trimSpace value ≠ "" := by
  have h' := h
  unfold validIdentityValue at h
  simp only [Bool.and_eq_true, decide_eq_true_eq] at h
  refine ⟨if_pos ?_, h.1.1⟩
  rwa [validIdentityValue, trimSpace_idem, ← validIdentityValue]

lemma clean_ne_empty (h : validIdentityValue value = true) : cleanIdentityValue value ≠ "" := by
  rw [(clean_of_valid h).1]
  exact (clean_of_valid h).2

lemma valid_of_append (hbase : base ≠ "") (h : cleanIdentityValue value = base ++ suffix)
    (hvalid : validIdentityValue value = true) : validIdentityValue base = true := by
  rw [(clean_of_valid hvalid).1] at h
  have hv := hvalid
  unfold validIdentityValue at hv ⊢
  simp only [Bool.and_eq_true, decide_eq_true_eq, h] at hv ⊢
  obtain ⟨a, b, hab⟩ := exists_trimSpace base
  refine ⟨⟨fun hempty => ?_, ?_⟩, ?_⟩
  · -- the value starts with a rune that is not white space, and so does its front
    obtain ⟨c, r, hcr⟩ := List.exists_cons_of_ne_nil
      fun he => hbase (String.toList_injective he)
    have hc : isSpace c = false := by
      have htrim : Trimmed (trimSpace value) := trimmed_iff.mpr (trimSpace_idem value)
      refine htrim.head c ?_
      rw [h, String.toList_append, hcr]
      rfl
    rw [isSpace_of_blank hempty c (hcr ▸ List.mem_cons_self)] at hc
    cases hc
  · have hle := hv.1.2
    rw [String.utf8ByteSize_append, hab, String.utf8ByteSize_append, String.utf8ByteSize_append]
      at hle
    omega
  · have hbad := hv.2
    simp only [containsAny, Bool.not_eq_true', List.any_eq_false] at hbad ⊢
    refine fun c hc => hbad c ?_
    rw [String.toList_append, hab, String.toList_append, String.toList_append]
    simp [hc]

end Clean

namespace Identity

variable {d : Digests} {i j k : Identity}

lemma cutLast_some {s a b : String} {sep : Char} (h : cutLast s sep = some (a, b)) :
    s = a ++ b ∧ b.toList.head? = some sep := by
  unfold cutLast at h
  rcases hspan : s.toList.reverse.span (· ≠ sep) with ⟨tail, head⟩
  rw [List.span_eq_takeWhile_dropWhile, Prod.mk.injEq] at hspan
  rw [List.span_eq_takeWhile_dropWhile, hspan.1, hspan.2] at h
  cases head with
  | nil => cases h
  | cons c head =>
    cases h
    have happ := List.takeWhile_append_dropWhile (p := (· ≠ sep)) (l := s.toList.reverse)
    rw [hspan.1, hspan.2] at happ
    have hs := congrArg List.reverse happ
    rw [List.reverse_reverse] at hs
    have hc : c = sep := by
      have := List.head?_dropWhile_not (· ≠ sep) s.toList.reverse
      rw [hspan.2] at this
      simpa using this
    refine ⟨String.toList_injective ?_, ?_⟩
    · rw [← hs]
      simp
    · rw [String.toList_ofList, hc]
      rfl

/-- A window id is its base and its suffix, which is empty or starts with a colon. -/
lemma windowParts_spec {value base suffix : String} (h : windowParts value = (base, suffix))
    (hvalue : value ≠ "") :
    value = base ++ suffix ∧ base ≠ "" ∧ (suffix = "" ∨ suffix.toList.head? = some ':') := by
  unfold windowParts at h
  split at h
  · rename_i a b hcut
    split_ifs at h with ha
    · cases h
      exact ⟨(cutLast_some hcut).1, ha, .inr (cutLast_some hcut).2⟩
    · cases h
      exact ⟨by simp, hvalue, .inl rfl⟩
  · cases h
    exact ⟨by simp, hvalue, .inl rfl⟩

def pseudonym (d : Digests) (i : Identity) (kind value : String) : String :=
  d.identityUUID i.keyID kind (cleanIdentityValue value)

/-- What `mapWindow` makes of the base of a window id. -/
def basePseudonym (d : Digests) (i : Identity) (base : String) : String :=
  if base = i.clientSessionID ∧ i.upstreamSessionID ≠ "" then i.upstreamSessionID
  else i.pseudonym d "window" base

/-- What `mapWindow` makes of a window id: the suffix stays. -/
def windowPseudonym (d : Digests) (i : Identity) (value : String) : String :=
  i.basePseudonym d (windowParts (cleanIdentityValue value)).1 ++
    (windowParts (cleanIdentityValue value)).2

lemma SameOwner.pseudonym (h : SameOwner i j) : i.pseudonym d = j.pseudonym d := by
  funext kind value
  rw [Identity.pseudonym, Identity.pseudonym, h.keyID]

lemma SameOwner.windowPseudonym (h : SameOwner i j) :
    i.windowPseudonym d = j.windowPseudonym d := by
  funext value
  rw [Identity.windowPseudonym, Identity.windowPseudonym, basePseudonym, basePseudonym,
    h.clientSessionID, h.upstreamSessionID, h.pseudonym]

lemma mapValue_ok {kind value s : String} (hremap : i.remap = true)
    (hvalid : validIdentityValue value = true) (h : (mapValue d kind value).run i = (.ok s, j)) :
    s = i.pseudonym d kind value := by
  rw [mapValue, run_self_bind] at h
  dsimp only at h
  rw [if_neg (by rw [hremap]; simp [clean_ne_empty hvalid])] at h
  obtain ⟨_, _, -, h2⟩ := bind_ok h
  exact (pure_ok h2).1

lemma mapWindow_ok {value s : String} (hremap : i.remap = true)
    (hvalid : validIdentityValue value = true) (h : (mapWindow d value).run i = (.ok s, j)) :
    s = i.windowPseudonym d value := by
  rw [mapWindow, run_self_bind] at h
  dsimp only at h
  rw [if_neg (by rw [hremap]; simp [clean_ne_empty hvalid])] at h
  rcases hw : windowParts (cleanIdentityValue value) with ⟨base, suffix⟩
  obtain ⟨hv, hbase, -⟩ := windowParts_spec hw (clean_ne_empty hvalid)
  rw [hw] at h
  dsimp only at h
  rw [windowPseudonym, hw]
  dsimp only
  by_cases hs : base = i.clientSessionID ∧ i.upstreamSessionID ≠ ""
  · rw [if_pos hs] at h
    obtain ⟨_, _, -, h2⟩ := bind_ok h
    rw [(pure_ok h2).1, basePseudonym, if_pos hs]
  · rw [if_neg hs] at h
    obtain ⟨mapped, _, h1, h2⟩ := bind_ok h
    rw [(pure_ok h2).1, mapValue_ok hremap (valid_of_append hbase hv hvalid) h1, basePseudonym,
      if_neg hs]

/-! ### Fields -/

/-- A value with the identifier in it replaced. Only a text that is not blank is one. -/
def replaced (f : String → String) : Json → Json
  | .str v => if trimSpace v = "" then .str v else .str (f v)
  | v => v

def sessionValue (i : Identity) (v : Json) : Json :=
  if i.upstreamSessionID ≠ "" then .str i.upstreamSessionID else v

/-- The values of one field change. -/
def only (name : String) (f : Json → Json) (key : String) (v : Json) : Json :=
  if key = name then f v else v

/-- An object comes out with the same fields, and with new values in them. -/
structure Maps (o out : Obj) (g : String → Json → Json) : Prop where
  get : ∀ key, Members.get out key = (Members.get o key).map (g key)
  canon : (JsonOf.obj o).canon = .obj o → (JsonOf.obj out).canon = .obj out

lemma Maps.trans {o p q : Obj} {g g' : String → Json → Json} (h : Maps o p g)
    (h' : Maps p q g') : Maps o q fun key v => g' key (g key v) :=
  ⟨fun key => by rw [h'.get, h.get, Option.map_map]; rfl, fun hc => h'.canon (h.canon hc)⟩

lemma Maps.set {o : Obj} {name : String} {v : Json} (hg : Members.get o name = some v)
    (s : String) (f : Json → Json) (hf : f v = .str s) :
    Maps o (Members.set o name (.str s)) (only name f) := by
  refine ⟨fun key => ?_, fun hc => canon_set hc _ rfl⟩
  rw [get_set]
  unfold only
  split_ifs with hk
  · rw [hk, hg, Option.map_some, hf]
  · simp

lemma Maps.stay {o : Obj} {name : String} {f : Json → Json}
    (hf : ∀ v, Members.get o name = some v → f v = v) : Maps o o (only name f) := by
  refine ⟨fun key => ?_, id⟩
  unfold only
  split_ifs with hk
  · subst hk
    cases hg : Members.get o key with
    | none => rfl
    | some v => rw [Option.map_some, hf v hg]
  · simp

lemma remapTurnField_ok {metadata out : Obj} {name : String} {map : String → IdentityM String}
    {f : String → String}
    (hmap : ∀ t s l, validIdentityValue t = true → (map t).run j = (.ok s, l) → s = f t)
    (h : (remapTurnField metadata name map).run j = (.ok out, k)) :
    Maps metadata out (only name (replaced f)) := by
  unfold remapTurnField at h
  split at h
  · rename_i hg
    rw [(pure_ok h).1]
    exact .stay fun v hv => by rw [hg] at hv; cases hv
  · rename_i text hg
    by_cases hblank : trimSpace text = ""
    · rw [if_neg (fun hc => hc.1 hblank), if_neg (not_not.mpr hblank)] at h
      rw [(pure_ok h).1]
      refine .stay fun v hv => ?_
      rw [hg] at hv
      cases hv
      exact if_pos hblank
    · split_ifs at h with hinvalid
      · cases h
      · obtain ⟨mapped, l, h1, h2⟩ := bind_ok h
        have hvalid : validIdentityValue text = true := by
          by_contra hc
          exact hinvalid ⟨hblank, by simpa using hc⟩
        rw [(pure_ok h2).1]
        refine .set hg _ _ ?_
        rw [hmap text mapped l hvalid h1]
        exact if_neg hblank
  · cases h

lemma remapClientField_ok {metadata out : Obj} {name : String} {map : String → IdentityM String}
    {f : String → String}
    (hmap : ∀ t s l, validIdentityValue t = true → (map t).run j = (.ok s, l) → s = f t)
    (h : (remapClientField map name metadata).run j = (.ok out, k)) :
    Maps metadata out (only name (replaced f)) := by
  unfold remapClientField at h
  split at h
  · rename_i hg
    rw [(pure_ok h).1]
    exact .stay fun v hv => by rw [hg] at hv; cases hv
  · rename_i text hg
    split_ifs at h with hblank hinvalid
    · rw [(pure_ok h).1]
      refine .stay fun v hv => ?_
      rw [hg] at hv
      cases hv
      exact if_pos hblank
    · cases h
    · obtain ⟨mapped, l, h1, h2⟩ := bind_ok h
      rw [(pure_ok h2).1]
      refine .set hg _ _ ?_
      rw [hmap text mapped l (by simpa using hinvalid) h1]
      exact if_neg hblank
  · cases h

lemma turnSessionKey_ok {metadata out : Obj}
    (h : (turnSessionKey metadata).run j = (.ok out, k)) :
    Maps metadata out (only "prompt_cache_key" j.sessionValue) := by
  rw [turnSessionKey, run_self_bind] at h
  split at h
  · rename_i hg
    rw [(pure_ok h).1]
    exact .stay fun v hv => by rw [hg] at hv; cases hv
  · rename_i text hg
    split_ifs at h with hinvalid hs
    · cases h
    · rw [(pure_ok h).1]
      exact .set hg _ _ (if_pos hs)
    · rw [(pure_ok h).1]
      exact .stay fun v _ => if_neg hs
  · cases h

lemma remapClientSession_ok {metadata out : Obj} {name : String}
    (h : (remapClientSession name metadata).run j = (.ok out, k)) :
    Maps metadata out (only name j.sessionValue) := by
  rw [remapClientSession, run_self_bind] at h
  split_ifs at h with hs
  · rw [(pure_ok h).1]
    obtain ⟨v, hv⟩ := Option.isSome_iff_exists.mp hs.1
    exact .set hv _ _ (if_pos hs.2)
  · rw [(pure_ok h).1]
    refine .stay fun v hv => if_neg fun hup => hs ⟨?_, hup⟩
    rw [Members.has, hv]
    rfl

/-- The values of turn metadata after `remapTurnMetadata`. -/
def turnValue (d : Digests) (i : Identity) (key : String) (v : Json) : Json :=
  only "window_id" (replaced (i.windowPseudonym d)) key
    (only "thread_id" (replaced (i.pseudonym d "thread")) key
      (only "turn_id" (replaced (i.pseudonym d "turn")) key
        (only "prompt_cache_key" i.sessionValue key v)))

lemma SameOwner.mapValue_ok {kind t s : String} {l : Identity} (hs : SameOwner i j)
    (hremap : i.remap = true) (hvalid : validIdentityValue t = true)
    (h : (mapValue d kind t).run j = (.ok s, l)) : s = i.pseudonym d kind t := by
  rw [hs.pseudonym]
  exact Identity.mapValue_ok (hs.remap ▸ hremap) hvalid h

lemma SameOwner.mapWindow_ok {t s : String} {l : Identity} (hs : SameOwner i j)
    (hremap : i.remap = true) (hvalid : validIdentityValue t = true)
    (h : (mapWindow d t).run j = (.ok s, l)) : s = i.windowPseudonym d t := by
  rw [hs.windowPseudonym]
  exact Identity.mapWindow_ok (hs.remap ▸ hremap) hvalid h

lemma Tracks.owner {α : Type} {m : IdentityM α} {a : α} (hm : Tracks m) (hs : SameOwner i j)
    (h : m.run j = (.ok a, k)) : SameOwner i k := by
  have hrun := (hm.run j).toSameOwner
  rw [h] at hrun
  exact hs.trans hrun

lemma remapTurnMetadata_ok {raw text : String}
    (h : (remapTurnMetadata d raw).run i = (.ok text, j)) :
    (i.remap = false ∨ trimSpace raw = "") ∧ text = raw ∨
      i.remap = true ∧ trimSpace raw ≠ "" ∧ ∃ r o out, Raw.parse raw.toList = some r ∧
        r.unmarshal = some (.obj o) ∧ text = String.ofList (marshal (.obj out)) ∧
        Maps o out (i.turnValue d) := by
  rw [remapTurnMetadata, run_self_bind] at h
  split_ifs at h with hskip hlong
  · exact .inl ⟨hskip, (pure_ok h).1⟩
  · -- longer than the limit
    cases h
  · rw [not_or, Bool.not_eq_false] at hskip
    obtain ⟨hremap, hblank⟩ := hskip
    split at h
    · rename_i o hparse
      obtain ⟨r, hr, ho⟩ := Option.bind_eq_some_iff.mp hparse
      obtain ⟨o1, j1, h1, h⟩ := bind_ok h
      obtain ⟨o2, j2, h2, h⟩ := bind_ok h
      obtain ⟨o3, j3, h3, h⟩ := bind_ok h
      obtain ⟨o4, j4, h4, h⟩ := bind_ok h
      obtain ⟨_, j5, -, h⟩ := bind_ok h
      have hs1 := (composes_tracks.turnSessionKey o).owner (.refl i) h1
      have hs2 := (composes_tracks.remapTurnField o1 "turn_id"
        (tracks_mapValue d "turn")).owner hs1 h2
      have hs3 := (composes_tracks.remapTurnField o2 "thread_id"
        (tracks_mapValue d "thread")).owner hs2 h3
      refine .inr ⟨hremap, hblank, r, o, o4, hr, ho, (pure_ok h).1, ?_⟩
      refine (((turnSessionKey_ok h1).trans (remapTurnField_ok (fun t s l hv hm => ?_) h2)).trans
        (remapTurnField_ok (fun t s l hv hm => ?_) h3)).trans
        (remapTurnField_ok (fun t s l hv hm => ?_) h4)
      · exact hs1.mapValue_ok hremap hv hm
      · exact hs2.mapValue_ok hremap hv hm
      · exact hs3.mapWindow_ok hremap hv hm
    · cases h

/-! ### Client metadata -/

/-- The values of client metadata after `remapClientMetadata`, but for the turn metadata. -/
def clientValue (d : Digests) (i : Identity) (key : String) (v : Json) : Json :=
  only "prompt_cache_key" i.sessionValue key
    (only "x-codex-session-id" i.sessionValue key
      (only "session_id" i.sessionValue key
        (only "window_id" (replaced (i.windowPseudonym d)) key
          (only "x-codex-window-id" (replaced (i.windowPseudonym d)) key
            (only "x-codex-thread-id" (replaced (i.pseudonym d "thread")) key
              (only "thread_id" (replaced (i.pseudonym d "thread")) key
                (only "request_id" (replaced (i.pseudonym d "request")) key
                  (only "x-client-request-id" (replaced (i.pseudonym d "request")) key
                    (only "installation_id" (replaced (i.pseudonym d "installation")) key
                      (only "x-codex-installation-id" (replaced (i.pseudonym d "installation"))
                        key v))))))))))

/-- The fields of client metadata that hold turn metadata. -/
def turnFields : List String := ["x-codex-turn-metadata", "turn_metadata"]

/-- A text of turn metadata is sent as another. -/
def SentAs (d : Digests) (i : Identity) (raw text : String) : Prop :=
  ∃ j k, SameOwner i j ∧ (remapTurnMetadata d raw).run j = (.ok text, k)

lemma mapError_ok {raw text : String} {g : String → String}
    (h : (mapError g (remapTurnMetadata d raw)).run j = (.ok text, k)) (hs : SameOwner i j) :
    SentAs d i raw text := by
  unfold mapError at h
  dsimp only at h
  split at h
  · rename_i hrun
    cases h
    exact ⟨j, _, hs, hrun⟩
  · cases h

lemma remapClientTurn_ok {metadata out : Obj} {name : String} (hs : SameOwner i j)
    (h : (remapClientTurn d name metadata).run j = (.ok out, k)) :
    (∀ key ≠ name, Members.get out key = Members.get metadata key) ∧
      (Members.get metadata name = none ∧ Members.get out name = none ∨
        ∃ raw text, Members.get metadata name = some (.str raw) ∧
          Members.get out name = some (.str text) ∧ SentAs d i raw text) := by
  unfold remapClientTurn at h
  split at h
  · rename_i hg
    rw [(pure_ok h).1]
    exact ⟨fun _ _ => rfl, .inl ⟨hg, hg⟩⟩
  · rename_i raw hg
    obtain ⟨text, l, h1, h2⟩ := bind_ok h
    rw [(pure_ok h2).1]
    refine ⟨fun key hk => get_set_ne _ _ hk, .inr ⟨raw, text, hg, get_set_self _ _ _, ?_⟩⟩
    exact mapError_ok h1 hs
  · cases h

lemma SameOwner.remapClientValue_ok {metadata out : Obj} {name kind : String} (hs : SameOwner i j)
    (hremap : i.remap = true)
    (h : (remapClientField (mapValue d kind) name metadata).run j = (.ok out, k)) :
    Maps metadata out (only name (replaced (i.pseudonym d kind))) :=
  remapClientField_ok (fun _ _ _ hv hm => hs.mapValue_ok hremap hv hm) h

lemma SameOwner.remapClientWindow_ok {metadata out : Obj} {name : String} (hs : SameOwner i j)
    (hremap : i.remap = true)
    (h : (remapClientField (mapWindow d) name metadata).run j = (.ok out, k)) :
    Maps metadata out (only name (replaced (i.windowPseudonym d))) :=
  remapClientField_ok (fun _ _ _ hv hm => hs.mapWindow_ok hremap hv hm) h

lemma SameOwner.remapClientSession_ok {metadata out : Obj} {name : String} (hs : SameOwner i j)
    (h : (remapClientSession name metadata).run j = (.ok out, k)) :
    Maps metadata out (only name i.sessionValue) := by
  have hvalue : i.sessionValue = j.sessionValue := by
    funext v
    rw [sessionValue, sessionValue, hs.upstreamSessionID]
  rw [hvalue]
  exact Identity.remapClientSession_ok h

lemma remapClientMetadata_ok {metadata out : Obj} (hremap : i.remap = true)
    (h : (remapClientMetadata d metadata).run i = (.ok out, j)) :
    (∀ key ∉ turnFields, Members.get out key =
        (Members.get metadata key).map (i.clientValue d key)) ∧
      ∀ name ∈ turnFields, Members.get metadata name = none ∧ Members.get out name = none ∨
        ∃ raw text, Members.get metadata name = some (.str raw) ∧
          Members.get out name = some (.str text) ∧ SentAs d i raw text := by
  rw [remapClientMetadata, run_self_bind, if_neg (by simp [hremap])] at h
  obtain ⟨o1, j1, h1, h⟩ := bind_ok h
  obtain ⟨o2, j2, h2, h⟩ := bind_ok h
  obtain ⟨o3, j3, h3, h⟩ := bind_ok h
  obtain ⟨o4, j4, h4, h⟩ := bind_ok h
  obtain ⟨o5, j5, h5, h⟩ := bind_ok h
  obtain ⟨o6, j6, h6, h⟩ := bind_ok h
  obtain ⟨o7, j7, h7, h⟩ := bind_ok h
  obtain ⟨o8, j8, h8, h⟩ := bind_ok h
  obtain ⟨o9, j9, h9, h⟩ := bind_ok h
  obtain ⟨o10, j10, h10, h⟩ := bind_ok h
  obtain ⟨o11, j11, h11, h⟩ := bind_ok h
  obtain ⟨o12, j12, h12, h⟩ := bind_ok h
  obtain ⟨o13, j13, h13, h⟩ := bind_ok h
  obtain ⟨_, j14, -, h⟩ := bind_ok h
  have hvalue := fun kind name o =>
    composes_tracks.remapClientField (fun t => tracks_mapValue d kind t) name o
  have hwindow := composes_tracks.remapClientField (tracks_mapWindow d)
  have hs1 := (hvalue _ _ _).owner (.refl i) h1
  have hs2 := (hvalue _ _ _).owner hs1 h2
  have hs3 := (hvalue _ _ _).owner hs2 h3
  have hs4 := (hvalue _ _ _).owner hs3 h4
  have hs5 := (hvalue _ _ _).owner hs4 h5
  have hs6 := (hvalue _ _ _).owner hs5 h6
  have hs7 := (hwindow _ _).owner hs6 h7
  have hs8 := (hwindow _ _).owner hs7 h8
  have hs9 := (composes_tracks.remapClientSession _ _).owner hs8 h9
  have hs10 := (composes_tracks.remapClientSession _ _).owner hs9 h10
  have hs11 := (composes_tracks.remapClientSession _ _).owner hs10 h11
  have hs12 := (composes_tracks.remapClientTurn (tracks_mapValue d) (tracks_mapWindow d) _
    _).owner hs11 h12
  have m1 := (SameOwner.refl i).remapClientValue_ok hremap h1
  have m2 := hs1.remapClientValue_ok hremap h2
  have m3 := hs2.remapClientValue_ok hremap h3
  have m4 := hs3.remapClientValue_ok hremap h4
  have m5 := hs4.remapClientValue_ok hremap h5
  have m6 := hs5.remapClientValue_ok hremap h6
  have m7 := hs6.remapClientWindow_ok hremap h7
  have m8 := hs7.remapClientWindow_ok hremap h8
  have m9 := hs8.remapClientSession_ok h9
  have m10 := hs9.remapClientSession_ok h10
  have m11 := hs10.remapClientSession_ok h11
  have hfields : Maps metadata o11 (i.clientValue d) :=
    (((((((((m1.trans m2).trans m3).trans m4).trans m5).trans m6).trans m7).trans m8).trans
      m9).trans m10).trans m11
  obtain ⟨hother12, hturn12⟩ := remapClientTurn_ok hs11 h12
  obtain ⟨hother13, hturn13⟩ := remapClientTurn_ok hs12 h13
  have hleft : ∀ key ∈ turnFields, Members.get o11 key = Members.get metadata key := by
    intro key hkey
    have hvalue : i.clientValue d key = id := by
      funext v
      simp only [turnFields, List.mem_cons, List.not_mem_nil, or_false] at hkey
      rcases hkey with rfl | rfl <;> simp [clientValue, only]
    rw [hfields.get, hvalue, Option.map_id, id]
  rw [(pure_ok h).1]
  refine ⟨fun key hkey => ?_, fun name hname => ?_⟩
  · simp only [turnFields, List.mem_cons, List.not_mem_nil, or_false, not_or] at hkey
    rw [hother13 key hkey.2, hother12 key hkey.1, hfields.get]
  · have hname' := hname
    simp only [turnFields, List.mem_cons, List.not_mem_nil, or_false] at hname
    rcases hname with rfl | rfl
    · rw [← hleft _ hname', hother13 _ (by decide)]
      exact hturn12
    · rw [← hleft _ hname', ← hother12 _ (by decide)]
      exact hturn13

def turnIdentityFields : List String := ["prompt_cache_key", "turn_id", "thread_id", "window_id"]

def clientIdentityFields : List String :=
  ["x-codex-installation-id", "installation_id", "x-client-request-id", "request_id", "thread_id",
    "x-codex-thread-id", "x-codex-window-id", "window_id", "session_id", "x-codex-session-id",
    "prompt_cache_key"] ++ turnFields

lemma only_of_ne {name key : String} (h : key ≠ name) (f : Json → Json) (v : Json) :
    only name f key v = v := if_neg h

lemma turnValue_of_not_mem {key : String} (h : key ∉ turnIdentityFields) (v : Json) :
    i.turnValue d key v = v := by
  simp only [turnIdentityFields, List.mem_cons, List.not_mem_nil, or_false, not_or] at h
  obtain ⟨h1, h2, h3, h4⟩ := h
  rw [turnValue, only_of_ne h4, only_of_ne h3, only_of_ne h2, only_of_ne h1]

lemma clientValue_of_not_mem {key : String} (h : key ∉ clientIdentityFields) (v : Json) :
    i.clientValue d key v = v := by
  simp only [clientIdentityFields, List.cons_append, List.nil_append, List.mem_cons, not_or] at h
  obtain ⟨h1, h2, h3, h4, h5, h6, h7, h8, h9, h10, h11, -⟩ := h
  rw [clientValue, only_of_ne h11, only_of_ne h10, only_of_ne h9, only_of_ne h8, only_of_ne h7,
    only_of_ne h6, only_of_ne h5, only_of_ne h4, only_of_ne h3, only_of_ne h2, only_of_ne h1]

lemma has_map {o out : Obj} {key : String} {f : Json → Json}
    (h : Members.get out key = (Members.get o key).map f) :
    Members.has out key = Members.has o key := by
  rw [Members.has, Members.has, h, Option.isSome_map]

lemma remapClientMetadata_frame {metadata out : Obj}
    (h : (remapClientMetadata d metadata).run i = (.ok out, j)) :
    (∀ key, Members.has out key = Members.has metadata key) ∧
      ∀ key ∉ clientIdentityFields, Members.get out key = Members.get metadata key := by
  by_cases hremap : i.remap = true
  · obtain ⟨hfields, hturns⟩ := remapClientMetadata_ok hremap h
    refine ⟨fun key => ?_, fun key hkey => ?_⟩
    · by_cases hkey : key ∈ turnFields
      · rcases hturns key hkey with ⟨h1, h2⟩ | ⟨raw, text, h1, h2, -⟩
        · rw [Members.has, Members.has, h1, h2]
        · rw [Members.has, Members.has, h1, h2]
          rfl
      · exact has_map (hfields key hkey)
    · rw [hfields key fun hmem => hkey (List.mem_append_right _ hmem)]
      cases Members.get metadata key with
      | none => rfl
      | some v => rw [Option.map_some, clientValue_of_not_mem hkey]
  · rw [remapClientMetadata, run_self_bind, if_pos (by simpa using hremap)] at h
    rw [(pure_ok h).1]
    exact ⟨fun _ => rfl, fun _ _ => rfl⟩

lemma get_mapNum (f : Number → Number) (o : Obj) (key : String) :
    Members.get (o.map fun m => (m.1, m.2.mapNum f)) key =
      (Members.get o key).map (JsonOf.mapNum f) := by
  induction o with
  | nil => rfl
  | cons m o ih =>
    obtain ⟨l, v⟩ := m
    rw [List.map_cons, get_cons, get_cons, ih]
    split_ifs <;> rfl

lemma unmarshal_obj {r : Raw} {o u : Obj} (ho : r.decode = .obj o)
    (hu : r.unmarshal = some (.obj u)) :
    (∀ key v, Members.get o key = some v → v.InRange) ∧
      ∀ key, Members.get u key = (Members.get o key).map (JsonOf.mapNum Number.rounded) := by
  rw [Raw.unmarshal_eq] at hu
  split_ifs at hu with hr
  have hrange := Raw.inRange_decode hr
  rw [ho] at hu hrange
  rw [mapNum_obj, Option.some.injEq, JsonOf.obj.injEq] at hu
  refine ⟨fun key v hv n hn => hrange n ?_, fun key => ?_⟩
  · rw [numbers_obj]
    exact List.mem_flatMap.mpr ⟨_, mem_of_get hv, hn⟩
  · rw [← hu, get_mapNum]

lemma not_blank_of_object {s : String} {o : Obj} (h : decodeObject s.toList = some o) :
    trimSpace s ≠ "" := fun hblank => by
  unfold decodeObject at h
  split at h
  · rename_i o' hdecode
    obtain ⟨r, hr, hobj⟩ := Option.map_eq_some_iff.mp hdecode
    have hbrace : '{' ∈ r.render := by
      cases r with
      | objNil | obj => exact List.mem_cons_self
      | _ => simp [Raw.decode, Raw.tree, canon] at hobj
    obtain ⟨b, a, hs⟩ := Raw.render_of_parse hr
    have hspace := isSpace_of_blank hblank '{' (by rw [hs]; simp [hbrace])
    revert hspace
    decide
  · cases h

/-- **What remapping leaves alone.** No field of client metadata or turn metadata appears or
disappears, and the fields of client metadata that are not named keep their values. Those of turn
metadata keep theirs exactly when their numbers are held by a `float64`. -/
theorem remapping_frame_iff (d : Digests) (i : Identity) :
    (∀ metadata out j, (remapClientMetadata d metadata).run i = (.ok out, j) →
      (∀ key, Members.has out key = Members.has metadata key) ∧
        ∀ key ∉ clientIdentityFields, Members.get out key = Members.get metadata key) ∧
      ∀ raw text j o, (remapTurnMetadata d raw).run i = (.ok text, j) →
        decodeObject raw.toList = some o →
        ∃ out, decodeObject text.toList = some out ∧
          (∀ key, Members.has out key = Members.has o key) ∧
          ((∀ key ∉ turnIdentityFields, ∀ v, Members.get o key = some v →
              ∃ w, Members.get out key = some w ∧ v.Same w) ↔
            i.remap = false ∨ ∀ key ∉ turnIdentityFields, ∀ v, Members.get o key = some v →
              v.Exact) := by
  refine ⟨fun metadata out j h => remapClientMetadata_frame h, fun raw text j o h ho => ?_⟩
  have ho' := ho
  rcases remapTurnMetadata_ok h with ⟨hskip, rfl⟩ | ⟨hremap, -, r, u, out, hr, hu, rfl, hmaps⟩
  · -- the text is sent as it is
    have hremap : i.remap = false := hskip.resolve_right (not_blank_of_object ho)
    exact ⟨o, ho, fun _ => rfl, iff_of_true (fun key _ v hv => ⟨v, hv, .refl v⟩) (.inl hremap)⟩
  · -- the text is decoded and written again
    unfold decodeObject at ho'
    rw [hr, Option.map_some] at ho'
    split at ho'
    · rename_i o' hdecode
      cases ho'
      obtain ⟨hrange, hget⟩ := unmarshal_obj (Option.some.inj hdecode) hu
      have hcanon : (JsonOf.obj u).canon = .obj u := Conversation.canon_unmarshal hu
      refine ⟨out, ?_, fun key => ?_, ?_⟩
      · rw [String.toList_ofList]
        exact decodeObject_marshal (hmaps.canon hcanon)
      · rw [has_map (hmaps.get key), has_map (hget key)]
      · rw [hremap]
        simp only [Bool.true_eq_false, false_or]
        refine forall₂_congr fun key hkey => forall₂_congr fun v hv => ?_
        rw [hmaps.get, hget, hv, Option.map_some, Option.map_some, turnValue_of_not_mem hkey,
          ← Json.same_mapNum_rounded (hrange key v hv)]
        simp
    · cases ho'

/-- A nanosecond timestamp, which a `float64` does not hold. -/
def stamped : Obj := [("timestamp_ns", .num ⟨"1712345678901234567".toList, by decide⟩)]

/-- **Rounded numbers.** A field of turn metadata that is not named comes out with another
number. -/
theorem remapping_rounds :
    ∃ i raw text j o out, Identity.new Digests.zero (some "key") [] [] true = .ok i ∧
      (remapTurnMetadata Digests.zero raw).run i = (.ok text, j) ∧
      decodeObject raw.toList = some o ∧ decodeObject text.toList = some out ∧
      "timestamp_ns" ∉ turnIdentityFields ∧ ∃ v w, Members.get o "timestamp_ns" = some v ∧
        Members.get out "timestamp_ns" = some w ∧ ¬v.Same w := by
  obtain ⟨i, hi, h⟩ := ok_of_any (x := Identity.new Digests.zero (some "key") [] [] true)
    (p := fun i =>
      ((remapTurnMetadata Digests.zero
          (String.ofList (marshal (.obj stamped)))).run i).1.toOption.any
        fun text => (decodeObject text.toList).any fun out =>
          (Members.get out "timestamp_ns").any fun w =>
            decide (¬(Obj.val stamped "timestamp_ns").Same w)) (by decide +kernel)
  obtain ⟨text, ht, h⟩ := (Option.any_eq_true _ _).mp h
  obtain ⟨out, hout, h⟩ := (Option.any_eq_true _ _).mp h
  obtain ⟨w, hw, h⟩ := (Option.any_eq_true _ _).mp h
  rcases hrun : (remapTurnMetadata Digests.zero
    (String.ofList (marshal (.obj stamped)))).run i with ⟨_ | text', j⟩
  · rw [hrun] at ht
    cases ht
  · rw [hrun] at ht
    cases ht
    exact ⟨i, _, _, j, stamped, out, hi, hrun, by decide +kernel, hout, by decide, _, w, rfl, hw,
      of_decide_eq_true h⟩

end Identity

end CodexOne
