import CodexOne.Identity
import CodexOne.Lib.NetIP

/-!
Which address a request is counted under.

A trusted proxy appends the address that it has its request from to `X-Forwarded-For`, so the
right-most entry that is not a trusted proxy is the client. A header may have several lines, of
which the code reads the first.
-/

namespace CodexOne

open NetIP GoStrings

namespace ClientAddress

def parseRemoteAddress (remoteAddress : String) : Option Addr :=
  let host := match splitHost remoteAddress with
    | some host => host
    | none =>
      let bracket := fun c : Char => c == '[' || c == ']'
      String.ofList
        ((remoteAddress.toList.dropWhile bracket).reverse.dropWhile bracket).reverse
  (parseAddr host).map fun address => address.unmap.withZone ""

def isTrustedProxy (trustedProxyCIDRs : List Prefix) (address : Addr) : Bool :=
  trustedProxyCIDRs.any fun p => p.contains address

def entries (line : String) : List String := (line.toList.splitOn ',').map String.ofList

def parseEntry (entry : String) : Option Addr :=
  (parseAddr (trimSpace entry)).map fun address => address.unmap.withZone ""

/-- The loop of `clientAddress`, over the entries from the right. -/
def walk (trustedProxyCIDRs : List Prefix) (peer : Addr) : (candidate : Addr) → List String → Addr
  | candidate, [] => candidate
  | _, entry :: rest =>
    match parseEntry entry with
    | none => peer
    | some address =>
      if isTrustedProxy trustedProxyCIDRs address then walk trustedProxyCIDRs peer address rest
      else address

def clientAddress (trustedProxyCIDRs : List Prefix) (remoteAddr : String) (header : Header) :
    String :=
  match parseRemoteAddress remoteAddr with
  | none => remoteAddr
  | some peer =>
    if isTrustedProxy trustedProxyCIDRs peer then
      (walk trustedProxyCIDRs peer peer (entries (header.get "X-Forwarded-For")).reverse).string
    else peer.string

def lines (header : Header) : List String :=
  (Members.get header (Header.canonicalKey "X-Forwarded-For")).getD []

/-- The address that the proxies vouch for: the walk over the entries of all lines. -/
def forwardedAddress (trustedProxyCIDRs : List Prefix) (remoteAddr : String)
    (header : Header) : String :=
  match parseRemoteAddress remoteAddr with
  | none => remoteAddr
  | some peer =>
    if isTrustedProxy trustedProxyCIDRs peer then
      (walk trustedProxyCIDRs peer peer ((lines header).flatMap entries).reverse).string
    else peer.string

/-- An entry that a trusted proxy has put there for another one. -/
def IsProxy (trustedProxyCIDRs : List Prefix) (entry : String) : Prop :=
  ∃ address ∈ parseEntry entry, isTrustedProxy trustedProxyCIDRs address = true

instance (trustedProxyCIDRs : List Prefix) (entry : String) :
    Decidable (IsProxy trustedProxyCIDRs entry) := by
  unfold IsProxy
  infer_instance

def IsClient (trustedProxyCIDRs : List Prefix) (entry : String) : Prop :=
  ∃ address ∈ parseEntry entry, isTrustedProxy trustedProxyCIDRs address = false

instance (trustedProxyCIDRs : List Prefix) (entry : String) :
    Decidable (IsClient trustedProxyCIDRs entry) := by
  unfold IsClient
  infer_instance

/-- The entry that counts: the right-most one that is not a trusted proxy, or the left-most one. -/
def decisive (trustedProxyCIDRs : List Prefix) (chain : List String) : Option String :=
  (chain.reverse.find? fun entry => ¬IsProxy trustedProxyCIDRs entry).or chain.head?

/-- What an entry stands for, where a malformed one stands for the peer. -/
def standsFor (peer : Addr) (entry : Option String) : Addr :=
  (entry.bind parseEntry).getD peer

/-- The first line decides as all of them do: the peer is no trusted proxy, or all entries of the
later lines are, or the entries that count in the first line and in the later ones stand for one
address. -/
def FirstDecides (trustedProxyCIDRs : List Prefix) (remoteAddr : String) (header : Header) : Prop :=
  ∀ peer ∈ parseRemoteAddress remoteAddr, isTrustedProxy trustedProxyCIDRs peer = true →
    (∀ entry ∈ (lines header).tail.flatMap entries, IsProxy trustedProxyCIDRs entry) ∨
      (standsFor peer (decisive trustedProxyCIDRs
        ((lines header).take 1 |>.flatMap entries))).string =
        (standsFor peer (decisive trustedProxyCIDRs
          ((lines header).tail.flatMap entries))).string

instance (trustedProxyCIDRs : List Prefix) (remoteAddr : String) (header : Header) :
    Decidable (FirstDecides trustedProxyCIDRs remoteAddr header) := by
  unfold FirstDecides
  infer_instance

/-! ### The walk -/

variable {cidrs : List Prefix} {peer : Addr} {chain : List String}

lemma isProxy_iff {entry : String} {address : Addr} (h : parseEntry entry = some address) :
    IsProxy cidrs entry ↔ isTrustedProxy cidrs address = true := by
  simp [IsProxy, h]

lemma not_isProxy_of_client {entry : String} (h : IsClient cidrs entry) : ¬IsProxy cidrs entry := by
  obtain ⟨address, haddress, huntrusted⟩ := h
  rw [isProxy_iff haddress, huntrusted]
  simp

/-- The walk ends at the first entry from the right that is not a trusted proxy. -/
lemma walk_eq (candidate : Addr) (right : List String) :
    walk cidrs peer candidate right = match right.find? fun entry => ¬IsProxy cidrs entry with
      | some entry => standsFor peer (some entry)
      | none => standsFor candidate right.getLast? := by
  induction right generalizing candidate with
  | nil => rfl
  | cons entry rest ih =>
    unfold walk
    cases hentry : parseEntry entry with
    | none =>
      have hnot : ¬IsProxy cidrs entry := by simp [IsProxy, hentry]
      rw [List.find?_cons_of_pos (by simpa using hnot)]
      simp [standsFor, hentry]
    | some address =>
      dsimp only
      by_cases htrusted : isTrustedProxy cidrs address = true
      · have hproxy : IsProxy cidrs entry := (isProxy_iff hentry).mpr htrusted
        rw [if_pos htrusted, ih, List.find?_cons_of_neg (by simpa using hproxy)]
        cases hfind : rest.find? fun entry => ¬IsProxy cidrs entry with
        | some e => rfl
        | none =>
          dsimp only
          -- the left-most entry is the last one that was a candidate
          cases hlast : rest.getLast? with
          | none =>
            obtain rfl := List.getLast?_eq_none_iff.mp hlast
            simp [standsFor, hentry]
          | some e =>
            have hmem : e ∈ rest := List.mem_of_getLast? hlast
            obtain ⟨a, ha, -⟩ : IsProxy cidrs e := by
              simpa using List.find?_eq_none.mp hfind e hmem
            rw [Option.mem_def] at ha
            have hcons : (entry :: rest).getLast? = some e := by
              rw [List.getLast?_cons, hlast]
              rfl
            rw [hcons]
            simp [standsFor, ha]
      · have hnot : ¬IsProxy cidrs entry := fun h => htrusted ((isProxy_iff hentry).mp h)
        rw [if_neg htrusted, List.find?_cons_of_pos (by simpa using hnot)]
        simp [standsFor, hentry]

lemma walk_reverse (chain : List String) :
    walk cidrs peer peer chain.reverse = standsFor peer (decisive cidrs chain) := by
  rw [walk_eq, List.getLast?_reverse]
  unfold decisive
  split
  · rename_i entry hfind
    rw [hfind, Option.some_or]
  · rename_i hfind
    rw [hfind, Option.none_or]

lemma find?_none_of_proxies (h : ∀ entry ∈ chain, IsProxy cidrs entry) :
    (chain.reverse.find? fun entry => ¬IsProxy cidrs entry) = none :=
  List.find?_eq_none.mpr fun entry hentry => by simpa using h entry (List.mem_reverse.mp hentry)

lemma decisive_append_proxies {rest : List String} (hne : chain ≠ [])
    (h : ∀ entry ∈ rest, IsProxy cidrs entry) :
    decisive cidrs (chain ++ rest) = decisive cidrs chain := by
  unfold decisive
  rw [List.reverse_append, List.find?_append, find?_none_of_proxies h, Option.none_or,
    List.head?_append_of_ne_nil _ hne]

lemma decisive_append {rest : List String} (h : ∃ entry ∈ rest, ¬IsProxy cidrs entry) :
    decisive cidrs (chain ++ rest) = decisive cidrs rest := by
  obtain ⟨entry, hentry, hnot⟩ := h
  have hfind : (rest.reverse.find? fun entry => ¬IsProxy cidrs entry).isSome = true :=
    List.find?_isSome.mpr ⟨entry, List.mem_reverse.mpr hentry, by simpa using hnot⟩
  obtain ⟨e, he⟩ := Option.isSome_iff_exists.mp hfind
  unfold decisive
  rw [List.reverse_append, List.find?_append, he, Option.some_or, Option.some_or, Option.some_or]

lemma entries_ne_nil (line : String) : entries line ≠ [] := by
  simp [entries, List.splitOn_ne_nil]

lemma get_eq (header : Header) : header.get "X-Forwarded-For" = (lines header).headD "" := rfl

lemma walk_get (header : Header) :
    walk cidrs peer peer (entries (header.get "X-Forwarded-For")).reverse =
      standsFor peer (decisive cidrs ((lines header).take 1 |>.flatMap entries)) := by
  rw [get_eq]
  cases lines header with
  | nil =>
    -- no header reads as one empty entry, which is malformed
    have hentries : entries "" = [""] := by decide
    have hparse : parseEntry "" = none := by decide
    rw [List.headD_nil, hentries, List.reverse_singleton, walk, hparse]
    rfl
  | cons line rest =>
    rw [walk_reverse]
    simp

lemma walk_lines (header : Header) :
    walk cidrs peer peer ((lines header).flatMap entries).reverse =
      if ∀ entry ∈ (lines header).tail.flatMap entries, IsProxy cidrs entry then
        standsFor peer (decisive cidrs ((lines header).take 1 |>.flatMap entries))
      else standsFor peer (decisive cidrs ((lines header).tail.flatMap entries)) := by
  rw [walk_reverse]
  cases lines header with
  | nil => simp
  | cons line rest =>
    rw [List.flatMap_cons, List.tail_cons, List.take_succ_cons, List.take_zero,
      List.flatMap_singleton]
    split
    · -- the first line counts only when the others name proxies alone
      rename_i hproxies
      rw [decisive_append_proxies (entries_ne_nil line) hproxies]
    · rename_i hnot
      push Not at hnot
      rw [decisive_append hnot]

lemma clientAddress_eq_iff (cidrs : List Prefix) (remoteAddr : String) (header : Header) :
    clientAddress cidrs remoteAddr header = forwardedAddress cidrs remoteAddr header ↔
      FirstDecides cidrs remoteAddr header := by
  unfold clientAddress forwardedAddress FirstDecides
  cases parseRemoteAddress remoteAddr with
  | none => simp
  | some peer =>
    by_cases htrusted : isTrustedProxy cidrs peer = true
    · dsimp only
      rw [if_pos htrusted, if_pos htrusted, walk_get, walk_lines]
      split_ifs with hproxies
      · simpa [htrusted] using Or.inl hproxies
      · simp only [Option.mem_def, Option.some.injEq, forall_eq', htrusted, forall_const,
          or_iff_right hproxies]
    · -- the header of a peer that is not trusted is not read
      simp [htrusted]

/-- What is on the left of the right-most client has no part in the address. -/
lemma forwardedAddress_congr {remoteAddr : String} {header header' : Header}
    {left left' right : List String} {client : String} (hclient : IsClient cidrs client)
    (hlines : (lines header).flatMap entries = left ++ client :: right)
    (hlines' : (lines header').flatMap entries = left' ++ client :: right) :
    forwardedAddress cidrs remoteAddr header = forwardedAddress cidrs remoteAddr header' := by
  have hdecisive (left : List String) :
      decisive cidrs (left ++ client :: right) = decisive cidrs (client :: right) :=
    decisive_append ⟨client, List.mem_cons_self .., not_isProxy_of_client hclient⟩
  unfold forwardedAddress
  cases parseRemoteAddress remoteAddr with
  | none => rfl
  | some peer =>
    dsimp only
    rw [walk_reverse, walk_reverse, hlines, hlines', hdecisive, hdecisive]

end ClientAddress

open ClientAddress

/-- **The address of a request.** `clientAddress` is the walk over the entries of all header lines
exactly when the first line decides as all of them do; and where that is so of two requests from
one peer that differ only on the left of the right-most client, they have the same address. -/
theorem client_address_iff (cidrs : List Prefix) (remoteAddr : String) :
    (∀ header, clientAddress cidrs remoteAddr header = forwardedAddress cidrs remoteAddr header ↔
      FirstDecides cidrs remoteAddr header) ∧
    ∀ header header' left left' client right, IsClient cidrs client →
      (∀ entry ∈ right, ¬IsClient cidrs entry) →
      (lines header).flatMap entries = left ++ client :: right →
      (lines header').flatMap entries = left' ++ client :: right →
      FirstDecides cidrs remoteAddr header → FirstDecides cidrs remoteAddr header' →
        clientAddress cidrs remoteAddr header = clientAddress cidrs remoteAddr header' := by
  refine ⟨clientAddress_eq_iff cidrs remoteAddr, ?_⟩
  intro header header' left left' client right hclient _ hlines hlines' hfirst hfirst'
  rw [(clientAddress_eq_iff ..).mpr hfirst, (clientAddress_eq_iff ..).mpr hfirst']
  exact forwardedAddress_congr hclient hlines hlines'

def samplePrefixes : List Prefix := [⟨.v4 0x0a000000, 8⟩]

/-- A request through two trusted proxies, the second of which adds a line of its own. -/
theorem client_address_sample :
    clientAddress samplePrefixes "10.0.0.2:4444"
        [("X-Forwarded-For", ["192.0.2.7,198.51.100.9", "::ffff:10.0.0.3"])] = "198.51.100.9" ∧
      clientAddress samplePrefixes "10.0.0.2:4444"
        [("X-Forwarded-For", ["192.0.2.7,198.51.100.9", "::ffff:10.0.0.3"])] =
      clientAddress samplePrefixes "10.0.0.2:4444"
        [("X-Forwarded-For", ["198.51.100.9", "::ffff:10.0.0.3"])] :=
  ⟨by decide, (client_address_iff samplePrefixes "10.0.0.2:4444").2 _ _ ["192.0.2.7"] []
    "198.51.100.9" ["::ffff:10.0.0.3"] (by decide) (by decide)
    (by decide) (by decide) (by decide) (by decide)⟩

/-- The client sends a header line, and the trusted proxy adds the client's address in a line of
its own: the client chooses the address that it is counted under. -/
theorem client_address_chosen :
    clientAddress samplePrefixes "10.0.0.2:4444"
        [("X-Forwarded-For", ["192.0.2.7", "198.51.100.9"])] = "192.0.2.7" ∧
      clientAddress samplePrefixes "10.0.0.2:4444"
        [("X-Forwarded-For", ["192.0.2.8", "198.51.100.9"])] = "192.0.2.8" ∧
      forwardedAddress samplePrefixes "10.0.0.2:4444"
        [("X-Forwarded-For", ["192.0.2.7", "198.51.100.9"])] = "198.51.100.9" ∧
      forwardedAddress samplePrefixes "10.0.0.2:4444"
        [("X-Forwarded-For", ["192.0.2.8", "198.51.100.9"])] = "198.51.100.9" := by
  decide

end CodexOne
