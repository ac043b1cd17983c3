import CodexOne.Lib.Url

/-!
The callback of a browser login, as it is pasted: a URL, or the parameters alone.
-/

namespace CodexOne.Codex

open Url

/-- The encodings of the runes that `unicode.IsSpace` holds of. -/
def spaces : List Bytes :=
  [[0x09], [0x0a], [0x0b], [0x0c], [0x0d], [0x20], [0xc2, 0x85], [0xc2, 0xa0],
      [0xe1, 0x9a, 0x80]] ++
    (List.range 11).map (fun k => [0xe2, 0x80, 0x80 + UInt8.ofNat k]) ++
    [[0xe2, 0x80, 0xa8], [0xe2, 0x80, 0xa9], [0xe2, 0x80, 0xaf], [0xe2, 0x81, 0x9f],
      [0xe3, 0x80, 0x80]]

/-- Cut prefixes off, as many as there may be. -/
def cutPrefixes (prefixes : List Bytes) : ℕ → Bytes → Bytes
  | 0, s => s
  | fuel + 1, s =>
    match prefixes.find? (·.isPrefixOf s) with
    | some p => cutPrefixes prefixes fuel (s.drop p.length)
    | none => s

/-- `strings.TrimSpace`. -/
def trimBytes (s : Bytes) : Bytes :=
  let left := cutPrefixes spaces s.length s
  (cutPrefixes (spaces.map List.reverse) left.length left.reverse).reverse

def browserRedirectURI : Bytes := ascii "http://localhost:1455/auth/callback"

structure BrowserCallback where
  code : Bytes
  state : Bytes
  error : Bytes
  errorDescription : Bytes
  deriving DecidableEq

def browserOAuthInputError (message : String) : String :=
  "invalid browser OAuth input: " ++ message

/-- The URL that a pasted text stands for. -/
def callbackCandidate (trimmed : Bytes) : Bytes :=
  if (ascii "?").isPrefixOf trimmed then browserRedirectURI ++ trimmed
  else if ¬contains (ascii "://") trimmed ∧ contains (ascii "=") trimmed ∧
      ¬trimmed.any (fun b => (ascii "/?#").contains b) then
    browserRedirectURI ++ ascii "?" ++ trimmed
  else if ¬contains (ascii "://") trimmed then ascii "http://" ++ trimmed
  else trimmed

/-- `strings.EqualFold` with `localhost`, in which the long s folds too. -/
def isLocalhost : Bytes → Bytes → Bool
  | [], host => host = []
  | c :: name, 0xc5 :: 0xbf :: host => c = 0x73 && isLocalhost name host
  | c :: name, b :: host => toLower b = c && isLocalhost name host
  | _ :: _, [] => false

/-- The values of a callback URL: its parameters, and those of its fragment for what they lack. -/
def callbackValues (parsed : Parsed) : Values :=
  let values := (parseQuery parsed.rawQuery).1
  let fragment := parseQuery parsed.fragment
  if parsed.fragment ≠ [] ∧ fragment.2 then
    ["code", "state", "error", "error_description"].foldl (fun values name =>
      if values.get (ascii name) = [] ∧ Values.get fragment.1 (ascii name) ≠ [] then
        values.set (ascii name) (Values.get fragment.1 (ascii name))
      else values) values
  else values

def parseBrowserCallback (input : Bytes) : Except String BrowserCallback := do
  let trimmed := trimBytes input
  if trimmed = [] ∨ trimmed.length > 16 * 1024 then
    throw (browserOAuthInputError "paste the complete localhost callback URL")
  match Url.parse (callbackCandidate trimmed) with
  | none => throw (browserOAuthInputError "callback URL is malformed")
  | some parsed =>
    if parsed.scheme ≠ ascii "http" ∨ ¬isLocalhost (ascii "localhost") parsed.hostPort.1 ∨
        parsed.hostPort.2 ≠ ascii "1455" ∨ parsed.path ≠ ascii "/auth/callback" then
      throw (browserOAuthInputError "callback must start with http://localhost:1455/auth/callback")
    let values := callbackValues parsed
    let callback : BrowserCallback :=
      { code := trimBytes (values.get (ascii "code"))
        state := trimBytes (values.get (ascii "state"))
        error := trimBytes (values.get (ascii "error"))
        errorDescription := trimBytes (values.get (ascii "error_description")) }
    if callback.error = [] ∧ callback.code = [] then
      throw (browserOAuthInputError "callback URL does not contain an authorization code")
    if callback.error = [] ∧ callback.state = [] then
      throw (browserOAuthInputError "callback URL does not contain OAuth state")
    return callback

/-- The forms of a callback that can be pasted. -/
inductive Form where
  | url (scheme inFragment : Bool)
  | question
  | bare

def callbackParameters (code state : Bytes) : Bytes :=
  Values.encode [(ascii "code", code), (ascii "state", state)]

/-- A callback as it is pasted. -/
def Form.text (form : Form) (parameters : Bytes) : Bytes :=
  match form with
  | .url scheme inFragment =>
    (if scheme then browserRedirectURI else ascii "localhost:1455/auth/callback") ++
      (if inFragment then 0x23 else 0x3f) :: parameters
  | .question => 0x3f :: parameters
  | .bare => parameters

/-- Text that stays the same when it is unescaped once more. -/
def Plain (s : Bytes) : Prop := ∀ b ∈ s, (ascii "%+&;").contains b = false

instance (s : Bytes) : Decidable (Plain s) := inferInstanceAs (Decidable (∀ b ∈ s, _))

lemma cutPrefixes_eq_self {prefixes : List Bytes} {s : Bytes}
    (h : ∀ p ∈ prefixes, p.isPrefixOf s = false) (fuel : ℕ) : cutPrefixes prefixes fuel s = s := by
  cases fuel with
  | zero => rfl
  | succ fuel =>
    have hnone : prefixes.find? (·.isPrefixOf s) = none :=
      List.find?_eq_none.mpr fun p hp => by simp [h p hp]
    rw [cutPrefixes, hnone]

lemma isPrefixOf_of_head {p s : Bytes} (hne : p ≠ []) (h : p.head? ≠ s.head?) :
    p.isPrefixOf s = false := by
  cases p with
  | nil => exact absurd rfl hne
  | cons a p =>
    cases s with
    | nil => rfl
    | cons b s =>
      have hab : a ≠ b := fun hab => h (by rw [hab]; rfl)
      simp [List.isPrefixOf, hab]

lemma cutPrefixes_suffix (prefixes : List Bytes) (fuel : ℕ) (s : Bytes) :
    cutPrefixes prefixes fuel s <:+ s := by
  induction fuel generalizing s with
  | zero => exact List.suffix_rfl
  | succ fuel ih =>
    unfold cutPrefixes
    split
    · exact (ih _).trans (List.drop_suffix ..)
    · exact List.suffix_rfl

lemma trimBytes_infix (s : Bytes) : trimBytes s <:+: s := by
  unfold trimBytes
  dsimp only
  have hleft := cutPrefixes_suffix spaces s.length s
  have hright := List.reverse_prefix.mpr (cutPrefixes_suffix (spaces.map List.reverse)
    (cutPrefixes spaces s.length s).length (cutPrefixes spaces s.length s).reverse)
  rw [List.reverse_reverse] at hright
  exact hright.isInfix.trans hleft.isInfix

set_option maxRecDepth 8000 in
lemma spaces_edges : ∀ p ∈ spaces ++ spaces.map List.reverse,
    p ≠ [] ∧ ∀ b ∈ p.head?, ¬(0x21 ≤ b ∧ b < 0x80) := by decide

lemma isPrefixOf_visible {p t : Bytes} (hp : p ∈ spaces ++ spaces.map List.reverse)
    (ht : ∀ b ∈ t.head?, 0x21 ≤ b ∧ b < 0x80) : p.isPrefixOf t = false := by
  obtain ⟨hne, hedge⟩ := spaces_edges p hp
  refine isPrefixOf_of_head hne fun heq => ?_
  cases p with
  | nil => exact hne rfl
  | cons a p => exact hedge a rfl (ht a heq.symm)

lemma cutPrefixes_visible {t : Bytes} (ht : ∀ b ∈ t.head?, 0x21 ≤ b ∧ b < 0x80) (fuel : ℕ) :
    cutPrefixes spaces fuel t = t ∧ cutPrefixes (spaces.map List.reverse) fuel t = t :=
  ⟨cutPrefixes_eq_self (fun _ hp => isPrefixOf_visible (List.mem_append_left _ hp) ht) fuel,
    cutPrefixes_eq_self (fun _ hp => isPrefixOf_visible (List.mem_append_right _ hp) ht) fuel⟩

section Visible

variable {s : Bytes} (hhead : ∀ b ∈ s.head?, 0x21 ≤ b ∧ b < 0x80)
  (hlast : ∀ b ∈ s.getLast?, 0x21 ≤ b ∧ b < 0x80)
include hhead hlast

lemma trimBytes_eq_self : trimBytes s = s := by
  unfold trimBytes
  dsimp only
  rw [(cutPrefixes_visible hhead _).1,
    (cutPrefixes_visible (by rwa [List.head?_reverse]) _).2, List.reverse_reverse]

lemma trimBytes_line (hne : s ≠ []) : trimBytes (s ++ [0x0a]) = s := by
  have hfind (t : Bytes) :
      (spaces.map List.reverse).find? (·.isPrefixOf (0x0a :: t)) = some [0x0a] := rfl
  unfold trimBytes
  dsimp only
  rw [(cutPrefixes_visible (by rwa [List.head?_append_of_ne_nil _ hne]) _).1, List.length_append,
    List.length_singleton, List.reverse_append, List.reverse_singleton, List.singleton_append,
    cutPrefixes, hfind]
  dsimp only
  rw [List.length_singleton, List.drop_one, List.tail_cons,
    (cutPrefixes_visible (by rwa [List.head?_reverse]) _).2, List.reverse_reverse]

end Visible

/-! ### The URL of a form -/

lemma queryEscape_code : queryEscape (ascii "code") = ascii "code" := by decide
lemma queryEscape_state : queryEscape (ascii "state") = ascii "state" := by decide

lemma callbackParameters_eq (code state : Bytes) :
    callbackParameters code state = (ascii "code" ++ 0x3d :: queryEscape code) ++ 0x26 ::
      (ascii "state" ++ 0x3d :: queryEscape state) := by
  unfold callbackParameters Values.encode
  simp only [List.map_cons, List.map_nil, queryEscape_code, queryEscape_state]
  simp [List.intercalate]

lemma callbackParameters_bytes (code state : Bytes) :
    ∀ b ∈ callbackParameters code state, isEscaped b = true ∨ b = 0x26 ∨ b = 0x3d := by
  have hcode : ∀ b ∈ ascii "code", isEscaped b = true := forall_mem_of_all (by decide)
  have hstate : ∀ b ∈ ascii "state", isEscaped b = true := forall_mem_of_all (by decide)
  intro b hb
  rw [callbackParameters_eq] at hb
  simp only [List.mem_append, List.mem_cons] at hb
  rcases hb with (hb | rfl | hb) | rfl | hb | rfl | hb
  · exact .inl (hcode b hb)
  · exact .inr (.inr rfl)
  · exact .inl (isEscaped_queryEscape _ b hb)
  · exact .inr (.inl rfl)
  · exact .inl (hstate b hb)
  · exact .inr (.inr rfl)
  · exact .inl (isEscaped_queryEscape _ b hb)

set_option maxRecDepth 8000 in
lemma callbackParameters_plain (code state : Bytes) {b : UInt8}
    (hb : b ∈ callbackParameters code state) :
    (ascii "#?/: ").contains b = false ∧ (b < 0x20 || b = 0x7f : Bool) = false ∧
      0x21 ≤ b ∧ b < 0x80 := by
  have hplain : ∀ b, (isEscaped b = true ∨ b = 0x26 ∨ b = 0x3d) →
      (ascii "#?/: ").contains b = false ∧ (b < 0x20 || b = 0x7f : Bool) = false ∧
        0x21 ≤ b ∧ b < 0x80 :=
    forall_byte (P := fun b => (isEscaped b = true ∨ b = 0x26 ∨ b = 0x3d) →
      (ascii "#?/: ").contains b = false ∧ (b < 0x20 || b = 0x7f : Bool) = false ∧
        0x21 ≤ b ∧ b < 0x80) (by decide)
  exact hplain b (callbackParameters_bytes code state b hb)

lemma not_mem_callbackParameters (code state : Bytes) {b : UInt8}
    (h : (ascii "#?/: ").contains b = true) : b ∉ callbackParameters code state := fun hb => by
  rw [(callbackParameters_plain code state hb).1] at h
  cases h

lemma callbackParameters_ne_nil (code state : Bytes) : callbackParameters code state ≠ [] := by
  rw [callbackParameters_eq]
  simp

/-- Parameters that are unescaped once more. -/
def onceMore (code state : Bytes) : Bytes :=
  (ascii "code" ++ 0x3d :: code.map (plused false)) ++ 0x26 ::
    (ascii "state" ++ 0x3d :: state.map (plused false))

lemma unescape_callbackParameters (code state : Bytes) :
    unescape false (callbackParameters code state) = some (onceMore code state) := by
  have hpiece {key : Bytes} (hkey : unescape false (key ++ [0x3d]) = some (key ++ [0x3d]))
      (value : Bytes) : unescape false (key ++ 0x3d :: queryEscape value) =
        some (key ++ 0x3d :: value.map (plused false)) := by
    have h := unescape_append hkey (queryEscape value)
    rw [unescape_queryEscape] at h
    simpa using h
  rw [callbackParameters_eq,
    unescape_append (hpiece (by decide) code), unescape_cons (by decide),
    hpiece (by decide) state]
  rfl

section parsing

variable {q : Bytes} (hq : ∀ b ∈ q, (ascii "#?/: ").contains b = false ∧
  (b < 0x20 || b = 0x7f : Bool) = false ∧ 0x21 ≤ b ∧ b < 0x80)
include hq

lemma parse_query (hne : q ≠ []) : Url.parse (browserRedirectURI ++ 0x3f :: q) =
    some ⟨ascii "http", ascii "localhost:1455", ascii "/auth/callback", q, []⟩ := by
  have hnot {b : UInt8} (hb : (ascii "#?/: ").contains b = true) : b ∉ q := fun h => by
    rw [(hq b h).1] at hb
    cases hb
  -- no byte behind the question mark has a meaning in the URL
  have hhash : (0x23 : UInt8) ∉ browserRedirectURI ++ 0x3f :: q := by
    rw [List.mem_append, List.mem_cons]
    rintro (h | h | h)
    · exact absurd h (by decide)
    · exact absurd h (by decide)
    · exact hnot (by decide) h
  have hctl : ((browserRedirectURI ++ 0x3f :: q).any fun b => b < 0x20 || b = 0x7f) = false := by
    refine List.any_eq_false.mpr fun b hb => ?_
    rw [List.mem_append, List.mem_cons] at hb
    rcases hb with hb | rfl | hb
    · have hall : ∀ b ∈ browserRedirectURI, ¬(b < 0x20 || b = 0x7f : Bool) = true :=
        forall_mem_of_all (by decide)
      exact hall b hb
    · decide
    · rw [(hq b hb).2.1]
      simp
  have hscheme : getScheme (browserRedirectURI ++ 0x3f :: q) =
      some (ascii "http", ascii "//localhost:1455/auth/callback" ++ 0x3f :: q) := by
    have hsplit : browserRedirectURI =
        0x68 :: ascii "ttp" ++ 0x3a :: ascii "//localhost:1455/auth/callback" := by decide
    rw [hsplit, List.append_assoc, List.cons_append (a := 0x3a)]
    exact getScheme_append (by decide) (forall_mem_of_all (by decide)) _
  have hlast : ¬((ascii "//localhost:1455/auth/callback" ++ 0x3f :: q).getLast? = some 0x3f ∧
      (ascii "//localhost:1455/auth/callback" ++ 0x3f :: q).count 0x3f = 1) := fun h => by
    have hmem := List.mem_of_getLast? (l := q) (a := 0x3f) (by
      rw [← h.1, List.getLast?_append, List.getLast?_cons]
      cases hq' : q.getLast? with
      | none => exact absurd (List.getLast?_eq_none_iff.mp hq') hne
      | some b => rfl)
    exact hnot (by decide) hmem
  have hhierarchy : parseHierarchy (ascii "http") (ascii "//localhost:1455/auth/callback") =
      some (ascii "localhost:1455", ascii "/auth/callback") := by decide +kernel
  have hlower : (ascii "http").map toLower = ascii "http" := by decide
  unfold Url.parse
  rw [cut_of_not_mem hhash]
  dsimp only
  unfold parseBefore
  rw [hctl, hscheme]
  simp only [Bool.false_eq_true, if_false, Option.bind_eq_bind, Option.bind_some]
  rw [if_neg hlast, cut_append (by decide)]
  dsimp only
  rw [hhierarchy, Option.bind_some, hlower]
  rfl

omit hq in
lemma parse_fragment : Url.parse (browserRedirectURI ++ 0x23 :: q) =
    (unescape false q).map fun fragment =>
      ⟨ascii "http", ascii "localhost:1455", ascii "/auth/callback", [], fragment⟩ := by
  have hhash : (0x23 : UInt8) ∉ browserRedirectURI := by decide
  have hbefore : parseBefore browserRedirectURI =
      some ⟨ascii "http", ascii "localhost:1455", ascii "/auth/callback", [], []⟩ := by
    decide +kernel
  unfold Url.parse
  rw [cut_append hhash]
  dsimp only
  rw [hbefore]
  cases unescape false q <;> rfl

end parsing

/-- Where the parameters of a form are found in its URL. -/
def Form.parsed (form : Form) (parameters : Bytes) : Option Parsed :=
  match form with
  | .url _ true => (unescape false parameters).map fun fragment =>
      ⟨ascii "http", ascii "localhost:1455", ascii "/auth/callback", [], fragment⟩
  | _ => some ⟨ascii "http", ascii "localhost:1455", ascii "/auth/callback", parameters, []⟩

lemma parse_form (code state : Bytes) (form : Form) :
    Url.parse (callbackCandidate (form.text (callbackParameters code state))) =
      form.parsed (callbackParameters code state) := by
  have hne := callbackParameters_ne_nil code state
  have hq : ∀ b ∈ callbackParameters code state, _ := fun b => callbackParameters_plain code state
  have hnot {b : UInt8} := not_mem_callbackParameters code state (b := b)
  have hmark {s : Bytes} (hs : s ≠ []) (h : s.head? ≠ some 0x3f) (t : Bytes) :
      ¬(ascii "?").isPrefixOf (s ++ t) = true := by
    rw [isPrefixOf_of_head (by decide) fun heq => h (by
      rw [← heq.trans (List.head?_append_of_ne_nil s hs)]
      rfl)]
    simp
  cases form with
  | question =>
    have hcandidate : callbackCandidate (Form.question.text (callbackParameters code state)) =
        browserRedirectURI ++ 0x3f :: callbackParameters code state :=
      if_pos (by simp [Form.text, ascii, List.isPrefixOf])
    rw [hcandidate, parse_query hq hne]
    rfl
  | bare =>
    have hcandidate : callbackCandidate (Form.bare.text (callbackParameters code state)) =
        browserRedirectURI ++ 0x3f :: callbackParameters code state := by
      -- without `?`, `#` and `/` the text can only be the query itself
      have hprefix : ¬(ascii "?").isPrefixOf (callbackParameters code state) = true := fun h => by
        obtain ⟨rest, hrest⟩ := List.isPrefixOf_iff_prefix.mp h
        exact hnot (by decide) (hrest ▸ List.mem_append_left rest (by decide : (0x3f : UInt8) ∈ _))
      have hscheme : contains (ascii "://") (callbackParameters code state) = false :=
        contains_of_not_mem _ (hnot (by decide))
      have hequals : contains (ascii "=") (callbackParameters code state) = true :=
        contains_of_mem (by
          rw [callbackParameters_eq]
          exact List.mem_append_left _ (List.mem_append_right _ (List.mem_cons_self ..)))
      have hany : ¬(callbackParameters code state).any (fun b => (ascii "/?#").contains b) =
          true := by
        have hsub : ∀ b ∈ ascii "/?#", (ascii "#?/: ").contains b = true :=
          forall_mem_of_all (by decide)
        simp only [List.any_eq_true, not_exists, not_and]
        intro b hb h
        exact hnot (hsub b (List.contains_iff_mem.mp h)) hb
      change callbackCandidate (callbackParameters code state) = _
      rw [callbackCandidate, if_neg hprefix, if_pos ⟨by simp [hscheme], hequals, hany⟩]
      simp [ascii]
    rw [hcandidate, parse_query hq hne]
    rfl
  | url scheme inFragment =>
    have hcandidate : callbackCandidate
        ((Form.url scheme inFragment).text (callbackParameters code state)) =
        browserRedirectURI ++ (if inFragment then 0x23 else 0x3f) ::
          callbackParameters code state := by
      cases scheme with
      | true =>
        have hscheme (rest : Bytes) : contains (ascii "://") (browserRedirectURI ++ rest) = true :=
          contains_append_left (by decide) (by decide) rest
        change callbackCandidate (browserRedirectURI ++ _) = _
        rw [callbackCandidate, if_neg (hmark (by decide) (by decide) _),
          if_neg fun h => h.1 (hscheme _),
          if_neg fun h => h (hscheme _)]
      | false =>
        have hscheme : contains (ascii "://") (ascii "localhost:1455/auth/callback" ++
            (if inFragment then 0x23 else 0x3f) :: callbackParameters code state) = false := by
          have hsplit : ascii "localhost:1455/auth/callback" =
              ascii "localhost" ++ 0x3a :: ascii "1455/auth/callback" := by decide
          have hcolon : (0x3a : UInt8) ∉ ascii "1455/auth/callback" ++
              (if inFragment then 0x23 else 0x3f) :: callbackParameters code state := by
            rw [List.mem_append, List.mem_cons]
            rintro (h | h | h)
            · exact absurd h (by decide)
            · cases inFragment <;> exact absurd h (by decide)
            · exact hnot (by decide) h
          rw [hsplit, List.append_assoc]
          change contains (0x3a :: ascii "//") (ascii "localhost" ++ _) = false
          rw [contains_append_of_not_mem (by decide), List.cons_append, contains,
            contains_of_not_mem _ hcolon, Bool.or_false]
          simp [ascii, List.isPrefixOf]
        have hslash : (ascii "localhost:1455/auth/callback" ++
            (if inFragment then 0x23 else 0x3f) :: callbackParameters code state).any
              (fun b => (ascii "/?#").contains b) = true := by
          rw [List.any_append, Bool.or_eq_true]
          exact .inl (by decide)
        change callbackCandidate (ascii "localhost:1455/auth/callback" ++ _) = _
        rw [callbackCandidate, if_neg (hmark (by decide) (by decide) _),
          if_neg fun h => h.2.2 hslash,
          if_pos (by simp [hscheme])]
        rfl
    rw [hcandidate]
    cases inFragment with
    | true => exact parse_fragment
    | false => exact parse_query hq hne

lemma get_fold (fragment : Values) (names : List String) (values : Values) (name : Bytes) :
    (names.foldl (fun values name =>
      if Values.get values (ascii name) = [] ∧ Values.get fragment (ascii name) ≠ [] then
        Values.set values (ascii name) (Values.get fragment (ascii name))
      else values) values).get name =
      if name ∈ names.map ascii ∧ values.get name = [] then Values.get fragment name
      else values.get name := by
  induction names generalizing values with
  | nil => simp
  | cons first names ih =>
    rw [List.foldl_cons, ih]
    by_cases hset : Values.get values (ascii first) = [] ∧ Values.get fragment (ascii first) ≠ []
    · -- the query leaves the name empty, and the fragment has it
      rw [if_pos hset, Values.get_set]
      by_cases hname : ascii first = name
      · subst hname
        simp [hset]
      · have hname' : name ≠ ascii first := Ne.symm hname
        simp [hname, hname']
    · rw [if_neg hset]
      by_cases hname : name = ascii first
      · subst hname
        by_cases hempty : Values.get values (ascii first) = []
        · have hfragment : Values.get fragment (ascii first) = [] := by
            by_contra h
            exact hset ⟨hempty, h⟩
          simp [hempty, hfragment]
        · simp [hempty]
      · simp [hname]

lemma callbackValues_fragment {parsed : Parsed} (hquery : parsed.rawQuery = []) {name : Bytes}
    (hname : name ∈ ["code", "state", "error", "error_description"].map ascii) :
    (callbackValues parsed).get name =
      if (parseQuery parsed.fragment).2 then Values.get (parseQuery parsed.fragment).1 name
      else [] := by
  unfold callbackValues
  dsimp only
  rw [hquery, parseQuery_nil]
  by_cases hfragment : parsed.fragment = []
  · rw [if_neg fun h => h.1 hfragment, hfragment, parseQuery_nil]
    rfl
  · by_cases hok : (parseQuery parsed.fragment).2 = true
    · rw [if_pos ⟨hfragment, hok⟩, if_pos hok, get_fold, if_pos ⟨hname, rfl⟩]
    · rw [if_neg fun h => hok h.2, if_neg hok]
      rfl

lemma callbackValues_query {parsed : Parsed} (hfragment : parsed.fragment = []) :
    callbackValues parsed = (parseQuery parsed.rawQuery).1 :=
  if_neg fun h => h.1 hfragment

lemma parseQuery_callbackParameters (code state : Bytes) :
    parseQuery (callbackParameters code state) =
      ([(ascii "code", code), (ascii "state", state)], true) := by
  have hpiece {key : Bytes}
      (hkey : ∀ b ∈ key, b ≠ 0x25 ∧ b ≠ 0x2b ∧ b ≠ 0x3d ∧ b ≠ 0x3b ∧ b ≠ 0x26) (value : Bytes) :
      parseQuery (key ++ 0x3d :: queryEscape value) = ([(key, value)], true) := by
    refine parseQuery_plain hkey (fun b hb => ?_) (by rw [unescape_queryEscape, map_plused])
    have hplain := (isEscaped_plain (isEscaped_queryEscape value b hb)).1
    constructor
    · rintro rfl
      exact absurd hplain (by decide)
    · rintro rfl
      exact absurd hplain (by decide)
  rw [callbackParameters_eq, parseQuery_append, hpiece (forall_mem_of_all (by decide)) code,
    hpiece (forall_mem_of_all (by decide)) state]
  rfl

set_option maxRecDepth 8000 in
lemma Plain.unescape {s : Bytes} (h : Plain s) :
    (∀ b ∈ s.map (plused false), b ≠ 0x26 ∧ b ≠ 0x3b) ∧
      Url.unescape true (s.map (plused false)) = some s := by
  have hbyte : ∀ b, (ascii "%+&;").contains b = false →
      (plused false b ≠ 0x26 ∧ plused false b ≠ 0x3b) ∧ plused false b ≠ 0x25 ∧
        (if plused false b = 0x2b then (0x20 : UInt8) else plused false b) = b :=
    forall_byte (P := fun b => (ascii "%+&;").contains b = false →
      (plused false b ≠ 0x26 ∧ plused false b ≠ 0x3b) ∧ plused false b ≠ 0x25 ∧
        (if plused false b = 0x2b then (0x20 : UInt8) else plused false b) = b) (by decide)
  have hmap {P : UInt8 → Prop} (hP : ∀ b, (ascii "%+&;").contains b = false → P (plused false b)) :
      ∀ b ∈ s.map (plused false), P b := fun b hb => by
    obtain ⟨c, hc, rfl⟩ := List.mem_map.mp hb
    exact hP c (h c hc)
  refine ⟨hmap fun b hb => (hbyte b hb).1, ?_⟩
  rw [unescape_plain (hmap fun b hb => (hbyte b hb).2.1), List.map_map]
  refine congrArg some ((List.map_congr_left fun b hb => ?_).trans (List.map_id s))
  simpa using (hbyte b (h b hb)).2.2

set_option maxRecDepth 8000 in
lemma plain_of_map {s : Bytes}
    (htext : ∀ b ∈ s.map (plused false), b ≠ 0x26 ∧ b ≠ 0x3b ∧ b ≠ 0x25)
    (heq : (s.map (plused false)).map (fun b => if b = 0x2b then 0x20 else b) = s) : Plain s := by
  have hbyte : ∀ b : UInt8,
      (plused false b ≠ 0x26 ∧ plused false b ≠ 0x3b ∧ plused false b ≠ 0x25) ∧
      (if plused false b = 0x2b then (0x20 : UInt8) else plused false b) = b →
        (ascii "%+&;").contains b = false :=
    forall_byte (P := fun b =>
        (plused false b ≠ 0x26 ∧ plused false b ≠ 0x3b ∧ plused false b ≠ 0x25) ∧
      (if plused false b = 0x2b then (0x20 : UInt8) else plused false b) = b →
        (ascii "%+&;").contains b = false) (by decide)
  intro b hb
  rw [List.map_map] at heq
  have hself := List.map_inj_left.mp (heq.trans (List.map_id s).symm) b hb
  exact hbyte b ⟨htext _ (List.mem_map_of_mem hb), hself⟩

lemma plain_of_get {key value : Bytes}
    (hkey : ∀ b ∈ key, b ≠ 0x25 ∧ b ≠ 0x2b ∧ b ≠ 0x3d ∧ b ≠ 0x3b ∧ b ≠ 0x26)
    (hok : (parseQuery (key ++ 0x3d :: value.map (plused false))).2 = true) {others : Values}
    (hget : trimBytes (Values.get
      ((parseQuery (key ++ 0x3d :: value.map (plused false))).1 ++ others) key) = value) :
    (parseQuery (key ++ 0x3d :: value.map (plused false))).1 = [(key, value)] ∧ Plain value := by
  obtain ⟨v, rest, hpairs, hle, heq⟩ := parseQuery_first hkey hok
  rw [hpairs, List.cons_append, Values.get_cons, if_pos rfl] at hget
  have hinfix := trimBytes_infix v
  rw [hget] at hinfix
  rw [List.length_map] at hle heq
  have hlen : v.length = value.length := le_antisymm hle hinfix.length_le
  obtain ⟨rfl, htext, hv⟩ := heq hlen
  obtain rfl := hinfix.eq_of_length hlen.symm
  exact ⟨hpairs, plain_of_map htext hv.symm⟩

/-- **Reading from a fragment.** -/
lemma fragment_iff {code state : Bytes} (hcode : code ≠ [])
    (htrimCode : trimBytes code = code) (htrimState : trimBytes state = state)
    {parsed : Parsed} (hquery : parsed.rawQuery = [])
    (hfragment : parsed.fragment = onceMore code state) :
    (trimBytes ((callbackValues parsed).get (ascii "code")) = code ∧
      trimBytes ((callbackValues parsed).get (ascii "state")) = state ∧
      trimBytes ((callbackValues parsed).get (ascii "error")) = [] ∧
      trimBytes ((callbackValues parsed).get (ascii "error_description")) = []) ↔
      Plain code ∧ Plain state := by
  have hkey : ∀ b ∈ ascii "code" ++ ascii "state",
      b ≠ 0x25 ∧ b ≠ 0x2b ∧ b ≠ 0x3d ∧ b ≠ 0x3b ∧ b ≠ 0x26 := forall_mem_of_all (by decide)
  have hkeyCode := fun b hb => hkey b (List.mem_append_left _ hb)
  have hkeyState := fun b hb => hkey b (List.mem_append_right _ hb)
  have hjoin := parseQuery_append (ascii "code" ++ 0x3d :: code.map (plused false))
    (ascii "state" ++ 0x3d :: state.map (plused false))
  rw [callbackValues_fragment hquery (by decide), callbackValues_fragment hquery (by decide),
    callbackValues_fragment hquery (by decide), callbackValues_fragment hquery (by decide),
    hfragment, onceMore, hjoin]
  constructor
  · rintro ⟨hgetCode, hgetState, -⟩
    dsimp only at hgetCode hgetState
    split at hgetCode
    · rename_i hok
      obtain ⟨hokCode, hokState⟩ := Bool.and_eq_true_iff.mp hok
      obtain ⟨hpairs, hplainCode⟩ := plain_of_get hkeyCode hokCode hgetCode
      rw [if_pos hok, hpairs, List.singleton_append, Values.get_cons, if_neg (by decide),
        ← List.append_nil (parseQuery (ascii "state" ++ _)).1] at hgetState
      exact ⟨hplainCode, (plain_of_get hkeyState hokState hgetState).2⟩
    · exact absurd hgetCode.symm hcode
  · rintro ⟨hplainCode, hplainState⟩
    rw [parseQuery_plain hkeyCode hplainCode.unescape.1 hplainCode.unescape.2,
      parseQuery_plain hkeyState hplainState.unescape.1 hplainState.unescape.2]
    exact ⟨htrimCode, htrimState, rfl, rfl⟩

/-! ### Every form -/

lemma parseBrowserCallback_iff {input code state : Bytes} (htrim : trimBytes input = input)
    (hne : input ≠ []) (hlen : input.length ≤ 16 * 1024) (hcode : code ≠ []) (hstate : state ≠ [])
    {parsed : Parsed} (hparse : Url.parse (callbackCandidate input) = some parsed)
    (hplace : parsed.scheme = ascii "http" ∧ parsed.host = ascii "localhost:1455" ∧
      parsed.path = ascii "/auth/callback") :
    parseBrowserCallback input = .ok ⟨code, state, [], []⟩ ↔
      trimBytes ((callbackValues parsed).get (ascii "code")) = code ∧
      trimBytes ((callbackValues parsed).get (ascii "state")) = state ∧
      trimBytes ((callbackValues parsed).get (ascii "error")) = [] ∧
      trimBytes ((callbackValues parsed).get (ascii "error_description")) = [] := by
  obtain ⟨hscheme, hhost, hpath⟩ := hplace
  have hhostPort : parsed.hostPort = (ascii "localhost", ascii "1455") := by
    unfold Parsed.hostPort
    rw [hhost]
    decide +kernel
  have hgood : ¬(parsed.scheme ≠ ascii "http" ∨
      ¬isLocalhost (ascii "localhost") parsed.hostPort.1 = true ∨
      parsed.hostPort.2 ≠ ascii "1455" ∨ parsed.path ≠ ascii "/auth/callback") := by
    rw [hhostPort, hscheme, hpath]
    decide +kernel
  have hlong : ¬(input = [] ∨ input.length > 16 * 1024) := by
    rintro (h | h)
    · exact hne h
    · omega
  unfold parseBrowserCallback
  simp only [htrim, hparse]
  rw [if_neg hlong, if_neg hgood]
  constructor
  · intro h
    by_cases hnoCode : trimBytes ((callbackValues parsed).get (ascii "error")) = [] ∧
        trimBytes ((callbackValues parsed).get (ascii "code")) = []
    · rw [if_pos hnoCode] at h
      cases h
    by_cases hnoState : trimBytes ((callbackValues parsed).get (ascii "error")) = [] ∧
        trimBytes ((callbackValues parsed).get (ascii "state")) = []
    · rw [if_neg hnoCode, if_pos hnoState] at h
      cases h
    rw [if_neg hnoCode, if_neg hnoState] at h
    simpa [pure, Except.pure] using h
  · rintro ⟨hgetCode, hgetState, hgetError, hgetDescription⟩
    rw [hgetCode, hgetState, hgetError, hgetDescription, if_neg fun h => hcode h.2,
      if_neg fun h => hstate h.2]
    rfl

lemma Form.text_visible (form : Form) (code state : Bytes) :
    ∀ b ∈ form.text (callbackParameters code state), 0x21 ≤ b ∧ b < 0x80 := by
  have hparameters := fun b hb => (callbackParameters_plain code state (b := b) hb).2.2
  have hfront : ∀ b ∈ browserRedirectURI ++ ascii "localhost:1455/auth/callback?#",
      0x21 ≤ b ∧ b < 0x80 := forall_mem_of_all (by decide)
  intro b hb
  cases form with
  | bare => exact hparameters b hb
  | question =>
    rcases List.mem_cons.mp hb with rfl | hb
    · exact hfront _ (by decide)
    · exact hparameters b hb
  | url scheme inFragment =>
    rcases List.mem_append.mp hb with hb | hb
    · cases scheme with
      | true => exact hfront b (List.mem_append_left _ hb)
      | false =>
        have hsub : ∀ b ∈ ascii "localhost:1455/auth/callback",
            b ∈ browserRedirectURI ++ ascii "localhost:1455/auth/callback?#" :=
          forall_mem_of_all (by decide)
        exact hfront b (hsub b hb)
    · rcases List.mem_cons.mp hb with rfl | hb
      · cases inFragment <;> exact hfront _ (by decide)
      · exact hparameters b hb

/-- Whether a form has its parameters in the fragment. -/
def Form.inFragment : Form → Prop
  | .url _ inFragment => inFragment = true
  | _ => False

/-- **Forms of a callback.** A pasted callback gives back the code and the state it was made of. In
a fragment, which is unescaped twice, it does so when nothing in them has a meaning of its own. -/
theorem browser_callback_iff (form : Form) {code state : Bytes}
    (hcode : code ≠ []) (hstate : state ≠ [])
    (htrimCode : trimBytes code = code) (htrimState : trimBytes state = state)
    (hlen : (form.text (callbackParameters code state)).length ≤ 16 * 1024) :
    parseBrowserCallback (form.text (callbackParameters code state)) = .ok ⟨code, state, [], []⟩ ↔
      (form.inFragment → Plain code ∧ Plain state) := by
  have hvisible := form.text_visible code state
  have htrim : trimBytes (form.text (callbackParameters code state)) =
      form.text (callbackParameters code state) :=
    trimBytes_eq_self (fun b hb => hvisible b (List.mem_of_head? hb))
      (fun b hb => hvisible b (List.mem_of_getLast? hb))
  have hne : form.text (callbackParameters code state) ≠ [] := by
    have hparameters := callbackParameters_ne_nil code state
    cases form <;> simp [Form.text, hparameters]
  have hparse := parse_form code state form
  have hreads := @parseBrowserCallback_iff _ code state htrim hne hlen hcode hstate
  have hquery (hnot : ¬form.inFragment) (hform : form.parsed (callbackParameters code state) =
      some ⟨ascii "http", ascii "localhost:1455", ascii "/auth/callback",
        callbackParameters code state, []⟩) :
      parseBrowserCallback (form.text (callbackParameters code state)) =
        .ok ⟨code, state, [], []⟩ := by
    refine (hreads (hparse.trans hform) ⟨rfl, rfl, rfl⟩).mpr ?_
    rw [callbackValues_query rfl, parseQuery_callbackParameters]
    exact ⟨htrimCode, htrimState, rfl, rfl⟩
  cases form with
  | bare => exact iff_of_true (hquery id rfl) False.elim
  | question => exact iff_of_true (hquery id rfl) False.elim
  | url scheme inFragment =>
    cases inFragment with
    | false => exact iff_of_true (hquery (fun h => by cases h) rfl) fun h => by cases h
    | true =>
      rw [Form.parsed, unescape_callbackParameters] at hparse
      rw [hreads hparse ⟨rfl, rfl, rfl⟩, fragment_iff hcode htrimCode htrimState rfl rfl]
      exact ⟨fun h _ => h, fun h => h rfl⟩

/-- A code with a space and a percent sign in it, in the query of a URL without its scheme. -/
theorem browser_callback_sample :
    parseBrowserCallback (Form.text (.url false false)
        (callbackParameters (ascii "4/0A %2B+x") (ascii "s;t&u"))) =
      .ok ⟨ascii "4/0A %2B+x", ascii "s;t&u", [], []⟩ :=
  (browser_callback_iff (.url false false) (by decide) (by decide) (by decide +kernel)
    (by decide +kernel) (by decide +kernel)).mpr fun h => by cases h

/-- **In a fragment.** A plus sign in a code is read as a space. -/
theorem browser_callback_in_fragment :
    parseBrowserCallback
        (Form.text (.url true true) (callbackParameters (ascii "a+b") (ascii "s"))) =
        .ok ⟨ascii "a b", ascii "s", [], []⟩ ∧
      parseBrowserCallback (Form.text (.url true false)
        (callbackParameters (ascii "a+b") (ascii "s"))) = .ok ⟨ascii "a+b", ascii "s", [], []⟩ := by
  decide +kernel

end CodexOne.Codex
