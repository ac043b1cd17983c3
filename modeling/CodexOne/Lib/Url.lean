import Mathlib.Data.List.Basic
import Mathlib.Data.List.TakeWhile

/-!
URLs and their parameters as byte strings: Go's `net/url`.
-/

namespace CodexOne

abbrev Bytes := List UInt8

namespace Url

def ascii (s : String) : Bytes := s.toList.map fun c => UInt8.ofNat c.toNat

def contains (sub : Bytes) : Bytes → Bool
  | [] => sub.isEmpty
  | c :: s => sub.isPrefixOf (c :: s) || contains sub s

/-- `strings.Cut` at a byte. What follows is empty when the byte is not there. -/
def cut (sep : UInt8) (s : Bytes) : Bytes × Bytes :=
  (s.takeWhile (· ≠ sep), (s.dropWhile (· ≠ sep)).tail)

/-- What stands before the last of a byte, and what stands after it. -/
def cutLast (sep : UInt8) (s : Bytes) : Option (Bytes × Bytes) :=
  if s.contains sep then
    some ((s.reverse.dropWhile (· ≠ sep)).tail.reverse, (s.reverse.takeWhile (· ≠ sep)).reverse)
  else none

def isDigit (b : UInt8) : Bool := 0x30 ≤ b && b ≤ 0x39
def isLetter (b : UInt8) : Bool := (0x41 ≤ b && b ≤ 0x5a) || (0x61 ≤ b && b ≤ 0x7a)

/-- `unreserved` of RFC 3986. -/
def isUnreserved (b : UInt8) : Bool := isLetter b || isDigit b || (ascii "-_.~").contains b

def isHex (b : UInt8) : Bool := isDigit b || (0x41 ≤ b && b ≤ 0x46) || (0x61 ≤ b && b ≤ 0x66)

def unhex (b : UInt8) : UInt8 :=
  if isDigit b then b - 0x30 else if b ≤ 0x46 then b - 0x37 else b - 0x57

def upperHex (n : UInt8) : UInt8 := if n < 10 then 0x30 + n else 0x37 + n

def toLower (b : UInt8) : UInt8 := if 0x41 ≤ b ∧ b ≤ 0x5a then b + 0x20 else b

/-- `%XX`. -/
def escapeByte (b : UInt8) : Bytes := [0x25, upperHex (b / 16), upperHex (b % 16)]

def queryEscape (s : Bytes) : Bytes :=
  s.flatMap fun b => if b = 0x20 then [0x2b] else if isUnreserved b then [b] else escapeByte b

/-- `unescape`, which takes a plus for a space in a query. -/
def unescape (query : Bool) : Bytes → Option Bytes
  | [] => some []
  | c :: rest =>
    if c = 0x25 then
      match rest with
      | a :: b :: rest =>
        if isHex a && isHex b then
          (unescape query rest).map fun s => (unhex a * 16 + unhex b) :: s
        else none
      | _ => none
    else (unescape query rest).map fun s => (if query && c = 0x2b then 0x20 else c) :: s

/-- `url.Values`, each value with its key. -/
abbrev Values := List (Bytes × Bytes)

/-- One parameter. One with a semicolon, or with a malformed escape, is left out. -/
def parameter (piece : Bytes) : Option (Bytes × Bytes) :=
  if piece.contains 0x3b then none
  else do
    let key ← unescape true (cut 0x3d piece).1
    let value ← unescape true (cut 0x3d piece).2
    some (key, value)

/-- `ParseQuery`: the parameters that can be read, and whether all could. -/
def parseQuery (query : Bytes) : Values × Bool :=
  let pieces := (query.splitOn 0x26).filter (· ≠ [])
  (pieces.filterMap parameter, pieces.all fun piece => (parameter piece).isSome)

namespace Values

/-- `Values.Get`. -/
def get (values : Values) (key : Bytes) : Bytes :=
  ((values.find? fun v => v.1 = key).map Prod.snd).getD []

/-- `Values.Set`. -/
def set (values : Values) (key value : Bytes) : Values :=
  (key, value) :: values.filter fun v => v.1 ≠ key

/-- `Values.Encode` of parameters in the order of their keys. -/
def encode (values : Values) : Bytes :=
  [(0x26 : UInt8)].intercalate (values.map fun v => queryEscape v.1 ++ 0x3d :: queryEscape v.2)

end Values

/-! ### URLs -/

/-- What is asked of a `url.URL`. The path is kept as it is written. -/
structure Parsed where
  scheme : Bytes
  host : Bytes
  path : Bytes
  rawQuery : Bytes
  fragment : Bytes
  deriving DecidableEq

def getScheme (s : Bytes) : Option (Bytes × Bytes) :=
  let scheme := s.takeWhile fun b => isLetter b || isDigit b || (ascii "+-.").contains b
  match s.drop scheme.length with
  | 0x3a :: rest =>
    match scheme with
    | [] => none
    | c :: _ => if isLetter c then some (scheme, rest) else some ([], s)
  | _ => some ([], s)

def validOptionalPort : Bytes → Bool
  | [] => true
  | c :: rest => c = 0x3a && rest.all isDigit

def isHostByte (b : UInt8) : Bool :=
  0x80 ≤ b || isUnreserved b || (ascii "!$&'()*+,;=:[]<>\"").contains b

/-- `unescape` of a host, in which only bytes beyond ASCII and the percent sign may be escaped. -/
def unescapeHost : Bytes → Option Bytes
  | [] => some []
  | c :: rest =>
    if c = 0x25 then
      match rest with
      | a :: b :: rest =>
        if isHex a && isHex b && (8 ≤ unhex a || a = 0x32 && b = 0x35) then
          (unescapeHost rest).map fun s => (unhex a * 16 + unhex b) :: s
        else none
      | _ => none
    else if isHostByte c then (unescapeHost rest).map (c :: ·) else none

/-- `parseHost`. A host in brackets is an IPv6 address, which nobody here asks for. -/
def parseHost (host : Bytes) : Option Bytes :=
  if host.head? = some 0x5b then none
  else
    let port := match cutLast 0x3a host with
      | some (_, port) => 0x3a :: port
      | none => []
    if validOptionalPort port then unescapeHost host else none

def isUserByte (b : UInt8) : Bool :=
  isLetter b || isDigit b || (ascii "-._:~!$&'()*+,;=%@").contains b

/-- `parseAuthority`, of which only the host is asked for. -/
def parseAuthority (authority : Bytes) : Option Bytes :=
  match cutLast 0x40 authority with
  | none => parseHost authority
  | some (user, host) =>
    if user.all isUserByte && (unescape false user).isSome then parseHost host else none

/-- The host and the path of a URL, from what is between its scheme and its query. A URL without
slashes has no path. -/
def parseHierarchy (scheme rest : Bytes) : Option (Bytes × Bytes) :=
  if (ascii "/").isPrefixOf rest = false ∧ scheme ≠ [] then some ([], [])
  else if (ascii "/").isPrefixOf rest = false ∧ (rest.takeWhile (· ≠ 0x2f)).contains 0x3a then none
  else if (scheme ≠ [] ∨ (ascii "///").isPrefixOf rest = false) ∧
      (ascii "//").isPrefixOf rest then do
    let path := (rest.drop 2).dropWhile (· ≠ 0x2f)
    let host ← parseAuthority ((rest.drop 2).takeWhile (· ≠ 0x2f))
    let _ ← unescape false path
    some (host, path)
  else do
    let _ ← unescape false rest
    some ([], rest)

/-- `parse`, without the fragment. -/
def parseBefore (s : Bytes) : Option Parsed :=
  if s.any fun b => b < 0x20 || b = 0x7f then none
  else do
    let (scheme, rest) ← getScheme s
    let (rest, rawQuery) :=
      if rest.getLast? = some 0x3f ∧ rest.count 0x3f = 1 then (rest.dropLast, []) else cut 0x3f rest
    let (host, path) ← parseHierarchy scheme rest
    some ⟨scheme.map toLower, host, path, rawQuery, []⟩

/-- `url.Parse`. -/
def parse (s : Bytes) : Option Parsed := do
  let (u, frag) := cut 0x23 s
  let url ← parseBefore u
  let fragment ← unescape false frag
  some { url with fragment }

namespace Parsed

/-- `Hostname` and `Port`. -/
def hostPort (u : Parsed) : Bytes × Bytes :=
  match cutLast 0x3a u.host with
  | some (host, port) => if port.all isDigit then (host, port) else (u.host, [])
  | none => (u.host, [])

end Parsed

lemma forall_byte {P : UInt8 → Prop} (h : ∀ n < 256, P (UInt8.ofNat n)) (b : UInt8) : P b := by
  have hb := h b.toNat b.toNat_lt_size
  rwa [UInt8.ofNat_toNat] at hb

lemma forall_mem_of_all {P : UInt8 → Prop} [DecidablePred P] {s : Bytes}
    (h : (s.all fun b => decide (P b)) = true) : ∀ b ∈ s, P b := by simpa using h

def isEscaped (b : UInt8) : Bool := isUnreserved b || b = 0x2b || b = 0x25

set_option maxRecDepth 8000 in
lemma isEscaped_upperHex (b : UInt8) :
    isEscaped (upperHex (b / 16)) = true ∧ isEscaped (upperHex (b % 16)) = true :=
  forall_byte (P := fun b => isEscaped (upperHex (b / 16)) = true ∧
    isEscaped (upperHex (b % 16)) = true) (by decide) b

set_option maxRecDepth 8000 in
lemma isHex_upperHex (b : UInt8) :
    (isHex (upperHex (b / 16)) && isHex (upperHex (b % 16))) = true :=
  forall_byte (P := fun b => (isHex (upperHex (b / 16)) && isHex (upperHex (b % 16))) = true)
    (by decide) b

set_option maxRecDepth 8000 in
lemma unhex_upperHex (b : UInt8) : unhex (upperHex (b / 16)) * 16 + unhex (upperHex (b % 16)) = b :=
  forall_byte (P := fun b => unhex (upperHex (b / 16)) * 16 + unhex (upperHex (b % 16)) = b)
    (by decide) b

set_option maxRecDepth 8000 in
lemma isEscaped_plain {b : UInt8} (h : isEscaped b = true) :
    (ascii "&=#?/:; ").contains b = false ∧ (b < 0x20 || b = 0x7f : Bool) = false := by
  revert h
  exact forall_byte (P := fun b => isEscaped b = true → (ascii "&=#?/:; ").contains b = false ∧
    (b < 0x20 || b = 0x7f : Bool) = false) (by decide) b

lemma isUnreserved_ne {b : UInt8} (h : isUnreserved b = true) : b ≠ 0x25 ∧ b ≠ 0x2b := by
  constructor <;> rintro rfl <;> exact absurd h (by decide)

lemma isEscaped_queryEscape (s : Bytes) : ∀ b ∈ queryEscape s, isEscaped b = true := by
  intro b hb
  obtain ⟨c, -, hc⟩ := List.mem_flatMap.mp hb
  split_ifs at hc with hspace hplain
  · obtain rfl := List.mem_singleton.mp hc
    decide
  · obtain rfl := List.mem_singleton.mp hc
    simp [isEscaped, hplain]
  · simp only [escapeByte, List.mem_cons, List.not_mem_nil, or_false] at hc
    rcases hc with rfl | rfl | rfl
    · decide
    · exact (isEscaped_upperHex c).1
    · exact (isEscaped_upperHex c).2

/-! ### Round trips -/

/-- What escaping leaves of a byte, when the result is unescaped as part of a query or not. -/
def plused (query : Bool) (b : UInt8) : UInt8 := if b = 0x20 ∧ query = false then 0x2b else b

lemma unescape_cons {query : Bool} {c : UInt8} (h : c ≠ 0x25) (rest : Bytes) :
    unescape query (c :: rest) =
      (unescape query rest).map fun s => (if query && c = 0x2b then 0x20 else c) :: s := by
  rw [unescape.eq_def]
  dsimp only
  rw [if_neg h]

lemma unescape_escapeByte (query : Bool) (b : UInt8) (rest : Bytes) :
    unescape query (escapeByte b ++ rest) = (unescape query rest).map (b :: ·) := by
  unfold escapeByte
  rw [List.cons_append, List.cons_append, List.cons_append, List.nil_append, unescape, if_pos rfl,
    if_pos (isHex_upperHex b), unhex_upperHex]

/-- **Unescaping escaped text.** -/
theorem unescape_queryEscape (query : Bool) (s : Bytes) :
    unescape query (queryEscape s) = some (s.map (plused query)) := by
  induction s with
  | nil => rfl
  | cons b s ih =>
    rw [queryEscape, List.flatMap_cons]
    change unescape query (_ ++ queryEscape s) = _
    by_cases hspace : b = 0x20
    · subst hspace
      rw [if_pos rfl, List.singleton_append, unescape_cons (by decide), ih]
      cases query <;> rfl
    · have hb : plused query b = b := if_neg fun h => hspace h.1
      rw [if_neg hspace]
      by_cases hplain : isUnreserved b = true
      · rw [if_pos hplain, List.singleton_append, unescape_cons (isUnreserved_ne hplain).1, ih]
        simp [hb, (isUnreserved_ne hplain).2]
      · rw [if_neg hplain, unescape_escapeByte, ih]
        simp [hb]

lemma map_plused (s : Bytes) : s.map (plused true) = s := by
  have hid : plused true = id := by
    funext b
    simp [plused]
  rw [hid, List.map_id]

lemma unescape_append {query : Bool} : {s t : Bytes} → unescape query s = some t →
    ∀ rest, unescape query (s ++ rest) = (unescape query rest).map (t ++ ·)
  | [], t, h, rest => by
    cases h
    simp
  | c :: s, t, h, rest => by
    by_cases hc : c = 0x25
    · -- an escape, which ends before the rest begins
      subst hc
      match s, h with
      | [], h => cases h
      | [_], h => cases h
      | a :: b :: s, h =>
        rw [unescape, if_pos rfl] at h
        rw [List.cons_append, List.cons_append, List.cons_append, unescape, if_pos rfl]
        by_cases hhex : (isHex a && isHex b) = true
        · rw [if_pos hhex] at h ⊢
          obtain ⟨t', ht', rfl⟩ := Option.map_eq_some_iff.mp h
          rw [unescape_append ht' rest, Option.map_map]
          rfl
        · rw [if_neg hhex] at h
          cases h
    · rw [unescape_cons hc] at h
      obtain ⟨t', ht', rfl⟩ := Option.map_eq_some_iff.mp h
      rw [List.cons_append, unescape_cons hc, unescape_append ht' rest, Option.map_map]
      rfl

lemma unescape_length {query : Bool} : {s t : Bytes} → unescape query s = some t →
    t.length ≤ s.length ∧ (t.length = s.length → ∀ b ∈ s, b ≠ 0x25)
  | [], t, h => by
    cases h
    simp
  | c :: rest, t, h => by
    by_cases hc : c = 0x25
    · -- an escape writes one byte for three
      rw [unescape.eq_def] at h
      dsimp only at h
      rw [if_pos hc] at h
      split at h
      · rename_i a b rest'
        split_ifs at h
        obtain ⟨t', ht', rfl⟩ := Option.map_eq_some_iff.mp h
        have ih := (unescape_length ht').1
        simp only [List.length_cons]
        exact ⟨by omega, fun heq => by omega⟩
      · cases h
    · rw [unescape_cons hc] at h
      obtain ⟨t', ht', rfl⟩ := Option.map_eq_some_iff.mp h
      obtain ⟨hle, heq⟩ := unescape_length ht'
      simp only [List.length_cons]
      refine ⟨by omega, fun hlen b hb => ?_⟩
      rcases List.mem_cons.mp hb with rfl | hb
      · exact hc
      · exact heq (by omega) b hb

lemma unescape_plain {query : Bool} {s : Bytes} (h : ∀ b ∈ s, b ≠ 0x25) :
    unescape query s = some (s.map fun b => if query && b = 0x2b then 0x20 else b) := by
  induction s with
  | nil => rfl
  | cons b s ih =>
    rw [unescape_cons (h b (List.mem_cons_self ..)), ih fun c hc => h c (List.mem_cons_of_mem _ hc)]
    rfl

lemma cut_append {sep : UInt8} {a : Bytes} (h : sep ∉ a) (b : Bytes) :
    cut sep (a ++ sep :: b) = (a, b) := by
  have hall : ∀ x ∈ a, decide (x ≠ sep) = true := fun x hx => by
    simpa using fun hxs : x = sep => h (hxs ▸ hx)
  unfold cut
  rw [List.takeWhile_append_of_pos hall, List.dropWhile_append_of_pos hall]
  simp

lemma cut_of_not_mem {sep : UInt8} {a : Bytes} (h : sep ∉ a) : cut sep a = (a, []) := by
  have hall : ∀ x ∈ a, decide (x ≠ sep) = true := fun x hx => by
    simpa using fun hxs : x = sep => h (hxs ▸ hx)
  unfold cut
  rw [List.takeWhile_eq_self_iff.mpr hall, List.dropWhile_eq_nil_iff.mpr hall]
  rfl

lemma parseQuery_nil : parseQuery [] = ([], true) := rfl

lemma parseQuery_append (a b : Bytes) :
    parseQuery (a ++ 0x26 :: b) =
      ((parseQuery a).1 ++ (parseQuery b).1, (parseQuery a).2 && (parseQuery b).2) := by
  unfold parseQuery
  rw [List.splitOn_append_cons_self]
  simp

lemma parseQuery_single {piece : Bytes} (h : 0x26 ∉ piece) (hne : piece ≠ []) :
    parseQuery piece = ((parameter piece).toList, (parameter piece).isSome) := by
  unfold parseQuery
  rw [List.splitOn_eq_singleton h]
  cases hp : parameter piece <;> simp [hne, hp]

lemma parameter_eq {key value : Bytes}
    (hkey : ∀ b ∈ key, b ≠ 0x25 ∧ b ≠ 0x2b ∧ b ≠ 0x3d ∧ b ≠ 0x3b) :
    parameter (key ++ 0x3d :: value) =
      if 0x3b ∈ value then none else (unescape true value).map fun v => (key, v) := by
  have hcut : cut 0x3d (key ++ 0x3d :: value) = (key, value) :=
    cut_append (fun h => (hkey _ h).2.2.1 rfl) value
  have hunescape : unescape true key = some key := by
    rw [unescape_plain fun b hb => (hkey b hb).1]
    refine congrArg some ((List.map_congr_left fun b hb => ?_).trans (List.map_id key))
    simp [(hkey b hb).2.1]
  have hsemi : (key ++ 0x3d :: value).contains 0x3b = decide (0x3b ∈ value) := by
    have hnot : (0x3b : UInt8) ∉ key := fun h => (hkey _ h).2.2.2 rfl
    simp [hnot]
  unfold parameter
  rw [hsemi, hcut, hunescape]
  by_cases hin : (0x3b : UInt8) ∈ value
  · simp [hin]
  · simp only [hin, decide_false, Bool.false_eq_true, if_false]
    cases unescape true value <;> rfl

namespace Values

lemma get_cons (key value other : Bytes) (values : Values) :
    get ((key, value) :: values) other = if key = other then value else get values other := by
  unfold get
  by_cases h : key = other
  · rw [if_pos h, List.find?_cons_of_pos (by simpa using h)]
    rfl
  · rw [if_neg h, List.find?_cons_of_neg (by simpa using h)]

lemma get_filter {key other : Bytes} (h : other ≠ key) (values : Values) :
    get (values.filter fun v => v.1 ≠ key) other = get values other := by
  induction values with
  | nil => rfl
  | cons v values ih =>
    obtain ⟨k, value⟩ := v
    rw [List.filter_cons, get_cons]
    by_cases hk : k = key
    · rw [if_neg (by simpa using hk), ih, if_neg (fun hko => h (hko.symm.trans hk))]
    · rw [if_pos (by simpa using hk), get_cons, ih]

lemma get_set (values : Values) (key value other : Bytes) :
    get (set values key value) other = if key = other then value else get values other := by
  unfold set
  rw [get_cons]
  by_cases h : key = other
  · rw [if_pos h, if_pos h]
  · rw [if_neg h, if_neg h, get_filter (Ne.symm h)]

end Values

lemma contains_of_not_mem {sub : Bytes} {c : UInt8} (s : Bytes) (h : c ∉ s) :
    contains (c :: sub) s = false := by
  induction s with
  | nil => rfl
  | cons b s ih =>
    have hne : c ≠ b := fun hcb => h (hcb ▸ List.mem_cons_self ..)
    rw [contains, ih fun hs => h (List.mem_cons_of_mem _ hs), Bool.or_false]
    simp [List.isPrefixOf, hne]

lemma contains_of_mem {c : UInt8} {s : Bytes} (h : c ∈ s) : contains [c] s = true := by
  induction s with
  | nil => cases h
  | cons b s ih =>
    rw [contains, Bool.or_eq_true]
    rcases List.mem_cons.mp h with rfl | h
    · left
      simp [List.isPrefixOf]
    · exact .inr (ih h)

lemma contains_append_left {sub s : Bytes} (h : contains sub s = true) (hne : sub ≠ [])
    (t : Bytes) :
    contains sub (s ++ t) = true := by
  induction s with
  | nil =>
    rw [contains, List.isEmpty_iff] at h
    exact absurd h hne
  | cons b s ih =>
    rw [contains, Bool.or_eq_true] at h
    rw [List.cons_append, contains, Bool.or_eq_true]
    refine h.imp (fun hpre => ?_) ih
    rw [List.isPrefixOf_iff_prefix] at hpre ⊢
    exact hpre.trans (List.prefix_append (b :: s) t)

lemma contains_append_of_not_mem {sub s : Bytes} {c : UInt8} (h : c ∉ s) (t : Bytes) :
    contains (c :: sub) (s ++ t) = contains (c :: sub) t := by
  induction s with
  | nil => rfl
  | cons b s ih =>
    have hne : c ≠ b := fun hcb => h (hcb ▸ List.mem_cons_self ..)
    rw [List.cons_append, contains, ih fun hs => h (List.mem_cons_of_mem _ hs)]
    simp [List.isPrefixOf, hne]

lemma parseQuery_plain {key text : Bytes}
    (hkey : ∀ b ∈ key, b ≠ 0x25 ∧ b ≠ 0x2b ∧ b ≠ 0x3d ∧ b ≠ 0x3b ∧ b ≠ 0x26)
    (htext : ∀ b ∈ text, b ≠ 0x26 ∧ b ≠ 0x3b) {value : Bytes}
    (hvalue : unescape true text = some value) :
    parseQuery (key ++ 0x3d :: text) = ([(key, value)], true) := by
  have hpiece : (0x26 : UInt8) ∉ key ++ 0x3d :: text := by
    rw [List.mem_append, List.mem_cons]
    rintro (h | h | h)
    · exact (hkey _ h).2.2.2.2 rfl
    · cases h
    · exact (htext _ h).1 rfl
  have hsemi : (0x3b : UInt8) ∉ text := fun h => (htext _ h).2 rfl
  rw [parseQuery_single hpiece (by simp), parameter_eq fun b hb => ⟨(hkey b hb).1, (hkey b hb).2.1,
    (hkey b hb).2.2.1, (hkey b hb).2.2.2.1⟩, if_neg hsemi, hvalue]
  rfl

/-- What a value is at most when all parameters can be read: it is not longer than its text, and
as long only where nothing in the text has a meaning of its own. -/
lemma parseQuery_first {key text : Bytes}
    (hkey : ∀ b ∈ key, b ≠ 0x25 ∧ b ≠ 0x2b ∧ b ≠ 0x3d ∧ b ≠ 0x3b ∧ b ≠ 0x26)
    (hok : (parseQuery (key ++ 0x3d :: text)).2 = true) :
    ∃ v rest, (parseQuery (key ++ 0x3d :: text)).1 = (key, v) :: rest ∧ v.length ≤ text.length ∧
      (v.length = text.length → rest = [] ∧ (∀ b ∈ text, b ≠ 0x26 ∧ b ≠ 0x3b ∧ b ≠ 0x25) ∧
        v = text.map fun b => if b = 0x2b then 0x20 else b) := by
  have hkey' : ∀ b ∈ key, b ≠ 0x25 ∧ b ≠ 0x2b ∧ b ≠ 0x3d ∧ b ≠ 0x3b := fun b hb =>
    ⟨(hkey b hb).1, (hkey b hb).2.1, (hkey b hb).2.2.1, (hkey b hb).2.2.2.1⟩
  -- a parameter that ends at an ampersand, or with the text
  have hone {value : Bytes} (hamp : (0x26 : UInt8) ∉ value)
      (hok : (parseQuery (key ++ 0x3d :: value)).2 = true) :
      ∃ v, (parseQuery (key ++ 0x3d :: value)).1 = [(key, v)] ∧ (0x3b : UInt8) ∉ value ∧
        unescape true value = some v := by
    have hpiece : (0x26 : UInt8) ∉ key ++ 0x3d :: value := by
      rw [List.mem_append, List.mem_cons]
      rintro (h | h | h)
      · exact (hkey _ h).2.2.2.2 rfl
      · cases h
      · exact hamp h
    rw [parseQuery_single hpiece (by simp), parameter_eq hkey'] at hok ⊢
    by_cases hsemi : (0x3b : UInt8) ∈ value
    · rw [if_pos hsemi] at hok
      cases hok
    · rw [if_neg hsemi] at hok ⊢
      cases hv : unescape true value with
      | none => rw [hv] at hok; cases hok
      | some v => exact ⟨v, rfl, hsemi, rfl⟩
  by_cases hamp : (0x26 : UInt8) ∈ text
  · obtain ⟨value, others, rfl, hnot⟩ := List.eq_append_cons_of_mem hamp
    have hjoin : key ++ 0x3d :: (value ++ 0x26 :: others) =
        (key ++ 0x3d :: value) ++ 0x26 :: others := by simp
    rw [hjoin, parseQuery_append] at hok ⊢
    obtain ⟨v, hv, -, hun⟩ := hone hnot (Bool.and_eq_true_iff.mp hok).1
    have hle := (unescape_length hun).1
    refine ⟨v, (parseQuery others).1, by rw [hv]; rfl, ?_, fun hlen => ?_⟩
    · simp only [List.length_append, List.length_cons]
      omega
    · simp only [List.length_append, List.length_cons] at hlen
      omega
  · obtain ⟨v, hv, hsemi, hun⟩ := hone hamp hok
    obtain ⟨hle, heq⟩ := unescape_length hun
    refine ⟨v, [], hv, hle, fun hlen => ⟨rfl, fun b hb => ⟨?_, ?_, heq hlen b hb⟩, ?_⟩⟩
    · rintro rfl
      exact hamp hb
    · rintro rfl
      exact hsemi hb
    · rw [unescape_plain (heq hlen)] at hun
      simpa using hun.symm

lemma getScheme_append {c : UInt8} {scheme : Bytes} (hletter : isLetter c = true)
    (h : ∀ b ∈ c :: scheme, (isLetter b || isDigit b || (ascii "+-.").contains b) = true)
    (rest : Bytes) : getScheme (c :: scheme ++ 0x3a :: rest) = some (c :: scheme, rest) := by
  have hcolon : ¬(isLetter 0x3a || isDigit 0x3a || (ascii "+-.").contains 0x3a) = true := by decide
  unfold getScheme
  dsimp only
  rw [List.takeWhile_append_of_pos h, List.takeWhile_cons]
  rw [if_neg hcolon, List.append_nil, List.drop_left]
  exact if_pos hletter

end Url

end CodexOne
