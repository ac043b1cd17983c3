import CodexOne.Lib.GoStrings
import CodexOne.Lib.JsonString
import CodexOne.Lib.Lines

/-!
The two decoders of server-sent events.

Most consumers take the stream line by line and look at each line alone. `readSSEData`, which the
HTTP fallback of a WebSocket turn uses, gathers the data lines of an event.
-/

namespace CodexOne.SSE

open GoStrings Lines

def dataPrefix : Text := "data:".toList

/-- `ssePayload`, with no payload as the empty text. -/
def ssePayload (line : Text) : Text :=
  let line := trimRunes line
  if dataPrefix.isPrefixOf line then trimRunes (line.drop 5) else []

/-- The lines as they are read, the last of which may be empty or lack its end. -/
def chunks (stream : Text) : List Text := (readLines stream).1 ++ [(readLines stream).2]

/-- The payloads of the consumers that take each line alone. -/
def linePayloads (stream : Text) : List Text :=
  ((chunks stream).map ssePayload).filter (· ≠ [])

def isLineEnd (c : Char) : Bool := c = '\r' || c = '\n'

/-- What a line does to the data gathered so far. -/
inductive Fed where
  | more (data : Text)
  | done
  | tooLarge

def feed (maxBytes : ℕ) (data line : Text) : Fed :=
  let line := line.rdropWhile isLineEnd
  if line = [] then (if data ≠ [] then .done else .more data)
  else if dataPrefix.isPrefixOf line then
    let data := (if data ≠ [] then data ++ ['\n'] else data) ++ trimRunes (line.drop 5)
    if maxBytes < data.byteLen then .tooLarge else .more data
  else .more data

inductive ReadError where
  | tooLarge (maxBytes : ℕ)
  | eof

/-- One call of `readSSEData`, on the lines that are left and what follows them. -/
def readSSEData (maxBytes : ℕ) : (data : Text) → List Text → (rest : Text) →
    Except ReadError Text × (List Text × Text)
  | data, line :: lines, rest =>
    match feed maxBytes data line with
    | .more data => readSSEData maxBytes data lines rest
    | .done => (.ok data, (lines, rest))
    | .tooLarge => (.error (.tooLarge maxBytes), (lines, rest))
  | data, [], rest =>
    match if rest = [] then .more data else feed maxBytes data rest with
    | .more data => (if data ≠ [] then .ok data else .error .eof, ([], []))
    | .done => (.ok data, ([], []))
    | .tooLarge => (.error (.tooLarge maxBytes), ([], []))

/-- What successive calls return before the first error. -/
def readAll (maxBytes : ℕ) : ℕ → List Text × Text → List Text
  | 0, _ => []
  | n + 1, (lines, rest) =>
    match readSSEData maxBytes [] lines rest with
    | (.ok data, left) => data :: readAll maxBytes n left
    | (.error _, _) => []

/-- The payloads that `readSSEData` returns; a call takes a line or what follows the last. -/
def eventPayloads (maxBytes : ℕ) (stream : Text) : List Text :=
  readAll maxBytes ((readLines stream).1.length + 2) (readLines stream)

/-- A line of a stream: data, another field or a comment, or the blank line after an event. -/
inductive Line where
  | data (content : Text)
  | field (text : Text)
  | blank

namespace Line

def text : Line → Text
  | data content => dataPrefix ++ content
  | field text => text
  | blank => []

/-- The text stays on its line, and a line without data is an event, an id or a comment. -/
def Valid (l : Line) : Prop :=
  (∀ c ∈ l.text, isLineEnd c = false) ∧ match l with
    | field text => "event:".toList <+: text ∨ "id:".toList <+: text ∨ [':'] <+: text
    | _ => True

/-- The line with its end, CRLF or LF. -/
def render (l : Line) (crlf : Bool) : Text := l.text ++ (if crlf then ['\r', '\n'] else ['\n'])

end Line

/-- **A well-formed stream**: lines with their ends, and the line at which the input ends. -/
structure Stream where
  lines : List (Line × Bool)
  tail : Text
  valid : ∀ l ∈ lines, l.1.Valid
  cut : '\n' ∉ tail ∧ ∃ l crlf, l.Valid ∧ tail <+: Line.render l crlf

def groups (current : List Text) : List Line → (tail : List Text) → List (List Text)
  | .data content :: lines, tail => groups (current ++ [trimRunes content]) lines tail
  | .field _ :: lines, tail => groups current lines tail
  | .blank :: lines, tail => current :: groups [] lines tail
  | [], tail => [current ++ tail]

/-- The data of an event: the contents that `readSSEData` joins. -/
def joined (contents : List Text) : Text :=
  contents.foldl (fun data part => (if data ≠ [] then data ++ ['\n'] else data) ++ part) []

namespace Stream

def text (s : Stream) : Text := (s.lines.map fun l => l.1.render l.2).flatten ++ s.tail

/-- The content of a line that has data, without its end. -/
def tailContents (s : Stream) : List Text :=
  if dataPrefix.isPrefixOf s.tail then [trimRunes (s.tail.drop 5)] else []

def events (s : Stream) : List (List Text) := groups [] (s.lines.map Prod.fst) s.tailContents

end Stream

/-! ### What a line gives -/

/-- Trimming keeps the start of a text that does not begin with white space. -/
lemma trimRunes_of_head {t : Text} (h : ∀ c ∈ t.head?, isSpace c = false) :
    trimRunes t = t.rdropWhile isSpace := by
  rw [trimRunes, dropWhile_eq_self h, List.rdropWhile]

lemma trimRunes_concat {c : Char} (hc : isSpace c = true) (t : Text) :
    trimRunes (t ++ [c]) = trimRunes t := by
  rw [trimRunes, List.dropWhile_append]
  split
  · rename_i h
    rw [trimRunes, List.isEmpty_iff.mp h]
    simp [hc]
  · rw [trimRunes, List.reverse_append, List.reverse_singleton, List.singleton_append,
      List.dropWhile_cons_of_pos hc]

lemma trimRunes_rdropWhile {p : Char → Bool} (hp : ∀ c, p c = true → isSpace c = true)
    (t : Text) : trimRunes (t.rdropWhile p) = trimRunes t := by
  induction t using List.reverseRecOn with
  | nil => rfl
  | append_singleton t c ih =>
    by_cases hc : p c = true
    · rw [List.rdropWhile_concat_pos _ _ _ hc, ih, trimRunes_concat (hp c hc)]
    · rw [List.rdropWhile_concat_neg _ _ _ hc]

lemma isSpace_of_isLineEnd {c : Char} (h : isLineEnd c = true) : isSpace c = true := by
  simp only [isLineEnd, Bool.or_eq_true, decide_eq_true_eq] at h
  rcases h with rfl | rfl <;> decide

/-- The data of a line that is no blank line, as both decoders read it. -/
def contents (t : Text) : List Text :=
  if dataPrefix.isPrefixOf t then [trimRunes (t.drop 5)] else []

lemma contents_data (content : Text) : contents (dataPrefix ++ content) = [trimRunes content] := by
  rw [contents, if_pos (by simp)]
  rfl

lemma contents_of_other {t : Text} (h : ¬ dataPrefix <+: t) : contents t = [] := by
  rw [contents, if_neg (by simpa using h)]

lemma dataPrefix_last : ∀ c ∈ dataPrefix.getLast?, isSpace c = false := by
  intro c hc
  have hlast : c = ':' := (Option.some_inj.mp hc).symm
  rw [hlast]
  decide

lemma contents_rdropWhile {p : Char → Bool} (hp : ∀ c, p c = true → isSpace c = true) (t : Text) :
    contents (t.rdropWhile p) = contents t := by
  by_cases h : dataPrefix <+: t
  · obtain ⟨content, rfl⟩ := h
    have hkeep : ∀ c ∈ dataPrefix.getLast?, p c = false := by
      intro c hc
      by_contra hne
      have := dataPrefix_last c hc
      rw [hp c (by simpa using hne)] at this
      cases this
    rw [rdropWhile_append_keep hkeep, contents_data, contents_data, trimRunes_rdropWhile hp]
  · rw [contents_of_other h,
      contents_of_other fun hc => h (hc.trans (List.rdropWhile_prefix p t))]

/-- A chunk that `render` gives, whole or cut: nothing but a line end, or a line that does not
begin with white space. -/
def Plain (t : Text) : Prop :=
  (∀ c ∈ t, isLineEnd c = true) ∨ ∀ c ∈ t.head?, isSpace c = false

lemma Plain.cut {t u : Text} (h : Plain t) (hu : u <+: t) : Plain u := by
  rcases h with h | h
  · exact .inl fun c hc => h c (hu.subset hc)
  · refine .inr fun c hc => h c ?_
    obtain ⟨v, rfl⟩ := hu
    rw [List.head?_append, Option.mem_def.mp hc]
    rfl

lemma contents_blank {t : Text} (h : ∀ c ∈ t, isLineEnd c = true) : contents t = [] := by
  refine contents_of_other fun hp => ?_
  have := h 'd' (hp.subset (by decide))
  revert this
  decide

lemma ssePayload_eq {t : Text} (h : Plain t) : ssePayload t = (contents t).headD [] := by
  have hs : ssePayload t = (contents (trimRunes t)).headD [] := by
    rw [ssePayload, contents]
    split
    · rfl
    · rfl
  rw [hs]
  rcases h with h | h
  · have hnil : trimRunes t = [] := by
      rw [← trimRunes_rdropWhile (fun c => isSpace_of_isLineEnd) t,
        List.rdropWhile_eq_nil_iff.mpr h]
      rfl
    rw [hnil, contents_blank h]
    rfl
  · rw [trimRunes_of_head h, contents_rdropWhile fun _ hc => hc]

/-- What one data line makes of the data so far. -/
def addPart (data part : Text) : Text := (if data ≠ [] then data ++ ['\n'] else data) ++ part

lemma joined_concat (g : List Text) (p : Text) : joined (g ++ [p]) = addPart (joined g) p := by
  rw [joined, List.foldl_append]
  rfl

lemma byteLen_addPart (data part : Text) : data.byteLen ≤ (addPart data part).byteLen := by
  rw [addPart, Text.byteLen_append]
  split
  · rw [Text.byteLen_append]
    omega
  · omega

lemma byteLen_joined_append (g more : List Text) :
    (joined g).byteLen ≤ (joined (g ++ more)).byteLen := by
  induction more using List.reverseRecOn with
  | nil => rw [List.append_nil]
  | append_singleton more p ih =>
    rw [← List.append_assoc, joined_concat]
    exact ih.trans (byteLen_addPart _ _)

lemma length_le_addPart (data part : Text) :
    data.length ≤ (addPart data part).length ∧ part.length ≤ (addPart data part).length := by
  rw [addPart, List.length_append]
  split
  · rw [List.length_append, List.length_singleton]
    omega
  · omega

lemma length_le_joined {g : List Text} {p : Text} (h : p ∈ g) : p.length ≤ (joined g).length := by
  induction g using List.reverseRecOn with
  | nil => cases h
  | append_singleton g q ih =>
    rw [joined_concat]
    rcases List.mem_append.mp h with h | h
    · exact (ih h).trans (length_le_addPart _ _).1
    · rw [List.mem_singleton.mp h]
      exact (length_le_addPart _ _).2

lemma joined_eq_nil {g : List Text} : joined g = [] ↔ ∀ p ∈ g, p = [] := by
  constructor
  · intro h p hp
    have := length_le_joined hp
    rw [h] at this
    exact List.length_eq_zero_iff.mp (Nat.le_zero.mp this)
  · intro h
    induction g using List.reverseRecOn with
    | nil => rfl
    | append_singleton g q ih =>
      rw [joined_concat, ih fun p hp => h p (List.mem_append_left _ hp),
        h q (List.mem_append_right _ (List.mem_singleton_self q))]
      rfl

lemma length_joined_le (g : List Text) :
    ([joined g].filter (· ≠ [])).length ≤ (g.filter (· ≠ [])).length := by
  by_cases h : joined g = []
  · simp [h]
  · have : ∃ p ∈ g, p ≠ [] := by
      by_contra hn
      push Not at hn
      exact h (joined_eq_nil.mpr hn)
    obtain ⟨p, hp, hne⟩ := this
    have hm : p ∈ g.filter (· ≠ []) := List.mem_filter.mpr ⟨hp, by simpa using hne⟩
    exact (List.length_filter_le _ _).trans (List.length_pos_of_mem hm)

/-- The lines of an event and its joined data are the same payloads when only the last line has
content. -/
lemma filter_eq_joined_iff (g : List Text) :
    g.filter (· ≠ []) = [joined g].filter (· ≠ []) ↔ ∀ p ∈ g.dropLast, p = [] := by
  induction g using List.reverseRecOn with
  | nil => simp [joined]
  | append_singleton g q _ =>
    rw [List.dropLast_concat, joined_concat, ← joined_eq_nil]
    constructor
    · intro h
      by_contra hne
      have hadd : addPart (joined g) q = joined g ++ '\n' :: q := by simp [addPart, hne]
      rw [hadd, List.filter_append] at h
      -- some line of the event before the last has content
      obtain ⟨p, hp, hpne⟩ : ∃ p ∈ g, p ≠ [] := by
        by_contra hn
        push Not at hn
        exact hne (joined_eq_nil.mpr hn)
      have hm : p ∈ g.filter (· ≠ []) ++ [q].filter (· ≠ []) :=
        List.mem_append_left _ (List.mem_filter.mpr ⟨hp, by simpa using hpne⟩)
      rw [h] at hm
      have hlen := length_le_joined hp
      rw [List.mem_singleton.mp (List.mem_of_mem_filter hm), List.length_append,
        List.length_cons] at hlen
      omega
    · intro h
      have hg : g.filter (· ≠ []) = [] := by
        rw [List.filter_eq_nil_iff]
        intro p hp
        simp [joined_eq_nil.mp h p hp]
      rw [List.filter_append, hg, h, List.nil_append]
      rfl

namespace Line

/-- The contents a line adds to its event. -/
def parts : Line → List Text
  | data content => [trimRunes content]
  | _ => []

lemma render_eq (l : Line) (crlf : Bool) :
    ∃ e, l.render crlf = l.text ++ e ∧ (∀ c ∈ e, isLineEnd c = true) := by
  refine ⟨_, rfl, List.all_eq_true.mp ?_⟩
  cases crlf <;> decide

lemma contents_text {l : Line} (h : l.Valid) : contents l.text = l.parts := by
  cases l with
  | data content => exact contents_data content
  | blank => rfl
  | field t =>
    refine contents_of_other fun hp => ?_
    -- the first character tells the fields apart
    obtain ⟨u, rfl⟩ := hp
    rcases h.2 with h | h | h <;> simp [dataPrefix] at h

lemma rdropWhile_render {l : Line} (h : l.Valid) (crlf : Bool) :
    (l.render crlf).rdropWhile isLineEnd = l.text := by
  obtain ⟨e, he, hend⟩ := l.render_eq crlf
  rw [he, rdropWhile_append, if_pos (List.all_eq_true.mpr hend), List.rdropWhile_eq_self_iff]
  intro hne
  rw [h.1 _ (List.getLast_mem hne)]
  decide

lemma contents_render {l : Line} (h : l.Valid) (crlf : Bool) :
    contents (l.render crlf) = l.parts := by
  rw [← contents_rdropWhile (fun c => isSpace_of_isLineEnd), rdropWhile_render h,
    contents_text h]

lemma plain_render {l : Line} (h : l.Valid) (crlf : Bool) : Plain (l.render crlf) := by
  -- a line with a visible first character survives trimming in front
  have head : ∀ {c : Char} {t : Text}, isSpace c = false → [c] <+: t →
      Plain (t ++ if crlf then ['\r', '\n'] else ['\n']) := by
    rintro c t hc ⟨u, rfl⟩
    exact .inr fun d hd => by
      rw [List.append_assoc, List.singleton_append, List.head?_cons, Option.mem_some_iff] at hd
      exact hd ▸ hc
  cases l with
  | blank =>
    refine .inl (List.all_eq_true.mp ?_)
    cases crlf <;> decide
  | data content => exact head (c := 'd') (by decide) ⟨"ata:".toList ++ content, rfl⟩
  | field t =>
    rcases h.2 with h | h | h
    · exact head (c := 'e') (by decide) (List.IsPrefix.trans ⟨"vent:".toList, rfl⟩ h)
    · exact head (c := 'i') (by decide) (List.IsPrefix.trans ⟨"d:".toList, rfl⟩ h)
    · exact head (c := ':') (by decide) h

end Line

namespace Stream

lemma readLines_lines {ls : List (Line × Bool)} (hv : ∀ l ∈ ls, l.1.Valid) {tail : Text}
    (ht : '\n' ∉ tail) :
    readLines ((ls.map fun l => l.1.render l.2).flatten ++ tail) =
      (ls.map fun l => l.1.render l.2, tail) := by
  induction ls with
  | nil => exact readLines_rest ht
  | cons l ls ih =>
    obtain ⟨l, crlf⟩ := l
    have hrender : l.render crlf = (l.text ++ if crlf then ['\r'] else []) ++ ['\n'] := by
      cases crlf <;> simp [Line.render]
    have hno : '\n' ∉ l.text ++ if crlf then ['\r'] else [] := by
      rw [List.mem_append, not_or]
      constructor
      · intro hm
        have := (hv (l, crlf) (List.mem_cons_self ..)).1 _ hm
        cases this
      · cases crlf <;> decide
    rw [List.map_cons, List.flatten_cons, hrender, List.append_assoc, List.append_assoc,
      List.singleton_append, readLines_line hno,
      ih fun l hl => hv l (List.mem_cons_of_mem _ hl)]

lemma readLines_text (s : Stream) :
    readLines s.text = (s.lines.map fun l => l.1.render l.2, s.tail) :=
  readLines_lines s.valid s.cut.1

lemma plain_tail (s : Stream) : Plain s.tail := by
  obtain ⟨_, l, crlf, hl, hp⟩ := s.cut
  exact (Line.plain_render hl crlf).cut hp

lemma tailContents_eq (s : Stream) : s.tailContents = contents s.tail := rfl

/-! ### The line consumers -/

lemma groups_flatten (current : List Text) (ls : List Line) (tail : List Text) :
    (groups current ls tail).flatten = current ++ ls.flatMap Line.parts ++ tail := by
  induction ls generalizing current with
  | nil => simp [groups]
  | cons l ls ih => cases l <;> simp [groups, ih, Line.parts]

lemma filter_payload {t : Text} (h : Plain t) :
    [ssePayload t].filter (· ≠ []) = (contents t).filter (· ≠ []) := by
  rw [ssePayload_eq h, contents]
  split
  · rfl
  · rfl

/-- The consumers that read line by line see the content of each data line that is not blank. -/
lemma linePayloads_eq (s : Stream) :
    linePayloads s.text = s.events.flatten.filter (· ≠ []) := by
  have hlines : ∀ ls : List (Line × Bool), (∀ l ∈ ls, l.1.Valid) →
      ((ls.map fun l => l.1.render l.2).map ssePayload).filter (· ≠ []) =
        ((ls.map Prod.fst).flatMap Line.parts).filter (· ≠ []) := by
    intro ls hv
    induction ls with
    | nil => rfl
    | cons l ls ih =>
      have hl := hv l (List.mem_cons_self ..)
      have := filter_payload (Line.plain_render hl l.2)
      rw [Line.contents_render hl] at this
      rw [List.map_cons, List.map_cons, List.map_cons, List.flatMap_cons, List.filter_append,
        ← this, ← ih fun l hl => hv l (List.mem_cons_of_mem _ hl), ← List.filter_append]
      rfl
  rw [linePayloads, chunks, readLines_text, List.map_append, List.filter_append,
    hlines s.lines s.valid, List.map_singleton, filter_payload s.plain_tail, events,
    groups_flatten, List.nil_append, List.filter_append, tailContents_eq]

lemma feed_contents {maxBytes : ℕ} {g : List Text} {t : Text}
    (hne : t.rdropWhile isLineEnd ≠ [])
    (hsize : (joined (g ++ contents t)).byteLen ≤ maxBytes) :
    feed maxBytes (joined g) t = .more (joined (g ++ contents t)) := by
  rw [← contents_rdropWhile (fun c => isSpace_of_isLineEnd), contents] at hsize ⊢
  rw [feed]
  simp only [if_neg hne]
  split
  · rename_i hp
    rw [if_pos hp, joined_concat] at hsize
    rw [if_neg (by exact Nat.not_lt.mpr hsize), joined_concat, addPart]
  · rw [List.append_nil]

lemma feed_blank (maxBytes : ℕ) (data : Text) {t : Text} (hnil : t.rdropWhile isLineEnd = []) :
    feed maxBytes data t = if data ≠ [] then .done else .more data := by
  rw [feed]
  simp only [if_pos hnil]

lemma readSSEData_rest {maxBytes : ℕ} {g : List Text} {rest : Text}
    (hsize : (joined (g ++ contents rest)).byteLen ≤ maxBytes) :
    readSSEData maxBytes (joined g) [] rest =
      (if joined (g ++ contents rest) ≠ [] then .ok (joined (g ++ contents rest))
        else .error .eof, ([], [])) := by
  by_cases hnil : rest.rdropWhile isLineEnd = []
  · -- only line ends are left, which give no data
    have hc : contents rest = [] := by
      rw [← contents_rdropWhile (fun c => isSpace_of_isLineEnd), hnil]
      rfl
    rw [readSSEData, feed_blank maxBytes _ hnil, hc, List.append_nil]
    by_cases hr : rest = []
    · simp [hr]
    · by_cases hd : joined g = [] <;> simp [hr, hd]
  · have hr : rest ≠ [] := by
      rintro rfl
      exact hnil rfl
    rw [readSSEData, if_neg hr, feed_contents hnil hsize]

/-- What the calls return that go on with `data`. -/
def payloadsFrom (maxBytes n : ℕ) (data : Text) (left : List Text × Text) : List Text :=
  match readSSEData maxBytes data left.1 left.2 with
  | (.ok data, left) => data :: readAll maxBytes n left
  | (.error _, _) => []

lemma readAll_succ (maxBytes n : ℕ) (left : List Text × Text) :
    readAll maxBytes (n + 1) left = payloadsFrom maxBytes n [] left := rfl

lemma groups_head (current : List Text) (ls : List Line) (tail : List Text) :
    ∃ more rest, groups current ls tail = (current ++ more) :: rest := by
  induction ls generalizing current with
  | nil => exact ⟨tail, [], rfl⟩
  | cons l ls ih =>
    cases l with
    | data content =>
      obtain ⟨more, rest, h⟩ := ih (current ++ [trimRunes content])
      exact ⟨trimRunes content :: more, rest, by rw [groups, h, List.append_assoc]; rfl⟩
    | field t => exact ih current
    | blank => exact ⟨[], _, by rw [List.append_nil]; rfl⟩

/-- The calls return the joined data of the events that have any; `current` is what has been read
of the event at hand. -/
lemma payloadsFrom_eq {maxBytes : ℕ} {ls : List (Line × Bool)} (hv : ∀ l ∈ ls, l.1.Valid)
    (tail : Text) (current : List Text) {n : ℕ} (hn : ls.length < n)
    (hsize : ∀ g ∈ groups current (ls.map Prod.fst) (contents tail),
      (joined g).byteLen ≤ maxBytes) :
    payloadsFrom maxBytes n (joined current) (ls.map fun l => l.1.render l.2, tail) =
      ((groups current (ls.map Prod.fst) (contents tail)).map joined).filter (· ≠ []) := by
  induction ls generalizing current n with
  | nil =>
    obtain ⟨n, rfl⟩ := Nat.exists_eq_succ_of_ne_zero (Nat.ne_of_gt hn)
    rw [payloadsFrom, List.map_nil, readSSEData_rest (hsize _ (List.mem_singleton_self _))]
    by_cases hd : joined (current ++ contents tail) = []
    · simp [groups, hd]
    · simp [groups, hd, readAll, readSSEData]
  | cons l ls ih =>
    obtain ⟨l, crlf⟩ := l
    have hl := hv (l, crlf) (List.mem_cons_self ..)
    have hv' : ∀ l ∈ ls, l.1.Valid := fun l hl => hv l (List.mem_cons_of_mem _ hl)
    rw [List.length_cons] at hn
    rw [List.map_cons] at hsize
    -- a line other than the blank one adds its parts to the event
    have more : l.text ≠ [] →
        groups current (l :: ls.map Prod.fst) (contents tail) =
          groups (current ++ l.parts) (ls.map Prod.fst) (contents tail) →
        payloadsFrom maxBytes n (joined current)
            (((l, crlf) :: ls).map fun l => l.1.render l.2, tail) =
          ((groups current (l :: ls.map Prod.fst) (contents tail)).map joined).filter
            (· ≠ []) := by
      intro hne hg
      rw [hg] at hsize ⊢
      obtain ⟨rest, gs, hhead⟩ := groups_head (current ++ l.parts) (ls.map Prod.fst) (contents tail)
      have hfeed : feed maxBytes (joined current) (l.render crlf) =
          .more (joined (current ++ l.parts)) := by
        rw [← Line.contents_render hl crlf]
        refine feed_contents ?_ ?_
        · rwa [Line.rdropWhile_render hl]
        · rw [Line.contents_render hl]
          refine (byteLen_joined_append _ rest).trans (hsize _ ?_)
          rw [hhead]
          exact List.mem_cons_self ..
      rw [← ih hv' (current ++ l.parts) (n := n) (by omega) hsize, payloadsFrom, payloadsFrom,
        List.map_cons, readSSEData, hfeed]
    cases l with
    | data content => exact more (by simp [Line.text, dataPrefix]) rfl
    | field t =>
      refine more ?_ (by simp [groups, Line.parts])
      rintro rfl
      rcases hl.2 with h | h | h <;> simp at h
    | blank =>
      have hfeed := feed_blank maxBytes (joined current) (Line.rdropWhile_render hl crlf)
      have hgroups : ∀ g ∈ groups [] (ls.map Prod.fst) (contents tail),
          (joined g).byteLen ≤ maxBytes := fun g hg => hsize g (List.mem_cons_of_mem _ hg)
      obtain ⟨n, rfl⟩ := Nat.exists_eq_succ_of_ne_zero (show n ≠ 0 by omega)
      have hcons : groups current ((Line.blank, crlf).1 :: ls.map Prod.fst) (contents tail) =
          current :: groups [] (ls.map Prod.fst) (contents tail) := rfl
      rw [payloadsFrom, List.map_cons, List.map_cons, readSSEData, hfeed, hcons, List.map_cons]
      by_cases hd : joined current = []
      · rw [if_neg (not_not.mpr hd), List.filter_cons_of_neg (by simpa using hd),
          ← ih hv' [] (n := n + 1) (by omega) hgroups, hd]
        rfl
      · rw [if_pos hd, List.filter_cons_of_pos (by simpa using hd),
          ← ih hv' [] (n := n) (by omega) hgroups]
        rfl

lemma eventPayloads_eq (s : Stream) {maxBytes : ℕ}
    (hsize : ∀ g ∈ s.events, (joined g).byteLen ≤ maxBytes) :
    eventPayloads maxBytes s.text = (s.events.map joined).filter (· ≠ []) := by
  rw [eventPayloads, readLines_text, readAll_succ]
  refine payloadsFrom_eq s.valid s.tail [] ?_ hsize
  rw [List.length_map]
  exact Nat.lt_succ_self _

end Stream

/-- **The decoders agree exactly on single data lines.** On a well-formed stream whose events are
within the size limit, the consumers that read line by line see the payloads that `readSSEData`
returns just when no event has content on a data line before its last. -/
theorem decoders_agree_iff (s : Stream) (maxBytes : ℕ)
    (hsize : ∀ g ∈ s.events, (joined g).byteLen ≤ maxBytes) :
    linePayloads s.text = eventPayloads maxBytes s.text ↔
      ∀ g ∈ s.events, ∀ p ∈ g.dropLast, p = [] := by
  have hlines : s.events.flatten.filter (· ≠ []) = s.events.flatMap (·.filter (· ≠ [])) := by
    rw [List.filter_flatten, List.flatMap_def]
  have hjoined : (s.events.map joined).filter (· ≠ []) =
      s.events.flatMap fun g => [joined g].filter (· ≠ []) := by
    induction s.events with
    | nil => rfl
    | cons g gs ih =>
      rw [List.map_cons, List.flatMap_cons, ← ih, ← List.filter_append]
      rfl
  rw [s.linePayloads_eq, s.eventPayloads_eq hsize, hlines, hjoined,
    flatMap_eq_iff fun g _ => length_joined_le g]
  exact forall₂_congr fun g _ => filter_eq_joined_iff g

lemma noEnd_of_any {t : Text} (h : t.any isLineEnd = false) : ∀ c ∈ t, isLineEnd c = false :=
  fun c hc => Bool.eq_false_iff.mpr (List.any_eq_false.mp h c hc)

def ofLines (lines : List (Line × Bool)) (valid : ∀ l ∈ lines, l.1.Valid) : Stream where
  lines := lines
  tail := []
  valid := valid
  cut := ⟨List.not_mem_nil, .blank, false, ⟨nofun, trivial⟩, List.nil_prefix⟩

/-- An event on one data line between two that have none. -/
def single : Stream :=
  ofLines [(.field ": ping".toList, true), (.blank, true), (.field "event: a".toList, false),
    (.data " \x7b\x7d".toList, false), (.blank, false), (.field "id: 7".toList, false)] (by
      intro l hl
      simp only [List.mem_cons, List.not_mem_nil, or_false] at hl
      rcases hl with rfl | rfl | rfl | rfl | rfl | rfl <;>
        exact ⟨noEnd_of_any (by decide), by trivial⟩)

theorem decoders_agree_single : linePayloads single.text = eventPayloads 16 single.text :=
  (decoders_agree_iff single 16 (by decide)).mpr (by decide)

/-- One event on two data lines. -/
def folded : Stream :=
  ofLines [(.data " \x7b".toList, false), (.data " \x7d".toList, false), (.blank, false)] (by
      intro l hl
      simp only [List.mem_cons, List.not_mem_nil, or_false] at hl
      rcases hl with rfl | rfl | rfl <;> exact ⟨noEnd_of_any (by decide), trivial⟩)

/-- The one decoder sees two payloads and the other the event. -/
theorem decoders_disagree_folded :
    (∀ g ∈ folded.events, (joined g).byteLen ≤ 16) ∧
      linePayloads folded.text = ["\x7b".toList, "\x7d".toList] ∧
      eventPayloads 16 folded.text = ["\x7b\n\x7d".toList] ∧
      linePayloads folded.text ≠ eventPayloads 16 folded.text := by
  decide

end CodexOne.SSE
