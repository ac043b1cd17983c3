import CodexOne.Lib.JsonText
import Mathlib.Data.List.TakeWhile

/-!
The parser inverts rendering: it reads the text of a tree as that tree, and whatever it reads
is the text of the tree it returns. So the texts the parser accepts are exactly the texts of
trees, and a text has one reading.
-/

namespace CodexOne

open JsonString

namespace Number

open Raw (isNumChar)

lemma isNumChar_of_isDigit {c : Char} (h : c.isDigit) : isNumChar c := by simp [isNumChar, h]

lemma digits?_chars {ds : List Char} (h : (digits? ds).isSome) : ∀ c ∈ ds, isNumChar c := by
  unfold digits? at h
  split at h
  · rename_i hds
    exact fun c hc => isNumChar_of_isDigit (List.all_eq_true.mp hds.2 c hc)
  · cases h

lemma scanExp_chars {l : List Char} (h : (scanExp l).isSome) : ∀ c ∈ l, isNumChar c := by
  cases l with
  | nil => simp
  | cons e r =>
    simp only [scanExp] at h
    split_ifs at h with he
    swap
    · cases h
    have hte : isNumChar e := by rcases he with rfl | rfl <;> decide
    have hr : ∀ c ∈ r, isNumChar c := by
      split at h
      · rw [Option.isSome_map] at h
        simpa using ⟨by decide, digits?_chars h⟩
      · simpa using ⟨by decide, digits?_chars h⟩
      · exact digits?_chars h
    simpa using ⟨hte, hr⟩

lemma takeWhile_chars (l : List Char) : ∀ c ∈ l.takeWhile Char.isDigit, isNumChar c :=
  fun _ hc => isNumChar_of_isDigit (List.mem_takeWhile_imp hc)

lemma chars_of_dropWhile {l : List Char}
    (h : ∀ c ∈ l.dropWhile Char.isDigit, isNumChar c) : ∀ c ∈ l, isNumChar c := by
  intro c hc
  rw [← List.takeWhile_append_dropWhile (p := Char.isDigit) (l := l)] at hc
  rcases List.mem_append.mp hc with hc | hc
  exacts [takeWhile_chars l c hc, h c hc]

lemma scanFrac_chars {l : List Char} (h : (scanFrac l).isSome) : ∀ c ∈ l, isNumChar c := by
  unfold scanFrac at h
  split at h
  · rename_i r
    split_ifs at h
    · simp at h
    · rw [Option.isSome_map] at h
      simpa using ⟨by decide, chars_of_dropWhile (scanExp_chars h)⟩
  · rw [Option.isSome_map] at h
    exact scanExp_chars h

lemma scanUnsigned_chars {neg : Bool} {l : List Char} (h : (scanUnsigned neg l).isSome) :
    (∀ c ∈ l, isNumChar c) ∧ ∃ c r, l = c :: r ∧ c.isDigit := by
  simp only [scanUnsigned] at h
  split_ifs at h with hint
  · simp at h
  · rw [Option.isSome_map] at h
    refine ⟨chars_of_dropWhile (scanFrac_chars h), ?_⟩
    rw [not_or] at hint
    cases l with
    | nil => exact absurd rfl hint.1
    | cons c r =>
      refine ⟨c, r, rfl, ?_⟩
      by_contra hc
      exact hint.1 (by simp [hc])

/-- A literal starts with a sign or a digit and consists of number characters. -/
lemma scan_chars {l : List Char} (h : (scan l).isSome) :
    (∀ c ∈ l, isNumChar c) ∧ ∃ c r, l = c :: r ∧ (c = '-' ∨ c.isDigit) := by
  unfold scan at h
  split at h
  · obtain ⟨h1, -⟩ := scanUnsigned_chars h
    exact ⟨by simpa using ⟨by decide, h1⟩, _, _, rfl, .inl rfl⟩
  · obtain ⟨h1, c, r, h2, h3⟩ := scanUnsigned_chars h
    exact ⟨h1, c, r, h2, .inr h3⟩

end Number

namespace Raw

open Head (literal)

/-! ### Reading back what was rendered -/

/-- A text that follows a value does not continue a number. -/
def NumStop (t : Text) : Prop := ∀ c ∈ t.head?, isNumChar c = false

lemma numStop_cons {c : Char} {t : Text} (h : isNumChar c = false) : NumStop (c :: t) := by
  intro d hd; cases hd; exact h

lemma noBlank_cons {c : Char} {t : Text} (h : Blank.ofChar? c = none) : NoBlank (c :: t) := by
  intro d hd; cases hd; exact h

lemma numStop_blanks (bs : Blanks) {t : Text} (h : NumStop t) :
    NumStop (renderBlanks bs ++ t) := by
  cases bs with
  | nil => exact h
  | cons b bs => exact numStop_cons (by cases b <;> decide)

lemma render_head (x : Raw) :
    ∃ c s, render x = c :: s ∧ Blank.ofChar? c = none ∧ c ≠ ']' ∧ c ≠ '}' := by
  cases x with
  | null => exact ⟨'n', _, rfl, by decide⟩
  | bool b => cases b <;> [exact ⟨'f', _, rfl, by decide⟩; exact ⟨'t', _, rfl, by decide⟩]
  | num n =>
    obtain ⟨-, c, r, h, hc⟩ := Number.scan_chars n.valid
    refine ⟨c, r, h, ?_⟩
    rcases hc with rfl | hc
    · decide
    · have hb : ∀ b : Blank, b.char ≠ c := by
        rintro b rfl
        revert hc
        cases b <;> decide
      refine ⟨?_, ?_, ?_⟩
      · cases hb' : Blank.ofChar? c with
        | none => rfl
        | some b => exact absurd (Blank.char_of_ofChar? hb') (hb b)
      all_goals rintro rfl; revert hc; decide
  | str ps => exact ⟨'"', _, rfl, by decide⟩
  | arrNil | arr => exact ⟨'[', _, rfl, by decide⟩
  | objNil | obj => exact ⟨'{', _, rfl, by decide⟩

lemma noBlank_render (x : Raw) (t : Text) : NoBlank (render x ++ t) := by
  obtain ⟨c, s, h, hc, -⟩ := render_head x
  rw [h]; exact noBlank_cons hc

lemma renderElems_head (rest : List (Blanks × Raw × Blanks)) :
    ∃ c s, renderElems rest = c :: s ∧ (c = ',' ∨ c = ']') := by
  cases rest with
  | nil => exact ⟨_, _, rfl, .inr rfl⟩
  | cons e rest => obtain ⟨b, x, a⟩ := e; exact ⟨_, _, rfl, .inl rfl⟩

lemma renderMembers_head (rest : List (Head × Raw × Blanks)) :
    ∃ c s, renderMembers rest = c :: s ∧ (c = ',' ∨ c = '}') := by
  cases rest with
  | nil => exact ⟨_, _, rfl, .inr rfl⟩
  | cons e rest => obtain ⟨b, x, a⟩ := e; exact ⟨_, _, rfl, .inl rfl⟩

lemma stop_elems (rest : List (Blanks × Raw × Blanks)) (t : Text) :
    NumStop (renderElems rest ++ t) ∧ NoBlank (renderElems rest ++ t) := by
  obtain ⟨c, s, h, rfl | rfl⟩ := renderElems_head rest <;> rw [h] <;>
    exact ⟨numStop_cons (by decide), noBlank_cons (by decide)⟩

lemma stop_members (rest : List (Head × Raw × Blanks)) (t : Text) :
    NumStop (renderMembers rest ++ t) ∧ NoBlank (renderMembers rest ++ t) := by
  obtain ⟨c, s, h, rfl | rfl⟩ := renderMembers_head rest <;> rw [h] <;>
    exact ⟨numStop_cons (by decide), noBlank_cons (by decide)⟩

lemma length_le_renderPieces (ps : List Piece) : ps.length ≤ (renderPieces ps).length := by
  induction ps with
  | nil => simp
  | cons p ps ih =>
    have hp : 1 ≤ p.chars.length := by cases p <;> simp [Piece.chars]
    simp only [renderPieces, List.flatMap_cons, List.length_append, List.length_cons] at ih ⊢
    omega

lemma readPieces_literal (ps : List Piece) (t : Text) :
    readPieces ((renderPieces ps ++ '"' :: t).length + 1) (renderPieces ps ++ '"' :: t) =
      some (ps, t) := by
  refine readPieces_render ps t _ ?_
  have := length_le_renderPieces ps
  rw [List.length_append]; omega

lemma readHead_render (h : Head) {t : Text} (ht : NoBlank t) :
    readHead (h.render ++ t) = some (h, t) := by
  obtain ⟨b, k, c, a⟩ := h
  have e : Head.render ⟨b, k, c, a⟩ ++ t = renderBlanks b ++
      ('"' :: (renderPieces k ++ '"' :: (renderBlanks c ++ ':' :: (renderBlanks a ++ t)))) := by
    simp [Head.render, literal]
  have h1 := readBlanks_render b
    (t := '"' :: (renderPieces k ++ '"' :: (renderBlanks c ++ ':' :: (renderBlanks a ++ t))))
    (noBlank_cons (by decide))
  have h2 := readBlanks_render c (t := ':' :: (renderBlanks a ++ t)) (noBlank_cons (by decide))
  have h3 := readBlanks_render a ht
  rw [e]
  simp only [readHead, h1, readPieces_literal, Option.bind_eq_bind, Option.bind_some, h2, h3]

lemma readNumber_render (n : Number) {t : Text} (ht : NumStop t) :
    (n.lit ++ t).takeWhile isNumChar = n.lit ∧ (n.lit ++ t).dropWhile isNumChar = t := by
  obtain ⟨hall, -⟩ := Number.scan_chars n.valid
  have htake : t.takeWhile isNumChar = [] := by
    cases t with
    | nil => rfl
    | cons c r => simp [ht c (by simp)]
  have hdrop : t.dropWhile isNumChar = t := by
    cases t with
    | nil => rfl
    | cons c r => simp [ht c (by simp)]
  rw [List.takeWhile_append_of_pos hall, List.dropWhile_append_of_pos hall, htake, hdrop]
  simp

lemma readValue_num (n : Number) {t : Text} (ht : NumStop t) (f : ℕ) :
    readValue (f + 1) (n.lit ++ t) = some (num n, t) := by
  obtain ⟨h1, h2⟩ := readNumber_render n ht
  obtain ⟨-, c, r, hl, hc⟩ := Number.scan_chars n.valid
  have hne : c ≠ 'n' ∧ c ≠ 't' ∧ c ≠ 'f' ∧ c ≠ '"' ∧ c ≠ '[' ∧ c ≠ '{' := by
    rcases hc with rfl | hc
    · decide
    · refine ⟨?_, ?_, ?_, ?_, ?_, ?_⟩ <;> rintro rfl <;> revert hc <;> decide
  obtain ⟨hn, ht, hf, hq, hb, hc⟩ := hne
  unfold readValue
  rw [hl, List.cons_append]
  split
  · rename_i h0
    exact absurd h0 (Nat.succ_ne_zero f)
  any_goals
    rename_i heq
    have := (List.cons.inj heq).1
    contradiction
  rw [← List.cons_append, ← hl, h1, h2]
  simp

mutual
theorem readValue_render : ∀ (x : Raw) (f : ℕ) (t : Text), size x ≤ f → NumStop t →
    readValue f (render x ++ t) = some (x, t)
  | x, 0, t, hf, _ => by cases x <;> simp [size] at hf
  | null, f + 1, t, _, _ => by simp [render, readValue]
  | bool true, f + 1, t, _, _ => by simp [render, readValue]
  | bool false, f + 1, t, _, _ => by simp [render, readValue]
  | num n, f + 1, t, _, ht => readValue_num n ht f
  | str ps, f + 1, t, _, _ => by
    have e : render (str ps) ++ t = '"' :: (renderPieces ps ++ '"' :: t) := by
      simp [render, literal]
    rw [e, readValue, readPieces_literal]
    rfl
  | arrNil pad, f + 1, t, _, _ => by
    have e : render (arrNil pad) ++ t = '[' :: (renderBlanks pad ++ ']' :: t) := by simp [render]
    have h := readBlanks_render pad (t := ']' :: t) (noBlank_cons (by decide))
    simp only [e, readValue, h]
  | arr b x a rest, f + 1, t, hf, _ => by
    simp only [size] at hf
    obtain ⟨hs1, hs2⟩ := stop_elems rest t
    have e : render (arr b x a rest) ++ t =
        '[' :: (renderBlanks b ++ (render x ++ (renderBlanks a ++ (renderElems rest ++ t)))) := by
      simp [render]
    have h1 := readBlanks_render b
      (noBlank_render x (renderBlanks a ++ (renderElems rest ++ t)))
    have h2 := readValue_render x f (renderBlanks a ++ (renderElems rest ++ t)) (by omega)
      (numStop_blanks a hs1)
    have h3 := readBlanks_render a hs2
    have h4 := readElems_render rest f t (by omega)
    obtain ⟨c, s, hc, -, hne, -⟩ := render_head x
    rw [e, readValue, h1]
    simp only
    split
    · rename_i heq
      rw [hc] at heq
      exact absurd (List.cons.inj heq).1 hne
    · rw [h2]
      simp only [Option.bind_eq_bind, Option.bind_some, h3, h4]
  | objNil pad, f + 1, t, _, _ => by
    have e : render (objNil pad) ++ t = '{' :: (renderBlanks pad ++ '}' :: t) := by simp [render]
    have h := readBlanks_render pad (t := '}' :: t) (noBlank_cons (by decide))
    simp only [e, readValue, h]
  | obj hd x a rest, f + 1, t, hf, _ => by
    simp only [size] at hf
    obtain ⟨hs1, hs2⟩ := stop_members rest t
    have e : render (obj hd x a rest) ++ t =
        '{' :: (hd.render ++ (render x ++ (renderBlanks a ++ (renderMembers rest ++ t)))) := by
      simp [render]
    have h1 := readHead_render hd (noBlank_render x (renderBlanks a ++ (renderMembers rest ++ t)))
    have h2 := readValue_render x f (renderBlanks a ++ (renderMembers rest ++ t)) (by omega)
      (numStop_blanks a hs1)
    have h3 := readBlanks_render a hs2
    have h4 := readMembers_render rest f t (by omega)
    -- an object with members does not close at once
    have h5 : (readBlanks (hd.render ++
        (render x ++ (renderBlanks a ++ (renderMembers rest ++ t))))).2.head? = some '"' := by
      have e2 : hd.render ++ (render x ++ (renderBlanks a ++ (renderMembers rest ++ t))) =
          renderBlanks hd.before ++ ('"' :: (renderPieces hd.key ++ '"' :: (renderBlanks hd.colon ++
            ':' :: (renderBlanks hd.after ++
              (render x ++ (renderBlanks a ++ (renderMembers rest ++ t))))))) := by
        simp [Head.render, literal]
      rw [e2, readBlanks_render _ (noBlank_cons (by decide))]
      rfl
    rw [e, readValue]
    split
    · rename_i heq
      rw [heq] at h5
      exact absurd h5 (by simp)
    · rw [h1]
      simp only [Option.bind_eq_bind, Option.bind_some, h2, h3, h4]

theorem readElems_render : ∀ (rest : List (Blanks × Raw × Blanks)) (f : ℕ) (t : Text),
    sizeElems rest ≤ f → readElems f (renderElems rest ++ t) = some (rest, t)
  | rest, 0, t, hf => by cases rest <;> simp [sizeElems] at hf
  | [], f + 1, t, _ => by simp [renderElems, readElems]
  | (b, x, a) :: rest, f + 1, t, hf => by
    simp only [sizeElems] at hf
    obtain ⟨hs1, hs2⟩ := stop_elems rest t
    have e : renderElems ((b, x, a) :: rest) ++ t =
        ',' :: (renderBlanks b ++ (render x ++ (renderBlanks a ++ (renderElems rest ++ t)))) := by
      simp [renderElems]
    have h1 := readBlanks_render b
      (noBlank_render x (renderBlanks a ++ (renderElems rest ++ t)))
    have h2 := readValue_render x f (renderBlanks a ++ (renderElems rest ++ t)) (by omega)
      (numStop_blanks a hs1)
    have h3 := readBlanks_render a hs2
    have h4 := readElems_render rest f t (by omega)
    rw [e, readElems, h1]
    simp only [h2, Option.bind_eq_bind, Option.bind_some, h3, h4]

theorem readMembers_render : ∀ (rest : List (Head × Raw × Blanks)) (f : ℕ) (t : Text),
    sizeMembers rest ≤ f → readMembers f (renderMembers rest ++ t) = some (rest, t)
  | rest, 0, t, hf => by cases rest <;> simp [sizeMembers] at hf
  | [], f + 1, t, _ => by simp [renderMembers, readMembers]
  | (hd, x, a) :: rest, f + 1, t, hf => by
    simp only [sizeMembers] at hf
    obtain ⟨hs1, hs2⟩ := stop_members rest t
    have e : renderMembers ((hd, x, a) :: rest) ++ t =
        ',' :: (hd.render ++ (render x ++ (renderBlanks a ++ (renderMembers rest ++ t)))) := by
      simp [renderMembers]
    have h1 := readHead_render hd (noBlank_render x (renderBlanks a ++ (renderMembers rest ++ t)))
    have h2 := readValue_render x f (renderBlanks a ++ (renderMembers rest ++ t)) (by omega)
      (numStop_blanks a hs1)
    have h3 := readBlanks_render a hs2
    have h4 := readMembers_render rest f t (by omega)
    rw [e, readMembers, h1]
    simp only [h2, Option.bind_eq_bind, Option.bind_some, h3, h4]
end

mutual
theorem size_le_render : ∀ x : Raw, size x ≤ (render x).length
  | null | bool true | bool false => by simp [size, render]
  | num n => by
    obtain ⟨-, c, r, h, -⟩ := Number.scan_chars n.valid
    simp [size, render, h]
  | str ps => by simp [size, render, literal]
  | arrNil _ | objNil _ => by simp [size, render]
  | arr b x a rest => by
    have h1 := size_le_render x
    have h2 := sizeElems_le_render rest
    simp only [size, render, List.length_cons, List.length_append]
    omega
  | obj h x a rest => by
    have h1 := size_le_render x
    have h2 := sizeMembers_le_render rest
    simp only [size, render, List.length_cons, List.length_append]
    omega

theorem sizeElems_le_render : ∀ rest : List (Blanks × Raw × Blanks),
    sizeElems rest ≤ (renderElems rest).length
  | [] => by simp [sizeElems, renderElems]
  | (b, x, a) :: rest => by
    have h1 := size_le_render x
    have h2 := sizeElems_le_render rest
    simp only [sizeElems, renderElems, List.length_cons, List.length_append]
    omega

theorem sizeMembers_le_render : ∀ rest : List (Head × Raw × Blanks),
    sizeMembers rest ≤ (renderMembers rest).length
  | [] => by simp [sizeMembers, renderMembers]
  | (h, x, a) :: rest => by
    have h1 := size_le_render x
    have h2 := sizeMembers_le_render rest
    simp only [sizeMembers, renderMembers, List.length_cons, List.length_append]
    omega
end

/-- **Completeness**: the text of a tree, with white space around it, is read as that tree. -/
theorem parse_render (b a : Blanks) (x : Raw) :
    parse (renderBlanks b ++ render x ++ renderBlanks a) = some x := by
  have h1 := readBlanks_render b (noBlank_render x (renderBlanks a))
  have hstop : NumStop (renderBlanks a) := by
    have := numStop_blanks a (t := []) (by intro c hc; cases hc)
    simpa using this
  have h2 := readValue_render x ((renderBlanks b ++ (render x ++ renderBlanks a)).length + 1)
    (renderBlanks a) (by
      have := size_le_render x
      simp only [List.length_append]; omega) hstop
  have h3 := readBlanks_render a (t := []) (by intro c hc; cases hc)
  rw [List.append_nil] at h3
  rw [List.append_assoc, parse, h1, h2]
  simp [h3]

lemma render_of_readHead {t : Text} {h : Head} {r : Text} (hh : readHead t = some (h, r)) :
    t = h.render ++ r := by
  unfold readHead at hh
  have e1 := render_readBlanks t
  generalize readBlanks t = p at hh e1
  obtain ⟨b, s⟩ := p
  simp only at hh e1
  split at hh
  · rename_i s1
    cases hk : readPieces (s1.length + 1) s1 with
    | none => rw [hk] at hh; cases hh
    | some kr =>
      obtain ⟨k, r1⟩ := kr
      rw [hk] at hh
      simp only [Option.bind_eq_bind, Option.bind_some] at hh
      have e2 := render_readBlanks r1
      generalize readBlanks r1 = p2 at hh e2
      obtain ⟨c, s2⟩ := p2
      simp only at hh e2
      split at hh
      · rename_i s3
        have e3 := render_readBlanks s3
        cases hh
        rw [e1, render_of_readPieces hk, e2]
        simp only [Head.render, literal]
        conv_lhs => rw [e3]
        simp
      · cases hh
  · cases hh

/-- Reading a value takes its text off the front, and the same for elements and members. -/
theorem render_of_read (f : ℕ) :
    (∀ t x r, readValue f t = some (x, r) → t = render x ++ r) ∧
    (∀ t xs r, readElems f t = some (xs, r) → t = renderElems xs ++ r) ∧
    (∀ t ms r, readMembers f t = some (ms, r) → t = renderMembers ms ++ r) := by
  induction f with
  | zero => exact ⟨by simp [readValue], by simp [readElems], by simp [readMembers]⟩
  | succ f ih =>
    obtain ⟨ihV, ihE, ihM⟩ := ih
    refine ⟨?_, ?_, ?_⟩
    · intro t x r h
      unfold readValue at h
      split at h
      · rename_i hz; cases hz
      · cases h; rfl
      · cases h; rfl
      · cases h; rfl
      · -- a string
        rename_i s _
        cases hp : readPieces (s.length + 1) s with
        | none => rw [hp] at h; cases h
        | some pr =>
          obtain ⟨ps, r1⟩ := pr
          rw [hp] at h; cases h
          rw [render_of_readPieces hp]
          simp [render, literal]
      · -- an array
        rename_i g s hg
        cases hg
        have e1 := render_readBlanks s
        split at h
        · rename_i r' hb
          cases h
          conv_lhs => rw [e1, hb]
          simp [render]
        · rename_i r' hb hne
          cases hv : readValue f (readBlanks s).2 with
          | none => rw [hv] at h; cases h
          | some vr =>
            obtain ⟨v, r1⟩ := vr
            rw [hv] at h
            simp only [Option.bind_eq_bind, Option.bind_some] at h
            cases he : readElems f (readBlanks r1).2 with
            | none => rw [he] at h; cases h
            | some er =>
              obtain ⟨es, r2⟩ := er
              rw [he] at h; cases h
              conv_lhs => rw [e1, ihV _ _ _ hv, render_readBlanks r1, ihE _ _ _ he]
              simp [render]
      · -- an object
        rename_i g s hg
        cases hg
        have e1 := render_readBlanks s
        split at h
        · rename_i r' hb
          cases h
          conv_lhs => rw [e1, hb]
          simp [render]
        · cases hh : readHead s with
          | none => rw [hh] at h; cases h
          | some hr =>
            obtain ⟨hd, r0⟩ := hr
            rw [hh] at h
            simp only [Option.bind_eq_bind, Option.bind_some] at h
            cases hv : readValue f r0 with
            | none => rw [hv] at h; cases h
            | some vr =>
              obtain ⟨v, r1⟩ := vr
              rw [hv] at h
              simp only [Option.bind_some] at h
              cases he : readMembers f (readBlanks r1).2 with
              | none => rw [he] at h; cases h
              | some er =>
                obtain ⟨es, r2⟩ := er
                rw [he] at h; cases h
                rw [render_of_readHead hh, ihV _ _ _ hv]
                conv_lhs => rw [render_readBlanks r1, ihM _ _ _ he]
                simp [render]
      · -- a number
        rw [Option.bind_eq_bind, Option.bind_eq_some_iff] at h
        obtain ⟨n, hn, h⟩ := h
        cases h
        simp [render, Number.lit_of_ofLit? hn]
    · intro t xs r h
      unfold readElems at h
      split at h
      · rename_i hz; cases hz
      · cases h; rfl
      · rename_i g s hg
        cases hg
        cases hv : readValue f (readBlanks s).2 with
        | none => rw [hv] at h; cases h
        | some vr =>
          obtain ⟨v, r1⟩ := vr
          rw [hv] at h
          simp only [Option.bind_eq_bind, Option.bind_some] at h
          cases he : readElems f (readBlanks r1).2 with
          | none => rw [he] at h; cases h
          | some er =>
            obtain ⟨es, r2⟩ := er
            rw [he] at h; cases h
            conv_lhs => rw [render_readBlanks s, ihV _ _ _ hv, render_readBlanks r1, ihE _ _ _ he]
            simp [renderElems]
      · cases h
    · intro t ms r h
      unfold readMembers at h
      split at h
      · rename_i hz; cases hz
      · cases h; rfl
      · rename_i g s hg
        cases hg
        cases hh : readHead s with
        | none => rw [hh] at h; cases h
        | some hr =>
          obtain ⟨hd, r0⟩ := hr
          rw [hh] at h
          simp only [Option.bind_eq_bind, Option.bind_some] at h
          cases hv : readValue f r0 with
          | none => rw [hv] at h; cases h
          | some vr =>
            obtain ⟨v, r1⟩ := vr
            rw [hv] at h
            simp only [Option.bind_some] at h
            cases he : readMembers f (readBlanks r1).2 with
            | none => rw [he] at h; cases h
            | some er =>
              obtain ⟨es, r2⟩ := er
              rw [he] at h; cases h
              rw [render_of_readHead hh, ihV _ _ _ hv]
              conv_lhs => rw [render_readBlanks r1, ihM _ _ _ he]
              simp [renderMembers]
      · cases h

/-- **Soundness**: a text the parser accepts is the text of the tree it returns. -/
theorem render_of_parse {t : Text} {x : Raw} (h : parse t = some x) :
    ∃ b a, t = renderBlanks b ++ render x ++ renderBlanks a := by
  unfold parse at h
  split at h
  · rename_i y r hv
    split at h
    · rename_i hr
      cases h
      refine ⟨(readBlanks t).1, (readBlanks r).1, ?_⟩
      conv_lhs => rw [render_readBlanks t, (render_of_read _).1 _ _ _ hv, render_readBlanks r, hr]
      simp
    · cases h
  · cases h

end Raw

end CodexOne
