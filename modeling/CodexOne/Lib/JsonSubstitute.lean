import CodexOne.Lib.JsonParse
import CodexOne.Lib.Substitute
import Mathlib.Data.List.Find

/-!
Substitution in a JSON text.

A text that is replaced character by character may stop being JSON. Where every match begins at a
piece of a string, replacing in the text is replacing pieces in its strings; and where the strings
are written as the left sides are, that is replacing runes in the decoded strings.
-/

namespace CodexOne

open JsonString

section

variable {α : Type} [DecidableEq α] {rules : Rules α}

lemma substitute_skip (l t : List α) :
    substitute rules l.length (l ++ t) = substitute rules 0 t := by
  induction l with
  | nil => rfl
  | cons c l ih =>
    rw [List.length_cons, List.cons_append, substitute]
    exact ih

lemma substitute_match {r : List α × List α} {t : List α} (h : rules.first (r.1 ++ t) = some r)
    (hr : r.1 ≠ []) : substitute rules 0 (r.1 ++ t) = r.2 ++ substitute rules 0 t := by
  obtain ⟨c, l, hl⟩ := List.exists_cons_of_ne_nil hr
  rw [hl, List.cons_append] at h ⊢
  rw [substitute, h]
  dsimp only
  rw [hl, List.length_cons, Nat.add_sub_cancel, substitute_skip]

lemma substitute_copy {c : α} {t : List α} (h : rules.first (c :: t) = none) :
    substitute rules 0 (c :: t) = c :: substitute rules 0 t := by
  rw [substitute, h]

end

namespace JsonString

/-- Where the next character of a JSON text stands: outside of the strings, at a piece of a string,
behind a backslash, or at a hexadecimal digit with some to come. -/
inductive Place
  | outside | body | escape
  | digits (more : ℕ)
  deriving DecidableEq

namespace Place

def next : Place → Char → Place
  | outside, c => if c = '"' then body else outside
  | body, c => if c = '"' then outside else if c = '\\' then escape else body
  | escape, c => if c = 'u' then digits 3 else body
  | digits 0, _ => body
  | digits (more + 1), _ => digits more

def behind (p : Place) (t : Text) : Place := t.foldl next p

lemma behind_cons (p : Place) (c : Char) (t : Text) : p.behind (c :: t) = (p.next c).behind t := rfl

lemma behind_append (p : Place) (a b : Text) : p.behind (a ++ b) = (p.behind a).behind b :=
  List.foldl_append

end Place

/-- In the text, of which the first characters have been replaced, every match that is replaced
begins at a piece of a string. -/
def Aligned (rules : Rules Char) : ℕ → Place → Text → Prop
  | _, _, [] => True
  | read + 1, p, c :: t => Aligned rules read (p.next c) t
  | 0, p, c :: t =>
    match rules.first (c :: t) with
    | some r => p = .body ∧ Aligned rules (r.1.length - 1) (p.next c) t
    | none => Aligned rules 0 (p.next c) t

def decideAligned (rules : Rules Char) :
    ∀ (n : ℕ) (p : Place) (t : Text), Decidable (Aligned rules n p t)
  | 0, _, [] | _ + 1, _, [] => .isTrue trivial
  | read + 1, p, c :: t => decideAligned rules read (p.next c) t
  | 0, p, c :: t =>
    match h : rules.first (c :: t) with
    | some r =>
      have := decideAligned rules (r.1.length - 1) (p.next c) t
      decidable_of_iff (p = .body ∧ Aligned rules (r.1.length - 1) (p.next c) t)
        (by rw [Aligned, h])
    | none =>
      have := decideAligned rules 0 (p.next c) t
      decidable_of_iff (Aligned rules 0 (p.next c) t) (by rw [Aligned, h])

instance (rules : Rules Char) (n : ℕ) (p : Place) (t : Text) : Decidable (Aligned rules n p t) :=
  decideAligned rules n p t

variable {rules : Rules Char} {p : Place} {t u v : Text}

lemma aligned_skip (l : Text) :
    Aligned rules l.length p (l ++ t) ↔ Aligned rules 0 (p.behind l) t := by
  induction l generalizing p with
  | nil => rfl
  | cons c l ih => exact ih

lemma aligned_match {r : Text × Text} (h : rules.first (r.1 ++ t) = some r) (hr : r.1 ≠ []) :
    Aligned rules 0 p (r.1 ++ t) ↔ p = .body ∧ Aligned rules 0 (p.behind r.1) t := by
  obtain ⟨c, l, hl⟩ := List.exists_cons_of_ne_nil hr
  rw [hl, List.cons_append] at h ⊢
  rw [Aligned, h]
  dsimp only
  rw [hl, List.length_cons, Nat.add_sub_cancel, aligned_skip, Place.behind_cons]

lemma aligned_copy {c : Char} (h : rules.first (c :: t) = none) :
    Aligned rules 0 p (c :: t) ↔ Aligned rules 0 (p.next c) t := by
  rw [Aligned, h]

lemma Aligned.first_eq_none {c : Char} (h : Aligned rules 0 p (c :: t)) (hp : p ≠ .body) :
    rules.first (c :: t) = none := by
  rw [Aligned] at h
  cases hf : rules.first (c :: t) with
  | none => rfl
  | some r =>
    rw [hf] at h
    exact absurd h.1 hp

lemma Aligned.copy {c : Char} (h : Aligned rules 0 p (c :: t)) (hp : p ≠ .body) :
    substitute rules 0 (c :: t) = c :: substitute rules 0 t ∧ Aligned rules 0 (p.next c) t :=
  ⟨substitute_copy (h.first_eq_none hp), (aligned_copy (h.first_eq_none hp)).mp h⟩

/-- Substitution turns the one text into the other, and it begins and ends outside of the
strings. -/
def Turns (rules : Rules Char) (u v : Text) : Prop :=
  ∀ t, Aligned rules 0 .outside (u ++ t) →
    substitute rules 0 (u ++ t) = v ++ substitute rules 0 t ∧ Aligned rules 0 .outside t

lemma Turns.nil : Turns rules [] [] := fun _ h => ⟨rfl, h⟩

lemma Turns.append {u' v' : Text} (h : Turns rules u v) (h' : Turns rules u' v') :
    Turns rules (u ++ u') (v ++ v') := by
  intro t ht
  rw [List.append_assoc] at ht ⊢
  obtain ⟨h1, ht⟩ := h _ ht
  obtain ⟨h2, ht⟩ := h' t ht
  rw [h1, h2, List.append_assoc]
  exact ⟨rfl, ht⟩

lemma Turns.copy {c : Char} (hc : c ≠ '"') : Turns rules [c] [c] := by
  intro t h
  obtain ⟨h1, h2⟩ := Aligned.copy (t := t) h (by decide)
  rw [Place.next, if_neg hc] at h2
  exact ⟨h1, h2⟩

lemma Turns.cons {c : Char} (hc : c ≠ '"') (h : Turns rules u v) :
    Turns rules (c :: u) (c :: v) := (Turns.copy hc).append h

lemma Turns.refl (hu : '"' ∉ u) : Turns rules u u := by
  induction u with
  | nil => exact .nil
  | cons c u ih =>
    rw [List.mem_cons, not_or] at hu
    exact .cons (Ne.symm hu.1) (ih hu.2)

/-! ### Pieces -/

def written (rules : Rules Piece) : Rules Char :=
  rules.map fun r => (renderPieces r.1, renderPieces r.2)

lemma renderPieces_cons (p : Piece) (ps : List Piece) :
    renderPieces (p :: ps) = p.chars ++ renderPieces ps := rfl

lemma renderPieces_append (ps qs : List Piece) :
    renderPieces (ps ++ qs) = renderPieces ps ++ renderPieces qs := by simp [renderPieces]

lemma prefix_pieces {k ps : List Piece} {t : Text} :
    renderPieces k <+: renderPieces ps ++ '"' :: t ↔ k <+: ps := by
  constructor
  · rintro ⟨r, hr⟩
    induction k generalizing ps with
    | nil => exact List.nil_prefix
    | cons p k ih =>
      rw [renderPieces_cons, List.append_assoc] at hr
      cases ps with
      -- the closing quote begins no piece
      | nil => exact absurd hr (chars_ne_quote p _ t)
      | cons q ps =>
        rw [renderPieces_cons, List.append_assoc] at hr
        have hread := readPiece_chars p (renderPieces k ++ r)
        rw [hr, readPiece_chars q] at hread
        obtain ⟨rfl, htail⟩ := Prod.mk.inj (Option.some.inj hread)
        exact List.cons_prefix_cons.mpr ⟨rfl, ih htail.symm⟩
  · rintro ⟨q, rfl⟩
    rw [renderPieces_append, List.append_assoc]
    exact List.prefix_append _ _

lemma first_written (rules : Rules Piece) (ps : List Piece) (t : Text) :
    Rules.first (written rules) (renderPieces ps ++ '"' :: t) =
      (rules.first ps).map fun r => (renderPieces r.1, renderPieces r.2) := by
  unfold Rules.first written
  rw [List.find?_map]
  congr 2
  funext r
  rw [Function.comp_apply, Bool.eq_iff_iff, List.isPrefixOf_iff_prefix, List.isPrefixOf_iff_prefix,
    prefix_pieces]

variable {pieceRules : Rules Piece}

lemma chars_ne_nil (p : Piece) : p.chars ≠ [] := by cases p <;> simp [Piece.chars]

lemma renderPieces_ne_nil {ps : List Piece} (h : ps ≠ []) : renderPieces ps ≠ [] := by
  obtain ⟨p, ps, rfl⟩ := List.exists_cons_of_ne_nil h
  rw [renderPieces_cons]
  simp [chars_ne_nil]

lemma behind_chars (p : Piece) : Place.behind .body p.chars = .body := by
  cases p with
  | plain c hc =>
    have hquote : c ≠ '"' := by rintro rfl; exact absurd hc (by decide)
    have hslash : c ≠ '\\' := by rintro rfl; exact absurd hc (by decide)
    change Place.next .body c = .body
    rw [Place.next, if_neg hquote, if_neg hslash]
  | esc e =>
    change Place.next .escape e.letter = .body
    rw [Place.next, if_neg (letter_ne_u e)]
  | hex q => rfl

lemma behind_pieces (ps : List Piece) : Place.behind .body (renderPieces ps) = .body := by
  induction ps with
  | nil => rfl
  | cons p ps ih => rw [renderPieces_cons, Place.behind_append, behind_chars, ih]

lemma Aligned.piece (q : Piece) (h : Aligned rules 0 .body (q.chars ++ t))
    (hnone : rules.first (q.chars ++ t) = none) :
    substitute rules 0 (q.chars ++ t) = q.chars ++ substitute rules 0 t ∧
      Aligned rules 0 .body t := by
  cases q with
  | plain c hc =>
    have hquote : c ≠ '"' := by rintro rfl; exact absurd hc (by decide)
    have hslash : c ≠ '\\' := by rintro rfl; exact absurd hc (by decide)
    have hrest := (aligned_copy hnone).mp h
    rw [Place.next, if_neg hquote, if_neg hslash] at hrest
    exact ⟨substitute_copy hnone, hrest⟩
  | esc e =>
    have h1 : Aligned rules 0 .escape (e.letter :: t) := (aligned_copy hnone).mp h
    obtain ⟨hcopy, h2⟩ := h1.copy (by decide)
    rw [Place.next, if_neg (letter_ne_u e)] at h2
    exact ⟨(substitute_copy hnone).trans (congrArg _ hcopy), h2⟩
  | hex q =>
    have h1 : Aligned rules 0 .escape ('u' :: (q.chars ++ t)) := (aligned_copy hnone).mp h
    obtain ⟨hu, h2⟩ := h1.copy (by decide)
    obtain ⟨ha, h3⟩ := Aligned.copy (p := .digits 3) h2 (by decide)
    obtain ⟨hb, h4⟩ := Aligned.copy (p := .digits 2) h3 (by decide)
    obtain ⟨hc, h5⟩ := Aligned.copy (p := .digits 1) h4 (by decide)
    obtain ⟨hd, h6⟩ := Aligned.copy (p := .digits 0) h5 (by decide)
    refine ⟨(substitute_copy hnone).trans (congrArg _ (hu.trans ?_)), h6⟩
    exact congrArg _ (ha.trans (congrArg _ (hb.trans (congrArg _ (hc.trans (congrArg _ hd))))))

/-- The left sides of the rules are not empty. -/
def Nonempty (rules : Rules Piece) : Prop := ∀ r ∈ rules, r.1 ≠ []

lemma turns_pieces (hne : Nonempty pieceRules) (ps : List Piece) (t : Text)
    (h : Aligned (written pieceRules) 0 .body (renderPieces ps ++ '"' :: t)) :
    substitute (written pieceRules) 0 (renderPieces ps ++ '"' :: t) =
        renderPieces (substitute pieceRules 0 ps) ++
          substitute (written pieceRules) 0 ('"' :: t) ∧
      Aligned (written pieceRules) 0 .body ('"' :: t) := by
  induction hn : ps.length using Nat.strong_induction_on generalizing ps with
  | _ n ih =>
    have hfirst := first_written pieceRules ps t
    cases ps with
    | nil => exact ⟨rfl, h⟩
    | cons p ps =>
      cases hf : pieceRules.first (p :: ps) with
      | none =>
        rw [hf, Option.map_none] at hfirst
        rw [renderPieces_cons, List.append_assoc] at h hfirst ⊢
        obtain ⟨h1, hrest⟩ := h.piece p hfirst
        obtain ⟨h2, hend⟩ := ih _ (by rw [← hn]; exact Nat.lt_succ_self _) ps hrest rfl
        rw [h1, h2, substitute_copy hf, renderPieces_cons, List.append_assoc]
        exact ⟨rfl, hend⟩
      | some r =>
        -- the match is a list of pieces, and nothing of it is looked at again
        obtain ⟨hr, q, hq⟩ := first_eq_some hf
        have hr1 := hne r hr
        rw [← hq, renderPieces_append, List.append_assoc] at h hfirst ⊢
        rw [← hq] at hf
        rw [hf, Option.map_some] at hfirst
        have hmatch := substitute_match (r := (renderPieces r.1, renderPieces r.2)) hfirst
          (renderPieces_ne_nil hr1)
        obtain ⟨-, hrest⟩ := (aligned_match (r := (renderPieces r.1, renderPieces r.2)) hfirst
          (renderPieces_ne_nil hr1)).mp h
        rw [behind_pieces] at hrest
        have hlen : q.length < n := by
          have hpos := List.length_pos_iff.mpr hr1
          have hsum := congrArg List.length hq
          rw [List.length_append] at hsum
          omega
        obtain ⟨h2, hend⟩ := ih _ hlen q hrest rfl
        rw [substitute_match hf hr1, renderPieces_append, List.append_assoc, ← h2]
        exact ⟨hmatch, hend⟩

lemma Turns.literal (hne : Nonempty pieceRules) (ps : List Piece) :
    Turns (written pieceRules) (Head.literal ps)
      (Head.literal (substitute pieceRules 0 ps)) := by
  intro t h
  have hopen : Head.literal ps ++ t = '"' :: (renderPieces ps ++ '"' :: t) := by
    simp [Head.literal]
  rw [hopen] at h ⊢
  obtain ⟨h1, hbody⟩ := h.copy (by decide)
  obtain ⟨h2, hend⟩ := turns_pieces hne ps t hbody
  have hnone : (written pieceRules).first ('"' :: t) = none := by
    have hfirst := first_written pieceRules [] t
    rw [first_eq_none.mpr fun r hr hpre => hne r hr (List.prefix_nil.mp hpre)] at hfirst
    exact hfirst
  have hclose : Aligned (written pieceRules) 0 .outside t := (aligned_copy hnone).mp hend
  rw [h1, h2, substitute_copy hnone]
  exact ⟨by simp [Head.literal], hclose⟩

end JsonString

/-- The head of a member with the pieces of its key replaced. -/
def Head.mapPieces (f : List Piece → List Piece) (h : Head) : Head := { h with key := f h.key }

namespace Raw

open JsonString

section

variable (f : List Piece → List Piece)

mutual
/-- The text with the pieces of its strings replaced. -/
def mapPieces : Raw → Raw
  | str ps => str (f ps)
  | arr b x a rest => arr b (mapPieces x) a (mapPiecesElems rest)
  | obj h x a rest => obj (h.mapPieces f) (mapPieces x) a (mapPiecesMembers rest)
  | x => x

def mapPiecesElems : List (Blanks × Raw × Blanks) → List (Blanks × Raw × Blanks)
  | [] => []
  | (b, x, a) :: rest => (b, mapPieces x, a) :: mapPiecesElems rest

def mapPiecesMembers : List (Head × Raw × Blanks) → List (Head × Raw × Blanks)
  | [] => []
  | (h, x, a) :: rest => (h.mapPieces f, mapPieces x, a) :: mapPiecesMembers rest
end

end

mutual
/-- The strings of a text, those of keys as well. -/
def strings : Raw → List (List Piece)
  | str ps => [ps]
  | arr _ x _ rest => strings x ++ stringsElems rest
  | obj h x _ rest => h.key :: (strings x ++ stringsMembers rest)
  | _ => []

def stringsElems : List (Blanks × Raw × Blanks) → List (List Piece)
  | [] => []
  | (_, x, _) :: rest => strings x ++ stringsElems rest

def stringsMembers : List (Head × Raw × Blanks) → List (List Piece)
  | [] => []
  | (h, x, _) :: rest => h.key :: (strings x ++ stringsMembers rest)
end

variable {pieceRules : Rules Piece}

lemma turns_blanks (rules : Rules Char) (bs : Blanks) :
    Turns rules (renderBlanks bs) (renderBlanks bs) := by
  refine .refl fun h => ?_
  obtain ⟨b, -, hb⟩ := List.mem_map.mp h
  cases b <;> exact absurd hb (by decide)

lemma turns_number (rules : Rules Char) (n : Number) : Turns rules n.lit n.lit := by
  refine .refl fun h => ?_
  exact absurd ((Number.scan_chars n.valid).1 _ h) (by decide)

lemma turns_head (hne : Nonempty pieceRules) (h : Head) :
    Turns (written pieceRules) h.render (h.mapPieces (substitute pieceRules 0)).render :=
  ((turns_blanks _ _).append (.literal hne _)).append (turns_blanks _ _) |>.append
    (.cons (by decide) (turns_blanks _ _))

mutual
/-- **Substitution in a text.** Where every match begins at a piece of a string, the text becomes
that of the same value with the pieces of its strings replaced. -/
theorem turns_render (hne : Nonempty pieceRules) : ∀ x : Raw,
    Turns (written pieceRules) (render x) (render (mapPieces (substitute pieceRules 0) x))
  | null | bool true | bool false => .refl (by decide)
  | num n => turns_number _ n
  | str ps => .literal hne ps
  | arrNil pad => .cons (by decide) ((turns_blanks _ pad).append (.copy (by decide)))
  | arr b x a rest => .cons (by decide) (((turns_blanks _ b).append (turns_render hne x)).append
      (turns_blanks _ a) |>.append (turns_elems hne rest))
  | objNil pad => .cons (by decide) ((turns_blanks _ pad).append (.copy (by decide)))
  | obj h x a rest => .cons (by decide) (((turns_head hne h).append (turns_render hne x)).append
      (turns_blanks _ a) |>.append (turns_members hne rest))

theorem turns_elems (hne : Nonempty pieceRules) : ∀ rest : List (Blanks × Raw × Blanks),
    Turns (written pieceRules) (renderElems rest)
      (renderElems (mapPiecesElems (substitute pieceRules 0) rest))
  | [] => .copy (by decide)
  | (b, x, a) :: rest => .cons (by decide) (((turns_blanks _ b).append (turns_render hne x)).append
      (turns_blanks _ a) |>.append (turns_elems hne rest))

theorem turns_members (hne : Nonempty pieceRules) : ∀ rest : List (Head × Raw × Blanks),
    Turns (written pieceRules) (renderMembers rest)
      (renderMembers (mapPiecesMembers (substitute pieceRules 0) rest))
  | [] => .copy (by decide)
  | (h, x, a) :: rest => .cons (by decide) (((turns_head hne h).append (turns_render hne x)).append
      (turns_blanks _ a) |>.append (turns_members hne rest))
end

/-- **Substitution keeps a text JSON.** -/
theorem parse_substitute (hne : Nonempty pieceRules) {t : Text} {x : Raw} (h : parse t = some x)
    (ht : Aligned (written pieceRules) 0 .outside t) :
    parse (substitute (written pieceRules) 0 t) =
      some (mapPieces (substitute pieceRules 0) x) := by
  obtain ⟨b, a, rfl⟩ := render_of_parse h
  have hturns := ((turns_blanks (written pieceRules) b).append (turns_render hne x)).append
    (turns_blanks _ a)
  rw [← List.append_nil (renderBlanks b ++ render x ++ renderBlanks a)] at ht ⊢
  rw [(hturns [] ht).1, substitute_nil, List.append_nil]
  exact parse_render b a _

end Raw

/-! ### Decoded strings -/

namespace JsonString

/-- Rules for runes as rules for the pieces that `appendString` writes them as. -/
def spelled (rules : Rules Char) : Rules Piece :=
  rules.map fun r => (r.1.map ofRune, r.2.map ofRune)

/-- How many of the pieces behind a piece belong to its rune. -/
def following (p : Piece) : List Piece → ℕ
  | [] => 0
  | q :: _ => if (pair? p q).isSome then 1 else 0

/-- In the string, of which the first pieces have been replaced, every match in the runes that is
replaced is written as `appendString` writes it. -/
def Spelled (rules : Rules Char) : ℕ → List Piece → Prop
  | _, [] => True
  | read + 1, _ :: ps => Spelled rules read ps
  | 0, p :: ps =>
    match rules.first (runes (p :: ps)) with
    | some r => r.1.map ofRune <+: p :: ps ∧ Spelled rules (r.1.length - 1) ps
    | none => Spelled rules (following p ps) ps

def decideSpelled (rules : Rules Char) : ∀ (n : ℕ) (ps : List Piece), Decidable (Spelled rules n ps)
  | 0, [] | _ + 1, [] => .isTrue trivial
  | read + 1, _ :: ps => decideSpelled rules read ps
  | 0, p :: ps =>
    match h : rules.first (runes (p :: ps)) with
    | some r =>
      have := decideSpelled rules (r.1.length - 1) ps
      decidable_of_iff (r.1.map ofRune <+: p :: ps ∧ Spelled rules (r.1.length - 1) ps)
        (by rw [Spelled, h])
    | none =>
      have := decideSpelled rules (following p ps) ps
      decidable_of_iff (Spelled rules (following p ps) ps) (by rw [Spelled, h])

instance (rules : Rules Char) (n : ℕ) (ps : List Piece) : Decidable (Spelled rules n ps) :=
  decideSpelled rules n ps

lemma runes_append_ofRune (l : List Char) (ps : List Piece) :
    runes (l.map ofRune ++ ps) = l ++ runes ps := by
  induction l with
  | nil => rfl
  | cons c l ih => rw [List.map_cons, List.cons_append, runes_cons_ofRune, ih, List.cons_append]

variable {rules : Rules Char}

lemma spelled_skip (l ps : List Piece) : Spelled rules l.length (l ++ ps) ↔ Spelled rules 0 ps := by
  induction l with
  | nil => rfl
  | cons p l ih => exact ih

lemma spelled_congr {rules' : Rules Char} (h : ∀ t, rules.first t = rules'.first t) (n : ℕ)
    (ps : List Piece) : Spelled rules n ps ↔ Spelled rules' n ps := by
  induction ps generalizing n with
  | nil => cases n <;> rfl
  | cons p ps ih =>
    cases n with
    | succ n => exact ih n
    | zero =>
      rw [Spelled, Spelled, ← h]
      cases rules.first (runes (p :: ps)) with
      | none => exact ih _
      | some r => exact and_congr_right' (ih _)

lemma first_spelled {ps : List Piece}
    (h : ∀ r ∈ rules.first (runes ps), r.1.map ofRune <+: ps) :
    Rules.first (spelled rules) ps =
      (rules.first (runes ps)).map fun r => (r.1.map ofRune, r.2.map ofRune) := by
  induction rules with
  | nil => rfl
  | cons s rules ih =>
    rw [first_cons] at h ⊢
    have hpieces : Rules.first (spelled (s :: rules)) ps =
        if s.1.map ofRune <+: ps then some (s.1.map ofRune, s.2.map ofRune)
        else Rules.first (spelled rules) ps := first_cons _ _ _
    rw [hpieces]
    by_cases hs : s.1 <+: runes ps
    · rw [if_pos hs] at h ⊢
      rw [if_pos (h s rfl), Option.map_some]
    · -- a rule that matches pieces matches their runes
      have hnot : ¬s.1.map ofRune <+: ps := by
        rintro ⟨q, rfl⟩
        exact hs (runes_append_ofRune s.1 q ▸ List.prefix_append _ _)
      rw [if_neg hs] at h ⊢
      rw [if_neg hnot]
      exact ih h

lemma pair?_snd_ofRune (p : Piece) (c : Char) : pair? p (ofRune c) = none := by
  unfold ofRune
  split_ifs with h1 h2 h3 h4 h5 h6 h7 h8 h9 <;> cases p <;> try rfl
  have hn := toNat_of_isHexEscaped h8
  have hu : (Quad.ofUnit c.toNat).unit = c.toNat := Quad.unit_ofUnit (by omega)
  have hl : (Quad.ofUnit c.toNat).isLow = false := by
    simp only [Quad.isLow, hu, Bool.and_eq_false_iff, decide_eq_false_iff_not]
    omega
  simp [pair?, hl]

/-- What is put into a string is not empty, and neither is what it takes the place of. -/
def Filled (rules : Rules Char) : Prop := ∀ r ∈ rules, r.1 ≠ [] ∧ r.2 ≠ []

/-- A text that is replaced goes on as before, or with a rune that is written. -/
lemma head_substitute (hfill : Filled rules) {ps : List Piece} {p : Piece}
    (h : ∀ q ∈ ps.head?, pair? p q = none) :
    ∀ q ∈ (substitute (spelled rules) 0 ps).head?, pair? p q = none := by
  cases ps with
  | nil => exact h
  | cons q ps =>
    cases hf : (spelled rules).first (q :: ps) with
    | none =>
      rw [substitute_copy hf]
      exact h
    | some r =>
      obtain ⟨hr, qs, hqs⟩ := first_eq_some hf
      obtain ⟨s, hs, rfl⟩ := List.mem_map.mp hr
      obtain ⟨h1, h2⟩ := hfill s hs
      obtain ⟨c, l, hl⟩ := List.exists_cons_of_ne_nil h2
      rw [← hqs] at hf ⊢
      rw [substitute_match hf (by simpa using h1), hl]
      rintro q' ⟨⟩
      exact pair?_snd_ofRune p c

lemma runes_cons {p : Piece} {ps : List Piece} (h : ∀ q ∈ ps.head?, pair? p q = none) :
    runes (p :: ps) = p.rune :: runes ps := by
  cases ps with
  | nil => rfl
  | cons q ps => rw [runes, h q rfl]

/-- **Substitution in a string.** Where the matches that are replaced are written as `appendString`
writes them, replacing the pieces is replacing the runes. -/
theorem runes_substitute (hfill : Filled rules) (ps : List Piece) (h : Spelled rules 0 ps) :
    runes (substitute (spelled rules) 0 ps) = substitute rules 0 (runes ps) := by
  induction hn : ps.length using Nat.strong_induction_on generalizing ps with
  | _ n ih =>
    cases ps with
    | nil => rfl
    | cons p ps =>
      rw [Spelled] at h
      cases hf : rules.first (runes (p :: ps)) with
      | some r =>
        rw [hf] at h
        obtain ⟨⟨qs, hqs⟩, hrest⟩ := h
        have hfirst : Rules.first (spelled rules) (p :: ps) =
            some (r.1.map ofRune, r.2.map ofRune) := by
          rw [first_spelled (by simpa [hf] using ⟨qs, hqs⟩), hf, Option.map_some]
        obtain ⟨h1, h2⟩ := hfill r (first_eq_some hf).1
        obtain ⟨c, l, hl⟩ := List.exists_cons_of_ne_nil h1
        have hlen : qs.length < n := by
          have hsum := congrArg List.length hqs
          rw [List.length_append, List.length_map, hl, List.length_cons] at hsum
          omega
        have hqs0 : Spelled rules 0 qs := by
          rw [hl, List.map_cons, List.cons_append] at hqs
          rw [← (List.cons.inj hqs).2, hl, List.length_cons, Nat.add_sub_cancel,
            ← List.length_map ofRune, spelled_skip] at hrest
          exact hrest
        rw [← hqs] at hfirst hf ⊢
        rw [runes_append_ofRune] at hf ⊢
        rw [substitute_match (r := (r.1.map ofRune, r.2.map ofRune)) hfirst (by simpa using h1),
          substitute_match hf h1, runes_append_ofRune, ih _ hlen qs hqs0 rfl]
      | none =>
        rw [hf] at h
        have hfirst : Rules.first (spelled rules) (p :: ps) = none := by
          rw [first_spelled (by simp [hf]), hf, Option.map_none]
        rw [substitute_copy hfirst]
        by_cases hpair : ∀ q ∈ ps.head?, pair? p q = none
        · have hrest : Spelled rules 0 ps := by
            cases ps with
            | nil => trivial
            | cons q ps =>
              rw [following, hpair q rfl] at h
              exact h
          rw [runes_cons hpair] at hf ⊢
          rw [runes_cons (head_substitute hfill hpair), substitute_copy hf,
            ih _ (by rw [← hn]; exact Nat.lt_succ_self _) ps hrest rfl]
        · -- a surrogate pair is copied as a whole
          push Not at hpair
          obtain ⟨q, hq, hc⟩ := hpair
          obtain ⟨c, hc⟩ := Option.ne_none_iff_exists'.mp hc
          cases ps with
          | nil => cases hq
          | cons q' ps =>
            obtain rfl := Option.some.inj hq
            have hsecond : (spelled rules).first (q' :: ps) = none := by
              refine first_eq_none.mpr fun r hr ⟨qs, hqs⟩ => ?_
              obtain ⟨s, hs, rfl⟩ := List.mem_map.mp hr
              obtain ⟨c', l, hl⟩ := List.exists_cons_of_ne_nil (hfill s hs).1
              rw [hl] at hqs
              rw [← (List.cons.inj hqs).1, pair?_snd_ofRune] at hc
              cases hc
            have hrest : Spelled rules 0 ps := by
              rw [following, hc] at h
              exact h
            have hruns (qs : List Piece) : runes (p :: q' :: qs) = c :: runes qs := by
              simp [runes, hc]
            rw [hruns] at hf ⊢
            rw [substitute_copy hsecond, hruns, substitute_copy hf,
              ih _ (by rw [← hn, List.length_cons, List.length_cons]; omega) ps hrest rfl]

end JsonString

namespace JsonOf

variable {ν : Type} (f : String → String)

mutual
/-- The value with its strings replaced, its keys as well. -/
def mapText : JsonOf ν → JsonOf ν
  | str s => str (f s)
  | arr xs => arr (mapTextList xs)
  | obj ms => obj (mapTextMembers ms)
  | v => v

def mapTextList : List (JsonOf ν) → List (JsonOf ν)
  | [] => []
  | x :: xs => mapText x :: mapTextList xs

def mapTextMembers : List (String × JsonOf ν) → List (String × JsonOf ν)
  | [] => []
  | (k, x) :: ms => (f k, mapText x) :: mapTextMembers ms
end

end JsonOf

namespace Raw

open JsonString

section

variable {f : List Piece → List Piece} {g : String → String}

/-- The pieces of a string are replaced as its runes are. -/
def Agree (f : List Piece → List Piece) (g : String → String) (ps : List Piece) : Prop :=
  String.ofList (runes (f ps)) = g (String.ofList (runes ps))

mutual
/-- Replacing the pieces of the strings replaces the strings of the value. -/
theorem tree_mapPieces : ∀ x : Raw, (∀ ps ∈ strings x, Agree f g ps) →
    tree (mapPieces f x) = (tree x).mapText g
  | null, _ | bool true, _ | bool false, _ | num _, _ | arrNil _, _ | objNil _, _ => rfl
  | str ps, h => congrArg JsonOf.str (h ps (List.mem_singleton.mpr rfl))
  | arr b x a rest, h => by
    have hx := tree_mapPieces x fun ps hps => h ps (List.mem_append_left _ hps)
    have hrest := treeElems_mapPieces rest fun ps hps => h ps (List.mem_append_right _ hps)
    rw [mapPieces, tree, tree, JsonOf.mapText, JsonOf.mapTextList, hx, hrest]
  | obj hd x a rest, h => by
    have hkey : Agree f g hd.key := h _ List.mem_cons_self
    have hx := tree_mapPieces x fun ps hps =>
      h ps (List.mem_cons_of_mem _ (List.mem_append_left _ hps))
    have hrest := treeMembers_mapPieces rest fun ps hps =>
      h ps (List.mem_cons_of_mem _ (List.mem_append_right _ hps))
    rw [mapPieces, tree, tree, JsonOf.mapText, JsonOf.mapTextMembers, hx, hrest]
    exact congrArg (fun k => JsonOf.obj ((k, _) :: _)) hkey

theorem treeElems_mapPieces : ∀ rest : List (Blanks × Raw × Blanks),
    (∀ ps ∈ stringsElems rest, Agree f g ps) →
      treeElems (mapPiecesElems f rest) = JsonOf.mapTextList g (treeElems rest)
  | [], _ => rfl
  | (b, x, a) :: rest, h => by
    have hx := tree_mapPieces x fun ps hps => h ps (List.mem_append_left _ hps)
    have hrest := treeElems_mapPieces rest fun ps hps => h ps (List.mem_append_right _ hps)
    rw [mapPiecesElems, treeElems, treeElems, JsonOf.mapTextList, hx, hrest]

theorem treeMembers_mapPieces : ∀ rest : List (Head × Raw × Blanks),
    (∀ ps ∈ stringsMembers rest, Agree f g ps) →
      treeMembers (mapPiecesMembers f rest) = JsonOf.mapTextMembers g (treeMembers rest)
  | [], _ => rfl
  | (hd, x, a) :: rest, h => by
    have hkey : Agree f g hd.key := h _ List.mem_cons_self
    have hx := tree_mapPieces x fun ps hps =>
      h ps (List.mem_cons_of_mem _ (List.mem_append_left _ hps))
    have hrest := treeMembers_mapPieces rest fun ps hps =>
      h ps (List.mem_cons_of_mem _ (List.mem_append_right _ hps))
    rw [mapPiecesMembers, treeMembers, treeMembers, JsonOf.mapTextMembers, hx, hrest]
    exact congrArg (fun k => (k, _) :: _) hkey
end

end

/-- Rules for runes, applied to a string. -/
def substituteString (rules : Rules Char) (s : String) : String :=
  String.ofList (substitute rules 0 s.toList)

/-- **Substitution in a text and in its value.** Where every match begins at a piece of a string,
and what matches in a string is written as `appendString` writes it, replacing in the text is
replacing in the strings of the value. -/
theorem tree_substitute {rules : Rules Char} (hfill : Filled rules) {t : Text} {x : Raw}
    (h : parse t = some x) (ht : Aligned (written (spelled rules)) 0 .outside t)
    (hspelled : ∀ ps ∈ strings x, Spelled rules 0 ps) :
    ∃ y, parse (substitute (written (spelled rules)) 0 t) = some y ∧
      tree y = (tree x).mapText (substituteString rules) := by
  have hne : Nonempty (spelled rules) := by
    intro r hr
    obtain ⟨s, hs, rfl⟩ := List.mem_map.mp hr
    simpa using (hfill s hs).1
  refine ⟨_, parse_substitute hne h ht, tree_mapPieces x fun ps hps => ?_⟩
  rw [Agree, runes_substitute hfill ps (hspelled ps hps), substituteString, String.toList_ofList]

end Raw

end CodexOne
