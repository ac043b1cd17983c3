import CodexOne.Lib.JsonStruct

/-!
What one part of a decoded variable depends on.

Decoding into a struct treats every field by itself. So a part of the variable comes out as if the
struct had that field alone, whatever other fields it has.
-/

namespace CodexOne.Decoder

open GoStrings

variable {σ τ : Type} {get : σ → τ} {d : Decoder σ} {e : Decoder τ}

/-- A part of the variable changes as another decoder changes it. -/
def Views (get : σ → τ) (d : Decoder σ) (e : Decoder τ) : Prop :=
  ∀ r s, get (d r s).1 = (e r (get s)).1

/-- A part of the variable does not change. -/
def Keeps (get : σ → τ) (d : Decoder σ) : Prop := ∀ r s, get (d r s).1 = get s

/-- What holds of the variable is kept. -/
def Preserves (P : σ → Prop) (d : Decoder σ) : Prop := ∀ r s, P s → P (d r s).1

lemma member_fst (fields : List (String × Decoder σ)) (m : String × Raw) (s : σ × Bool) :
    (member fields m s).1 =
      ((fields.find? fun f => fieldNamed m.1 f.1).elim s.1 fun f => (f.2 m.2 s.1).1) := by
  rw [member]
  cases fields.find? fun f => fieldNamed m.1 f.1 <;> rfl

lemma struct_induct {fields : List (String × Decoder σ)} {P : σ → Prop}
    (h : ∀ f ∈ fields, Preserves P f.2) : Preserves P (struct fields) := by
  intro r s hs
  rw [struct]
  split
  · rename_i ms _
    suffices ∀ (ms : List (String × Raw)) (s : σ × Bool), P s.1 →
        P (ms.foldl (fun s m => member fields m s) s).1 from this ms (s, true) hs
    intro ms
    induction ms with
    | nil => exact fun s hs => hs
    | cons m ms ih =>
      intro s hs
      refine ih _ ?_
      rw [member_fst]
      cases hf : fields.find? fun f => fieldNamed m.1 f.1 with
      | none => exact hs
      | some f => exact h f (List.mem_of_find?_eq_some hf) _ _ hs
  · -- what is no object leaves the variable as it is
    exact hs

lemma struct_keeps {fields : List (String × Decoder σ)} (h : ∀ f ∈ fields, Keeps get f.2) :
    Keeps get (struct fields) := fun r s =>
  struct_induct (P := fun t => get t = get s) (fun f hf r t ht => (h f hf r t).trans ht) r s rfl

/-- What a field of a struct does to a part of the variable: it is one of the fields that the part
is decoded from, or it leaves the part alone. -/
inductive Field (get : σ → τ) (parts : List (String × Decoder τ)) (f : String × Decoder σ) :
    Prop where
  | views (g : String × Decoder τ) (hg : g ∈ parts) (hname : f.1 = g.1) (h : Views get f.2 g.2)
  | keeps (hname : ∀ g ∈ parts, equalFold f.1 g.1 = false) (h : Keeps get f.2)

/-- The names of the fields differ, up to case. -/
def Separate (fields : List (String × Decoder σ)) : Prop :=
  fields.Pairwise fun f g => equalFold f.1 g.1 = false

lemma fieldNamed_iff {key name : String} :
    fieldNamed key name = true ↔ key.toList.map foldRune = name.toList.map foldRune := by
  simp [fieldNamed, equalFold]

lemma find?_separate {fields : List (String × Decoder σ)} (hsep : Separate fields) {key : String}
    {g : String × Decoder σ} (hg : g ∈ fields) (hname : fieldNamed key g.1 = true) :
    fields.find? (fun f => fieldNamed key f.1) = some g := by
  induction fields with
  | nil => cases hg
  | cons f fields ih =>
    obtain ⟨hf, hrest⟩ := List.pairwise_cons.mp hsep
    rcases List.mem_cons.mp hg with rfl | hg
    · simp only [List.find?_cons, hname]
    · have hne : fieldNamed key f.1 = false := Bool.eq_false_iff.mpr fun h => by
        have hfg := hf g hg
        rw [fieldNamed_iff] at h hname
        simp [equalFold, ← h, ← hname] at hfg
      simp only [List.find?_cons, hne]
      exact ih hrest hg

/-- **Fields are decoded by themselves.** When the fields of a struct that a part of the variable
is decoded from change it as the fields of another struct do, and the others leave it alone, the
struct changes the part as the other struct does. -/
theorem struct_views {fields : List (String × Decoder σ)} {parts : List (String × Decoder τ)}
    (hsep : Separate parts) (hmem : ∀ g ∈ parts, g.1 ∈ fields.map Prod.fst)
    (hfields : ∀ f ∈ fields, Field get parts f) :
    Views get (struct fields) (struct parts) := by
  have step : ∀ (m : String × Raw) (s : σ × Bool) (t : τ × Bool), get s.1 = t.1 →
      get (member fields m s).1 = (member parts m t).1 := by
    intro m s t hst
    rw [member_fst, member_fst]
    cases hf : fields.find? fun f => fieldNamed m.1 f.1 with
    | none =>
      -- a field of the part that is found would have been found in the struct
      cases hg : parts.find? fun g => fieldNamed m.1 g.1 with
      | none => exact hst
      | some g =>
        obtain ⟨f, hfm, hname⟩ := List.mem_map.mp (hmem g (List.mem_of_find?_eq_some hg))
        have hgname : fieldNamed m.1 g.1 = true := by simpa using List.find?_some hg
        exact absurd (hname ▸ hgname) (List.find?_eq_none.mp hf f hfm)
    | some f =>
      have hfname : fieldNamed m.1 f.1 = true := by simpa using List.find?_some hf
      cases hfields f (List.mem_of_find?_eq_some hf) with
      | views g hg hname h =>
        rw [find?_separate hsep hg (hname ▸ hfname)]
        simpa [hst] using h m.2 s.1
      | keeps hname h =>
        have hnone : parts.find? (fun g => fieldNamed m.1 g.1) = none := by
          rw [List.find?_eq_none]
          intro g hg hgname
          have := hname g hg
          rw [fieldNamed_iff] at hfname hgname
          simp [equalFold, ← hfname, ← hgname] at this
        rw [hnone]
        exact (h m.2 s.1).trans hst
  intro r s
  rw [struct, struct]
  cases r.pairs with
  | none => rfl
  | some ms =>
    suffices ∀ (ms : List (String × Raw)) (s : σ × Bool) (t : τ × Bool), get s.1 = t.1 →
        get (ms.foldl (fun s m => member fields m s) s).1 =
          (ms.foldl (fun t m => member parts m t) t).1 from
      this ms (s, true) (get s, true) rfl
    intro ms
    induction ms with
    | nil => exact fun s t hst => hst
    | cons m ms ih => exact fun s t hst => ih _ _ (step m s t hst)

/-- Two structs give parts that are decoded alike the same value. -/
lemma Views.eq {σ' : Type} {get' : σ' → τ} {d' : Decoder σ'} (h : Views get d e)
    (h' : Views get' d' e) (r : Raw) (s : σ) (s' : σ') (hs : get s = get' s') :
    get (d r s).1 = get' (d' r s').1 := by
  rw [h, h', hs]

lemma struct_snd {fields : List (String × Decoder σ)} (fits : String → Raw → Bool)
    (h : ∀ f ∈ fields, ∀ r s, (f.2 r s).2 = fits f.1 r) (r : Raw) (s : σ) :
    (struct fields r s).2 = r.pairs.elim (decide (r.tree = .null)) fun ms => ms.all fun m =>
      (fields.find? fun f => fieldNamed m.1 f.1).all fun f => fits f.1 m.2 := by
  have hstep (m : String × Raw) (s : σ × Bool) : (member fields m s).2 =
      (s.2 && (fields.find? fun f => fieldNamed m.1 f.1).all fun f => fits f.1 m.2) := by
    rw [member]
    cases hf : fields.find? fun f => fieldNamed m.1 f.1 with
    | none => simp
    | some f => simp [h f (List.mem_of_find?_eq_some hf)]
  rw [struct]
  cases r.pairs with
  | none => rfl
  | some ms =>
    suffices ∀ s : σ × Bool, (ms.foldl (fun s m => member fields m s) s).2 = (s.2 && ms.all fun m =>
        (fields.find? fun f => fieldNamed m.1 f.1).all fun f => fits f.1 m.2) by
      simpa using this (s, true)
    induction ms with
    | nil => exact fun s => by simp
    | cons m ms ih =>
      exact fun s => by rw [List.foldl_cons, ih, hstep, List.all_cons, Bool.and_assoc]

/-- The value is one of an `int64`. -/
def IsInt64 (i : Int) : Prop := -2 ^ 63 ≤ i ∧ i < 2 ^ 63

lemma isInt64_of_int64? {n : Number} {i : Int} (h : n.int64? = some i) : IsInt64 i := by
  have := Option.filter_eq_some_iff.mp h
  simpa [IsInt64] using this.2

lemma int64_preserves : Preserves IsInt64 int64 := by
  intro r s hs
  rw [int64]
  split
  · rename_i n _
    cases hn : n.int64? with
    | none => exact hs
    | some i => exact isInt64_of_int64? hn
  · exact hs
  · exact hs

end CodexOne.Decoder
