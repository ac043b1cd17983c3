import CodexOne.Familiar
import CodexOne.Lib.Naming
import CodexOne.Sanitizing

/-!
When two items of one request collide in the reverse table.

An id that is rewritten is remembered under the name it is sent under. Two items collide when they
are sent under one name with ids of their own, which happens in two ways: ids that differ in white
space around them have one pseudonym, and an id may be rewritten to the very name that an earlier
item was given because its own was too long or reserved.
-/

namespace CodexOne.Compat

open Members JsonOf GoStrings Identity Naming

variable {d : Digests} {fuel : ℕ} {store remap : Bool} {keyID : String}
  {reserved used : List String}
  {items : List Json} {i j k : Identity}

def wanted (d : Digests) (remap : Bool) (keyID : String) (item : Obj) : String :=
  wantedItemID d remap keyID item (Obj.val item "id").text

/-- What is asked for an item that is not sent as it is: the wanted id, or a shortened one if that
is too long or reserved. -/
def askOf (d : Digests) (remap : Bool) (keyID : String) (reserved : List String) (item : Obj) :
    Ask String String :=
  if (wanted d remap keyID item).length ≤ codexInputItemIDLimit ∧
      wanted d remap keyID item ∉ reserved then .fixed (wanted d remap keyID item)
  else .search (wanted d remap keyID item)

/-- The item that is left of a value, if it is not sent as it is. -/
def rewritten (store : Bool) : Json → Option Obj
  | .obj item => (keptObject store item).filter fun kept =>
      (Obj.val kept "id").text ≠ "" ∧ ¬Verbatim kept
  | _ => none

def rewrittenItems (store : Bool) (items : List Json) : List Obj :=
  items.filterMap (rewritten store)

/-- The asks for items, each with the id of the item. -/
def entriesOf (d : Digests) (remap : Bool) (keyID : String) (reserved : List String)
    (rewritten : List Obj) : List (Ask String String × String) :=
  rewritten.map fun item => (askOf d remap keyID reserved item, (Obj.val item "id").text)

lemma uniqueCodexInputItemID_eq {w : String} {m : ℕ} (hm : m < fuel)
    (hnew : shortenCodexInputItemID d w m ∉ reserved ∧ shortenCodexInputItemID d w m ∉ used)
    (hfirst : ∀ k < m, shortenCodexInputItemID d w k ∈ reserved ∨
      shortenCodexInputItemID d w k ∈ used) :
    uniqueCodexInputItemID d fuel w reserved used = some (shortenCodexInputItemID d w m) := by
  have hrun : ∀ n a, a ≤ m → m < a + n →
      uniqueCodexInputItemIDFrom d w reserved used n a =
        some (shortenCodexInputItemID d w m) := by
    intro n
    induction n with
    | zero => intro a h1 h2; omega
    | succ n ih =>
      intro a h1 h2
      rw [uniqueCodexInputItemIDFrom]
      rcases Nat.lt_or_eq_of_le h1 with hlt | rfl
      · rw [if_pos (hfirst a hlt)]
        exact ih (a + 1) hlt (by omega)
      · rw [if_neg (not_or.mpr hnew)]
  exact hrun fuel 0 (Nat.zero_le m) (by omega)

lemma wanted_ne_of_reserved {item : Obj} (hv : ¬Verbatim item)
    (hres : ∀ x ∈ reserved, x.length ≤ codexInputItemIDLimit)
    (hm : wanted d remap keyID item ∈ reserved) :
    wanted d remap keyID item ≠ (Obj.val item "id").text := fun he => by
  have hlen := hres _ hm
  have hlong := wanted_ne hv he
  rw [he] at hlen
  omega

lemma upstreamItemID_of_ask {item : Obj} (hv : ¬Verbatim item)
    (hres : ∀ x ∈ reserved, x.length ≤ codexInputItemIDLimit) :
    upstreamItemID d fuel remap keyID reserved used item (Obj.val item "id").text =
      match askOf d remap keyID reserved item with
      | .fixed w => some w
      | .search w => uniqueCodexInputItemID d fuel w reserved used := by
  have hne : wanted d remap keyID item ∈ reserved →
      wanted d remap keyID item ≠ (Obj.val item "id").text := wanted_ne_of_reserved hv hres
  unfold upstreamItemID askOf
  rw [← wanted]
  generalize wanted d remap keyID item = w at hne ⊢
  by_cases hm : w ∈ reserved
  · rw [if_pos ⟨hm, hne hm⟩, if_neg fun hc => hc.2 hm]
    cases hu : uniqueCodexInputItemID d fuel w reserved used with
    | none => exact hu.symm
    | some n =>
      obtain ⟨-, -, a, rfl⟩ := uniqueCodexInputItemID_ok hu
      rw [Option.bind_eq_bind, Option.bind_some]
      dsimp only
      rw [if_neg (not_lt.mpr (shortenCodexInputItemID_length d w a)), hu]
  · rw [if_neg fun hc => hm hc.1, Option.bind_eq_bind, Option.bind_some]
    dsimp only
    by_cases hlen : w.length ≤ codexInputItemIDLimit
    · rw [if_neg (not_lt.mpr hlen), if_pos ⟨hlen, hm⟩]
    · rw [if_pos (not_le.mp hlen), if_neg fun hc => hlen hc.1]

lemma ne_of_rewritten {item : Obj} {n : String} (hv : ¬Verbatim item)
    (hid : (Obj.val item "id").text ≠ "")
    (h : upstreamItemID d fuel remap keyID reserved used item (Obj.val item "id").text = some n) :
    n ≠ (Obj.val item "id").text := by
  rintro rfl
  exact hv ⟨canonical_of_hasPrefix (upstreamItemID_hasPrefix hid h), upstreamItemID_length h⟩

lemma remember_err (hi : i.mappingErr = none) {u c : String} :
    (i.remember u c).mappingErr = none ∨ (i.remember u c).mappingErr = some collision ∨
      (i.remember u c).mappingErr = some budgetExceeded := by
  unfold remember
  by_cases h1 : u = "" ∨ c = "" ∨ u = c
  · rw [if_pos h1]
    exact .inl hi
  rw [if_neg h1, if_neg (not_not.mpr hi)]
  split
  · split_ifs
    · exact .inr (.inl rfl)
    · exact .inl hi
  · split_ifs
    · exact .inr (.inr rfl)
    · exact .inl hi

/-- An entry that does not clash is added, unless the budget is exceeded. -/
lemma remember_ok {u c : String} (hi : i.mappingErr = none) (hidle : ¬Idle u c)
    (hu : ∀ c', (u, c') ∈ i.reverse → c' = c) :
    (i.remember u c).mappingErr = some budgetExceeded ∨
      (i.remember u c).mappingErr = none ∧
        ∀ e, e ∈ (i.remember u c).reverse ↔ e ∈ i.reverse ∨ e = (u, c) := by
  rcases remember_err hi with hr | hr | hr
  · refine .inr ⟨hr, fun e => ⟨fun he => ?_, fun he => ?_⟩⟩
    · exact mem_remember he
    · rcases he with he | rfl
      · exact (extends_remember i u c).reverse.subset he
      · exact mem_of_remember (.refl _) hr hidle
  · obtain ⟨c', hmem, hne⟩ := remember_collision (by rw [hi]; exact nofun) hr
    exact absurd (hu c' hmem) hne
  · exact .inl hr

lemma remember_clash {u c c' : String} (hi : i.mappingErr = none) (hidle : ¬Idle u c)
    (hmem : (u, c') ∈ i.reverse) (hne : c' ≠ c) :
    (i.remember u c).mappingErr = some collision := by
  have hlookup := (lookup_eq_some_iff i.distinct).mpr hmem
  unfold remember
  rw [if_neg (show ¬(u = "" ∨ c = "" ∨ u = c) from hidle), if_neg (not_not.mpr hi)]
  split
  · rename_i existing hex
    rw [hlookup] at hex
    rw [if_pos (Option.some.inj hex ▸ hne)]
  · rename_i hno
    rw [hlookup] at hno
    cases hno

/-! ### One item -/

/-- The loop has handled the items of some entries, and none of them clashed. -/
structure Ready (d : Digests) (remap : Bool) (keyID : String) (reserved : List String) (bound : ℕ)
    (own : String → Prop) (entries : List (Ask String String × String)) (used : List String)
    (i : Identity) : Prop where
  remap : i.remap = remap
  key : i.keyID = keyID
  err : i.mappingErr = none
  clear : Clear (shortenCodexInputItemID d) reserved bound entries
  used : ∀ x ∉ reserved,
    x ∈ used ↔ Given (shortenCodexInputItemID d) reserved bound (asksOf entries) x
  table : Records (shortenCodexInputItemID d) reserved bound entries
    fun u c => (u, c) ∈ i.reverse ∧ own u

variable {bound : ℕ} {own : String → Prop} {entries : List (Ask String String × String)}
  {starts : String → Prop}

lemma Ready.verbatim (h : Ready d remap keyID reserved bound own entries used i) {n : String}
    (hn : n ∈ reserved) : Ready d remap keyID reserved bound own entries (n :: used) i := by
  refine ⟨h.remap, h.key, h.err, h.clear, fun x hx => ?_, h.table⟩
  rw [List.mem_cons, h.used x hx]
  exact or_iff_right fun he => hx (he ▸ hn)

lemma Ready.search (h : Ready d remap keyID reserved bound own entries used i) {w : String}
    (hapart : Naming.Apart (shortenCodexInputItemID d) starts bound)
    (hasks : ∀ v, .search v ∈ asksOf entries → starts v) (hw : starts w)
    (hbound : reserved.length + entries.length < bound) (hfuel : bound ≤ fuel) :
    ∃ m < bound, Free (shortenCodexInputItemID d) reserved (asksOf entries) w m ∧
      Nat.count (Free (shortenCodexInputItemID d) reserved (asksOf entries) w) m =
        searches (asksOf entries) w ∧
      shortenCodexInputItemID d w m ∉ used ∧
      uniqueCodexInputItemID d fuel w reserved used = some (shortenCodexInputItemID d w m) := by
  have hlen : reserved.length + (asksOf entries).length < bound := by rwa [List.length_map]
  obtain ⟨m, hm, hfree, hcount⟩ :=
    exists_next (fun a ha b hb he => (hapart w w hw hw a ha b hb he).2) hlen
  have hnew : shortenCodexInputItemID d w m ∉ used := fun hu => by
    rcases (h.used _ hfree.1).mp hu with hfixed | ⟨v, k, hk, ht, he⟩
    · exact hfree.2 hfixed
    · obtain ⟨rfl, rfl⟩ := hapart v w (hasks v ht.mem) hw k hk m hm he
      exact absurd ht.2 hcount.not_lt
  refine ⟨m, hm, hfree, hcount, hnew, uniqueCodexInputItemID_eq (by omega) ⟨hfree.1, hnew⟩ ?_⟩
  intro k hk
  by_cases hr : shortenCodexInputItemID d w k ∈ reserved
  · exact .inl hr
  · refine .inr ((h.used _ hr).mpr ?_)
    by_cases hf : .fixed (shortenCodexInputItemID d w k) ∈ asksOf entries
    · exact .inl hf
    · have hkfree : Free (shortenCodexInputItemID d) reserved (asksOf entries) w k := ⟨hr, hf⟩
      have hlt := Nat.count_strict_mono hkfree hk
      exact .inr ⟨w, k, by omega, ⟨hkfree, by omega⟩, rfl⟩

lemma Ready.concat_search (h : Ready d remap keyID reserved bound own entries used i) {w c : String}
    {m : ℕ} (hm : m < bound)
    (hfree : Free (shortenCodexInputItemID d) reserved (asksOf entries) w m)
    (hcount : Nat.count (Free (shortenCodexInputItemID d) reserved (asksOf entries) w) m =
      searches (asksOf entries) w)
    (hnew : shortenCodexInputItemID d w m ∉ used) (hown : own (shortenCodexInputItemID d w m))
    (hidle : ¬Idle (shortenCodexInputItemID d w m) c)
    (hbudget : (i.remember (shortenCodexInputItemID d w m) c).mappingErr ≠ some budgetExceeded) :
    Ready d remap keyID reserved bound own (entries ++ [(.search w, c)])
      (shortenCodexInputItemID d w m :: used) (i.remember (shortenCodexInputItemID d w m) c) := by
  have hext := extends_remember i (shortenCodexInputItemID d w m) c
  have hasks : asksOf (entries ++ [(Ask.search w, c)]) = asksOf entries ++ [.search w] := by simp
  obtain ⟨herr, hmem⟩ := (remember_ok h.err hidle fun c' hc' => absurd
    ((h.used _ hfree.1).mpr (h.table.given ⟨hc', hown⟩)) hnew).resolve_left hbudget
  refine ⟨hext.remap ▸ h.remap, hext.keyID ▸ h.key, herr, ?_, fun x hx => ?_, ?_⟩
  · exact clear_concat.mpr ⟨h.clear, fun x hx => by cases hx⟩
  · rw [hasks, given_search hm hfree hcount, List.mem_cons, h.used x hx, or_comm]
  · refine (h.table.concat_search hm hfree hcount c).congr fun x d => ?_
    rw [hmem, Prod.mk.injEq, or_and_right]
    exact or_congr_right (and_iff_left_of_imp fun he => he.1 ▸ hown)

lemma Ready.concat_fixed (h : Ready d remap keyID reserved bound own entries used i)
    {x c : String} (hapart : Naming.Apart (shortenCodexInputItemID d) starts bound)
    (hasks : ∀ v, .search v ∈ asksOf entries → starts v) (hown : own x) (hidle : ¬Idle x c)
    (hother : ∀ w, ∀ m < bound, shortenCodexInputItemID d w m = x → (.search w, c) ∉ entries)
    (hbudget : (i.remember x c).mappingErr ≠ some budgetExceeded) :
    Ready d remap keyID reserved bound own (entries ++ [(.fixed x, c)]) (x :: used)
        (i.remember x c) ∨
      ¬Clear (shortenCodexInputItemID d) reserved bound (entries ++ [(.fixed x, c)]) ∧
        (i.remember x c).mappingErr = some collision := by
  by_cases hclear : Clear (shortenCodexInputItemID d) reserved bound (entries ++ [(.fixed x, c)])
  · obtain ⟨hsame, huntaken⟩ := (clear_concat.mp hclear).2 x rfl
    have hext := extends_remember i x c
    have hconcat : asksOf (entries ++ [(Ask.fixed x, c)]) = asksOf entries ++ [.fixed x] := by simp
    obtain ⟨herr, hmem⟩ := (remember_ok h.err hidle fun c' hc' => by
      rcases h.table.only x c' ⟨hc', hown⟩ with hf | ⟨w, m, hm, ht, he, -⟩
      · exact hsame c' hf
      · exact absurd ht (huntaken w m hm he)).resolve_left hbudget
    refine .inl ⟨hext.remap ▸ h.remap, hext.keyID ▸ h.key, herr, hclear, fun y hy => ?_, ?_⟩
    · rw [hconcat, given_fixed hapart hasks huntaken, List.mem_cons, h.used y hy, or_comm]
    · refine (h.table.concat_fixed hapart hasks huntaken c).congr fun y d => ?_
      rw [hmem, Prod.mk.injEq, or_and_right]
      exact or_congr_right (and_iff_left_of_imp fun he => he.1 ▸ hown)
  · -- another id has the name already, as it is or as a candidate
    refine .inr ⟨hclear, ?_⟩
    have hstep : ¬((∀ c', (.fixed x, c') ∈ entries → c' = c) ∧
        Untaken (shortenCodexInputItemID d) reserved bound (asksOf entries) x) := fun hs =>
      hclear (clear_concat.mpr ⟨h.clear, fun y hy => Ask.fixed.inj hy ▸ hs⟩)
    rw [not_and_or] at hstep
    rcases hstep with hsame | htaken
    · rw [not_forall] at hsame
      obtain ⟨c', hc'⟩ := hsame
      rw [Classical.not_imp] at hc'
      exact remember_clash h.err hidle (h.table.fixed x c' hc'.1).1 hc'.2
    · unfold Untaken at htaken
      push Not at htaken
      obtain ⟨w, m, hm, he, ht⟩ := htaken
      obtain ⟨c', hc', hmem, -⟩ := h.table.found w m hm ht
      rw [he] at hmem
      exact remember_clash h.err hidle hmem fun hcc => hother w m hm he (hcc ▸ hc')

structure Rewritten (item : Obj) : Prop where
  id : (Obj.val item "id").text ≠ ""
  notVerbatim : ¬Verbatim item

lemma rewritten_of_mem {item : Obj} (h : item ∈ rewrittenItems store items) : Rewritten item := by
  obtain ⟨value, -, hr⟩ := List.mem_filterMap.mp h
  cases value with
  | obj o =>
    obtain ⟨-, hp⟩ := Option.filter_eq_some_iff.mp hr
    have hp := of_decide_eq_true hp
    exact ⟨hp.1, hp.2⟩
  | _ => cases hr

lemma entriesOf_concat (done : List Obj) (item : Obj) :
    entriesOf d remap keyID reserved (done ++ [item]) = entriesOf d remap keyID reserved done ++
      [(askOf d remap keyID reserved item, (Obj.val item "id").text)] := by
  simp [entriesOf]

lemma mem_entriesOf {done : List Obj} {entry : Ask String String × String}
    (h : entry ∈ entriesOf d remap keyID reserved done) : ∃ item ∈ done,
      askOf d remap keyID reserved item = entry.1 ∧ (Obj.val item "id").text = entry.2 := by
  obtain ⟨item, hitem, rfl⟩ := List.mem_map.mp h
  exact ⟨item, hitem, rfl, rfl⟩

lemma askOf_search {item : Obj} {w : String} (h : askOf d remap keyID reserved item = .search w) :
    w = wanted d remap keyID item ∧
      (w.length ≤ codexInputItemIDLimit → w ∈ reserved) := by
  unfold askOf at h
  split_ifs at h with hc
  obtain rfl := Ask.search.inj h
  exact ⟨rfl, fun hlen => by_contra fun hr => hc ⟨hlen, hr⟩⟩

lemma askOf_fixed {item : Obj} {x : String} (h : askOf d remap keyID reserved item = .fixed x) :
    x = wanted d remap keyID item ∧ x.length ≤ codexInputItemIDLimit ∧ x ∉ reserved := by
  unfold askOf at h
  split_ifs at h with hc
  obtain rfl := Ask.fixed.inj h
  exact ⟨rfl, hc⟩

lemma sanitizeItemID_run {item : Obj} {n : String} (hr : i.remap = remap) (hk : i.keyID = keyID)
    (hid : (Obj.val item "id").text ≠ "")
    (hn : upstreamItemID d fuel remap keyID reserved used item (Obj.val item "id").text = some n)
    (hne : n ≠ (Obj.val item "id").text) :
    (sanitizeItemID d fuel reserved used item).run i =
      (.ok (set item "id" (.str n), n :: used), i.remember n (Obj.val item "id").text) := by
  subst hr hk
  rw [sanitizeItemID, IdentityM.run_self_bind]
  dsimp only
  rw [if_neg hid, hn]
  dsimp only
  rw [if_pos hne]
  rfl

lemma sanitizeItemID_run_verbatim {item : Obj} (hid : (Obj.val item "id").text ≠ "")
    (hv : Verbatim item) :
    (sanitizeItemID d fuel reserved used item).run i =
      (.ok (item, (Obj.val item "id").text :: used), i) := by
  rw [sanitizeItemID, IdentityM.run_self_bind]
  dsimp only
  rw [if_neg hid, upstreamItemID_of_verbatim hv]
  dsimp only
  rw [if_neg (not_not.mpr rfl)]
  rfl

/-- The names of a rewritten item are in the part of the table that the items have. -/
structure Owned (d : Digests) (remap : Bool) (keyID : String) (own : String → Prop) : Prop where
  fixed : ∀ item, Rewritten item → own (wanted d remap keyID item)
  found : ∀ item, Rewritten item → ∀ m,
    own (shortenCodexInputItemID d (wanted d remap keyID item) m)

/-- Two items of one id are not sent under a shortened and a wanted name that are the same. -/
def Foreign (d : Digests) (remap : Bool) (keyID : String) (reserved : List String) : Prop :=
  ∀ a b, Rewritten a → Rewritten b → ∀ w m, askOf d remap keyID reserved a = .search w →
    askOf d remap keyID reserved b = .fixed (shortenCodexInputItemID d w m) →
      (Obj.val a "id").text ≠ (Obj.val b "id").text

variable {done : List Obj} {item : Obj}

lemma Ready.step (hown : Owned d remap keyID own) (hforeign : Foreign d remap keyID reserved)
    (hres : ∀ x ∈ reserved, x.length ≤ codexInputItemIDLimit)
    (hapart : Naming.Apart (shortenCodexInputItemID d) starts bound)
    (hstarts : ∀ o ∈ done, ∀ w, askOf d remap keyID reserved o = .search w → starts w)
    (hw : ∀ w, askOf d remap keyID reserved item = .search w → starts w)
    (hdone : ∀ o ∈ done, Rewritten o) (hitem : Rewritten item)
    (hbound : reserved.length + done.length < bound) (hfuel : bound ≤ fuel)
    (h : Ready d remap keyID reserved bound own (entriesOf d remap keyID reserved done) used i)
    {x : Except String (Obj × List String)}
    (hrun : (sanitizeItemID d fuel reserved used item).run i = (x, j))
    (hbudget : j.mappingErr ≠ some budgetExceeded) :
    ∃ n, x = .ok (set item "id" (.str n), n :: used) ∧
      (Ready d remap keyID reserved bound own (entriesOf d remap keyID reserved (done ++ [item]))
          (n :: used) j ∨
        ¬Clear (shortenCodexInputItemID d) reserved bound
          (entriesOf d remap keyID reserved (done ++ [item])) ∧ j.mappingErr = some collision) := by
  have hask := @upstreamItemID_of_ask d fuel remap keyID reserved used item hitem.notVerbatim hres
  have hasks : ∀ v, .search v ∈ asksOf (entriesOf d remap keyID reserved done) → starts v := by
    intro v hv
    obtain ⟨entry, hentry, he⟩ := List.mem_map.mp hv
    obtain ⟨o, ho, hoa, -⟩ := mem_entriesOf hentry
    exact hstarts o ho v (hoa.trans he)
  have hidle {n : String} (hn : upstreamItemID d fuel remap keyID reserved used item
      (Obj.val item "id").text = some n) : ¬Idle n (Obj.val item "id").text := by
    rintro (rfl | he | he)
    · exact upstreamItemID_ne_empty hitem.id hn rfl
    · exact hitem.id he
    · exact ne_of_rewritten hitem.notVerbatim hitem.id hn he
  rw [entriesOf_concat]
  cases ha : askOf d remap keyID reserved item with
  | fixed w =>
    rw [ha] at hask
    dsimp only at hask
    have hne := ne_of_rewritten hitem.notVerbatim hitem.id hask
    rw [sanitizeItemID_run h.remap h.key hitem.id hask hne, Prod.mk.injEq] at hrun
    obtain ⟨rfl, rfl⟩ := hrun
    refine ⟨w, rfl, h.concat_fixed hapart hasks ((askOf_fixed ha).1 ▸ hown.fixed item hitem)
      (hidle hask) (fun v m hm he hmem => ?_) hbudget⟩
    obtain ⟨o, ho, hoa, hoid⟩ := mem_entriesOf hmem
    exact hforeign o item (hdone o ho) hitem v m hoa (he ▸ ha) hoid
  | search w =>
    rw [ha] at hask
    dsimp only at hask
    have hstart := hw w ha
    obtain rfl := (askOf_search ha).1
    obtain ⟨m, hm, hfree, hcount, hnew, hu⟩ := h.search hapart hasks hstart
      (by rwa [entriesOf, List.length_map]) hfuel
    have hask := hask.trans hu
    have hne := ne_of_rewritten hitem.notVerbatim hitem.id hask
    rw [sanitizeItemID_run h.remap h.key hitem.id hask hne, Prod.mk.injEq] at hrun
    obtain ⟨rfl, rfl⟩ := hrun
    refine ⟨shortenCodexInputItemID d (wanted d remap keyID item) m, rfl, .inl ?_⟩
    exact h.concat_search hm hfree hcount hnew (hown.found item hitem m) (hidle hask) hbudget

lemma sanitizeItems_run {item kept : Obj} {rest : List Json} {x : Obj × List String}
    (hk : keptObject store item = some kept)
    (hx : (sanitizeItemID d fuel reserved used kept).run i = (.ok x, j)) :
    (sanitizeItems d fuel store reserved (.obj item :: rest) used).run i =
      (do let rest ← sanitizeItems d fuel store reserved rest x.2
          pure (.obj x.1 :: rest) : IdentityM (List Json)).run j := by
  rw [sanitizeItems, ← keptObject, hk]
  dsimp only
  rw [IdentityM.run_bind, hx]

lemma run_map {α β : Type} {m : IdentityM α} {f : α → β} {res : Except String β}
    (h : (do let a ← m; pure (f a) : IdentityM β).run i = (res, j)) :
    ∃ res', m.run i = (res', j) ∧ ((∃ b, res = .ok b) ↔ ∃ a, res' = .ok a) := by
  rw [IdentityM.run_bind] at h
  rcases hm : m.run i with ⟨e | a, k⟩ <;> rw [hm] at h
  · cases h
    exact ⟨_, rfl, by simp⟩
  · cases h
    exact ⟨_, rfl, by simp⟩

lemma sanitizeItems_stuck {item kept : Obj} {rest : List Json}
    {x : Except String (Obj × List String)} {res : Except String (List Json)}
    (hk : keptObject store item = some kept)
    (hx : (sanitizeItemID d fuel reserved used kept).run i = (x, k))
    (hrun : (sanitizeItems d fuel store reserved (.obj item :: rest) used).run i = (res, j))
    (herr : k.mappingErr ≠ none) : j = k := by
  rw [sanitizeItems, ← keptObject, hk] at hrun
  dsimp only at hrun
  rw [IdentityM.run_bind, hx] at hrun
  rcases x with e | ⟨o, used'⟩
  · cases hrun
    rfl
  · dsimp only at hrun
    obtain ⟨res', hrun', -⟩ := run_map hrun
    have hext := (tracks_sanitizeItems d fuel store reserved rest used').run k
    rw [hrun'] at hext
    exact hext.stuck herr

/-- The loop ends without an error if its items are clear, and with a collision otherwise. -/
def Ends (d : Digests) (remap : Bool) (keyID : String) (reserved : List String) (bound : ℕ)
    (rewritten : List Obj) {α : Type} (res : Except String α) (j : Identity) : Prop :=
  Clear (shortenCodexInputItemID d) reserved bound (entriesOf d remap keyID reserved rewritten) ∧
      (∃ out, res = .ok out) ∧ j.mappingErr = none ∨
    ¬Clear (shortenCodexInputItemID d) reserved bound
        (entriesOf d remap keyID reserved rewritten) ∧
      j.mappingErr = some collision

lemma Ends.congr {α β : Type} {rewritten : List Obj} {res : Except String α}
    {res' : Except String β} (h : Ends d remap keyID reserved bound rewritten res' j)
    (hres : (∃ b, res = .ok b) ↔ ∃ a, res' = .ok a) :
    Ends d remap keyID reserved bound rewritten res j := by
  unfold Ends at h ⊢
  rwa [hres]

lemma Ready.run (hown : Owned d remap keyID own) (hforeign : Foreign d remap keyID reserved)
    (hres : ∀ x ∈ reserved, x.length ≤ codexInputItemIDLimit)
    (hapart : Naming.Apart (shortenCodexInputItemID d) starts bound)
    (hstarts : ∀ o ∈ done ++ rewrittenItems store items, ∀ w,
      askOf d remap keyID reserved o = .search w → starts w)
    (hdone : ∀ o ∈ done, Rewritten o)
    (hkept : ∀ item kept, .obj item ∈ items → keptObject store item = some kept →
      (Obj.val kept "id").text ≠ "" → Verbatim kept → (Obj.val kept "id").text ∈ reserved)
    (hbound : reserved.length + (done ++ rewrittenItems store items).length ≤ bound)
    (hfuel : bound ≤ fuel)
    (h : Ready d remap keyID reserved bound own (entriesOf d remap keyID reserved done) used i)
    {res : Except String (List Json)}
    (hrun : (sanitizeItems d fuel store reserved items used).run i = (res, j))
    (hbudget : j.mappingErr ≠ some budgetExceeded) :
    Ends d remap keyID reserved bound (done ++ rewrittenItems store items) res j := by
  induction items generalizing used i done res with
  | nil =>
    rw [sanitizeItems] at hrun
    cases hrun
    rw [show rewrittenItems store [] = [] from rfl, List.append_nil]
    exact .inl ⟨h.clear, ⟨[], rfl⟩, h.err⟩
  | cons value rest ih =>
    have hrest : ∀ item kept, .obj item ∈ rest → keptObject store item = some kept →
        (Obj.val kept "id").text ≠ "" → Verbatim kept → (Obj.val kept "id").text ∈ reserved :=
      fun item kept hi => hkept item kept (List.mem_cons_of_mem _ hi)
    -- an item that is left out or sent as it is
    have hsame (hr : rewritten store value = none) {used : List String}
        (h : Ready d remap keyID reserved bound own (entriesOf d remap keyID reserved done) used i)
        {res' : Except String (List Json)} (hres' : (∃ b, res = .ok b) ↔ ∃ a, res' = .ok a)
        (hrun : (sanitizeItems d fuel store reserved rest used).run i = (res', j)) :
        Ends d remap keyID reserved bound (done ++ rewrittenItems store (value :: rest)) res
          j := by
      have heq : rewrittenItems store (value :: rest) = rewrittenItems store rest :=
        List.filterMap_cons_none hr
      rw [heq] at hstarts hbound ⊢
      exact (ih hstarts hdone hrest hbound h hrun).congr hres'
    have hother (hv : ∀ o, value ≠ .obj o)
        (hrun : (do let rest ← sanitizeItems d fuel store reserved rest used
                    pure (value :: rest) : IdentityM (List Json)).run i = (res, j)) :
        Ends d remap keyID reserved bound (done ++ rewrittenItems store (value :: rest)) res
          j := by
      have hr : rewritten store value = none := by
        cases value with
        | obj o => exact absurd rfl (hv o)
        | _ => rfl
      obtain ⟨res', hrun', hiff⟩ := run_map hrun
      exact hsame hr h hiff hrun'
    cases value with
    | obj item =>
      cases hk : keptObject store item with
      | none =>
        rw [sanitizeItems, ← keptObject, hk] at hrun
        exact hsame (by rw [rewritten, hk]; rfl) h Iff.rfl hrun
      | some kept =>
        by_cases hid : (Obj.val kept "id").text = ""
        · have hx : (sanitizeItemID d fuel reserved used kept).run i = (.ok (kept, used), i) := by
            rw [sanitizeItemID, IdentityM.run_self_bind]
            exact congrArg (fun m => IdentityM.run m i) (if_pos hid)
          rw [sanitizeItems_run hk hx] at hrun
          obtain ⟨res', hrun', hiff⟩ := run_map hrun
          exact hsame (by rw [rewritten, hk]; simp [hid]) h hiff hrun'
        by_cases hv : Verbatim kept
        · rw [sanitizeItems_run hk (sanitizeItemID_run_verbatim hid hv)] at hrun
          obtain ⟨res', hrun', hiff⟩ := run_map hrun
          exact hsame (by rw [rewritten, hk]; simp [hv])
            (h.verbatim (hkept item kept List.mem_cons_self hk hid hv)) hiff hrun'
        -- an item that is rewritten
        have heq : rewrittenItems store (.obj item :: rest) = kept :: rewrittenItems store rest :=
          List.filterMap_cons_some (by rw [rewritten, hk]; simp [hid, hv])
        rw [heq, List.append_cons] at hstarts hbound ⊢
        have hitem : Rewritten kept := ⟨hid, hv⟩
        have hlen : reserved.length + done.length < bound := by
          simp only [List.length_append, List.length_singleton] at hbound
          omega
        rcases hx : (sanitizeItemID d fuel reserved used kept).run i with ⟨x, k⟩
        have hstuck (herr : k.mappingErr ≠ none) : j = k := sanitizeItems_stuck hk hx hrun herr
        obtain ⟨n, rfl, hready | ⟨hclear, herr⟩⟩ := h.step hown hforeign hres hapart
          (fun o ho => hstarts o (by simp [ho])) (hstarts kept (by simp)) hdone hitem hlen hfuel hx
          fun he => hbudget (hstuck (by simp [he]) ▸ he)
        · rw [sanitizeItems_run hk hx] at hrun
          obtain ⟨res', hrun', hiff⟩ := run_map hrun
          refine (ih hstarts (fun o ho => ?_) hrest hbound hready hrun').congr hiff
          rcases List.mem_append.mp ho with ho | ho
          · exact hdone o ho
          · exact List.mem_singleton.mp ho ▸ hitem
        · rw [hstuck (by simp [herr])]
          refine .inr ⟨fun hc => hclear ?_, herr⟩
          rw [entriesOf, List.map_append] at hc
          exact hc.of_append
    | _ => exact hother (by simp) hrun

/-! ### Names of items -/

lemma wanted_mapped (h : Rewritten item) :
    wanted d true keyID item = itemKind item ++ "_" ++
      d.identityUUID keyID ("input-item:" ++ itemKind item) (Obj.val item "id").text := by
  refine if_pos ⟨rfl, ?_⟩
  by_contra hc
  rw [not_or, not_lt, not_not] at hc
  exact h.notVerbatim ⟨hc.1, hc.1 ▸ hc.2⟩

lemma itemKind_length (item : Obj) : (itemKind item).length ≤ 4 := by
  unfold itemKind
  split_ifs
  · decide
  · exact prefix_length item

lemma length_wanted_mapped (h : Rewritten item) :
    (wanted d true keyID item).length = (itemKind item).length + 37 := by
  have hsep : "_".length = 1 := by decide
  rw [wanted_mapped h, String.length_append, String.length_append, identityUUID_length, hsep]

lemma length_shorten (w : String) (m : ℕ) :
    (shortenCodexInputItemID d w m).length = min 47 w.length + 17 := by
  unfold shortenCodexInputItemID takeRunes codexInputItemIDLimit
  dsimp only
  rw [String.length_append, shortenSuffix_length, String.length_ofList, List.length_take,
    String.length_toList]
  omega

lemma exists_shorten {kind rest : String} (hk : kind.length ≤ 4) (m : ℕ) :
    ∃ rest', shortenCodexInputItemID d (kind ++ "_" ++ rest) m = kind ++ "_" ++ rest' := by
  have hsep : "_".length = 1 := by decide
  have hp : hasPrefix (shortenCodexInputItemID d (kind ++ "_" ++ rest) m) (kind ++ "_") = true :=
    hasPrefix_shorten (by rw [String.length_append]; omega) (hasPrefix_append _ _) m
  obtain ⟨tail, ht⟩ := hasPrefix_iff.mp hp
  refine ⟨String.ofList tail, String.toList_injective ?_⟩
  rw [← ht, String.toList_append (s := kind ++ "_"), String.toList_ofList]

lemma wanted_canonical (item : Obj) :
    wanted d false keyID item = canonicalCodexInputItemID item (Obj.val item "id").text := by
  unfold wanted wantedItemID
  dsimp only
  rw [if_neg fun h => Bool.false_ne_true h.1]

lemma canonical_of_ne {itemID : String} (h : canonicalCodexInputItemID item itemID ≠ itemID) :
    canonicalCodexInputItemID item itemID = codexInputItemPrefix item ++ "_" ++ itemID := by
  unfold canonicalCodexInputItemID at h ⊢
  split_ifs at h ⊢
  · exact absurd rfl h
  · rfl

lemma canonical_of_short (h : Rewritten item)
    (hlen : (canonicalCodexInputItemID item (Obj.val item "id").text).length ≤
      codexInputItemIDLimit) :
    canonicalCodexInputItemID item (Obj.val item "id").text =
      codexInputItemPrefix item ++ "_" ++ (Obj.val item "id").text :=
  canonical_of_ne fun he => h.notVerbatim ⟨he, he ▸ hlen⟩

lemma owned (d : Digests) (remap : Bool) (keyID : String) :
    Owned d remap keyID fun name => remap = true → ItemName name := by
  refine ⟨fun item hitem hr => ?_, fun item hitem m hr => ?_⟩ <;> subst hr <;>
    rw [wanted_mapped hitem]
  · exact ⟨_, _, rfl, itemKind_length item⟩
  · obtain ⟨rest, hrest⟩ := exists_shorten (itemKind_length item) m
    exact ⟨_, rest, hrest, itemKind_length item⟩

lemma shorten_ne_mapped {a b : Obj} (ha : Rewritten a) (hb : Rewritten b) (m : ℕ) :
    shortenCodexInputItemID d (wanted d true keyID a) m ≠ wanted d true keyID b := fun h => by
  have hlen := congrArg String.length h
  rw [length_shorten, length_wanted_mapped ha, length_wanted_mapped hb] at hlen
  have hkind := itemKind_length b
  omega

lemma foreign (d : Digests) (remap : Bool) (keyID : String) (reserved : List String) :
    Foreign d remap keyID reserved := by
  intro a b ha hb w m hw hx hid
  obtain ⟨rfl, hreserved⟩ := askOf_search hw
  obtain ⟨hname, hlen, hfree⟩ := askOf_fixed hx
  cases remap with
  | true => exact shorten_ne_mapped ha hb m hname
  | false =>
    rw [wanted_canonical] at hname hreserved hlen hfree
    rw [wanted_canonical] at hname
    rw [hname] at hlen hfree
    have hb' := canonical_of_short hb hlen
    by_cases hca : canonicalCodexInputItemID a (Obj.val a "id").text = (Obj.val a "id").text
    · -- the id of the first item is too long, and so is that of the second
      have hlong : ¬(Obj.val a "id").text.length ≤ codexInputItemIDLimit := fun hshort =>
        ha.notVerbatim ⟨hca, hshort⟩
      rw [hb', String.length_append, ← hid] at hlen
      omega
    · have ha' := canonical_of_ne hca
      obtain ⟨rest, hrest⟩ := @exists_shorten d _ (Obj.val a "id").text (prefix_length a) m
      rw [ha', hrest, hb'] at hname
      obtain ⟨hkind, -⟩ := kind_inj (underscore_not_mem_prefixText a)
        (underscore_not_mem_prefixText b) hname
      have hsame : canonicalCodexInputItemID a (Obj.val a "id").text =
          canonicalCodexInputItemID b (Obj.val b "id").text := by
        rw [ha', hb', hkind, hid]
      rw [hsame] at hreserved
      exact hfree (hreserved hlen)

lemma verbatim_keptObject {kept : Obj} (h : keptObject store item = some kept)
    (hid : (Obj.val kept "id").text ≠ "") : Verbatim kept ↔ Verbatim item := by
  have htype := get_keptObject h (k := "type") (by decide) (by decide)
  unfold Verbatim canonicalCodexInputItemID
  rw [id_keptObject h hid, codexInputItemPrefix_congr htype]

lemma length_reservedIDs (store : Bool) (items : List Json) :
    (reservedIDs items).length + (rewrittenItems store items).length ≤ items.length := by
  induction items with
  | nil => simp [reservedIDs, rewrittenItems]
  | cons value rest ih =>
    unfold reservedIDs rewrittenItems at ih ⊢
    rw [List.length_map] at ih ⊢
    rw [List.length_cons]
    cases hr : rewritten store value with
    | none =>
      rw [List.filterMap_cons_none hr, List.filter_cons]
      split_ifs
      · rw [List.length_cons]
        omega
      · omega
    | some kept =>
      obtain ⟨item, rfl⟩ : ∃ item, value = .obj item := by
        cases value with
        | obj item => exact ⟨item, rfl⟩
        | _ => cases hr
      obtain ⟨hk, hp⟩ := Option.filter_eq_some_iff.mp hr
      have hp := of_decide_eq_true hp
      have hnot : ¬Verbatim item := (verbatim_keptObject hk hp.1).not.mp hp.2
      rw [List.filterMap_cons_some hr, List.filter_cons_of_neg, List.length_cons]
      · omega
      · rw [decide_eq_true_eq]
        exact fun hc => hnot ⟨hc.2.2, hc.2.1⟩

lemma mem_reservedIDs_of_kept {kept : Obj} (hmem : .obj item ∈ items)
    (h : keptObject store item = some kept) (hid : (Obj.val kept "id").text ≠ "")
    (hv : Verbatim kept) : (Obj.val kept "id").text ∈ reservedIDs items := by
  have hsame := id_keptObject h hid
  rw [hsame]
  rw [hsame] at hid
  exact mem_reservedIDs hmem ((verbatim_keptObject h (hsame ▸ hid)).mp hv) hid

lemma length_of_mem_reservedIDs {x : String} (h : x ∈ reservedIDs items) :
    x.length ≤ codexInputItemIDLimit := by
  obtain ⟨value, hv, rfl⟩ := List.mem_map.mp h
  exact (of_decide_eq_true (List.mem_filter.mp hv).2).2.1

abbrev itemsOf (body : Obj) : List Json := (Obj.val body "input").items

abbrev rewrittenOf (body : Obj) : List Obj :=
  rewrittenItems (Obj.val body "store").flag (itemsOf body)

/-- The digests that shorten ids of a request are apart. -/
def ShortenedApart (d : Digests) (remap : Bool) (keyID : String) (body : Obj) : Prop :=
  ∀ a ∈ rewrittenOf body, ∀ b ∈ rewrittenOf body, ∀ v w,
    askOf d remap keyID (reservedIDs (itemsOf body)) a = .search v →
    askOf d remap keyID (reservedIDs (itemsOf body)) b = .search w →
    ∀ m < (itemsOf body).length, ∀ n < (itemsOf body).length,
      shortenSuffix d v m = shortenSuffix d w n → v = w ∧ m = n

lemma shortenSuffix_of_eq {v w : String} {m n : ℕ}
    (h : shortenCodexInputItemID d v m = shortenCodexInputItemID d w n) :
    shortenSuffix d v m = shortenSuffix d w n := by
  have hl := congrArg String.toList h
  unfold shortenCodexInputItemID at hl
  dsimp only at hl
  rw [String.toList_append, String.toList_append] at hl
  have hlen : (shortenSuffix d v m).toList.length = (shortenSuffix d w n).toList.length := by
    rw [String.length_toList, String.length_toList, shortenSuffix_length, shortenSuffix_length]
  exact String.toList_injective (List.append_inj' hl hlen).2

lemma run_mappingError_ok {α β : Type} {m : IdentityM α} {f : α → β} {res : Except String β}
    (h : (do let a ← m; Identity.mappingError; pure (f a) : IdentityM β).run i = (res, j)) :
    ∃ res', m.run i = (res', j) ∧
      ((∃ b, res = .ok b) ↔ (∃ a, res' = .ok a) ∧ j.mappingErr = none) := by
  rw [IdentityM.run_bind] at h
  rcases hm : m.run i with ⟨e | a, k⟩ <;> rw [hm] at h
  · cases h
    exact ⟨_, rfl, by simp⟩
  · dsimp only at h
    rw [IdentityM.run_bind, run_mappingError] at h
    cases he : k.mappingErr <;> rw [he] at h <;> cases h
    · exact ⟨_, rfl, by simp [he]⟩
    · exact ⟨_, rfl, by simp [he]⟩

lemma sanitizeCodexInputItems_ends {body : Obj} (hr : i.remap = remap) (hk : i.keyID = keyID)
    (herr : i.mappingErr = none) (htable : ∀ e ∈ i.reverse, ¬(remap = true → ItemName e.1))
    (hapart : ShortenedApart d remap keyID body) (hfuel : (itemsOf body).length ≤ fuel)
    {res : Except String Obj} (hrun : (sanitizeCodexInputItems d fuel body).run i = (res, j))
    (hbudget : j.mappingErr ≠ some budgetExceeded) :
    Ends d remap keyID (reservedIDs (itemsOf body)) (itemsOf body).length (rewrittenOf body) res
      j := by
  have hready : Ready d remap keyID (reservedIDs (itemsOf body)) (itemsOf body).length
      (fun name => remap = true → ItemName name)
      (entriesOf d remap keyID (reservedIDs (itemsOf body)) []) [] i := by
    refine ⟨hr, hk, herr, clear_nil, fun x _ => iff_of_false List.not_mem_nil ?_, ?_⟩
    · rintro (h | ⟨w, m, -, h, -⟩)
      · cases h
      · exact not_taken_nil m h
    · exact Records.nil.congr fun u c => iff_of_false (fun h => htable _ h.1 h.2) id
  have hshort : Naming.Apart (shortenCodexInputItemID d) (fun w => ∃ o ∈ rewrittenOf body,
      askOf d remap keyID (reservedIDs (itemsOf body)) o = .search w) (itemsOf body).length := by
    rintro v w ⟨a, ha, hav⟩ ⟨b, hb, hbw⟩ m hm n hn he
    exact hapart a ha b hb v w hav hbw m hm n hn (shortenSuffix_of_eq he)
  unfold sanitizeCodexInputItems at hrun
  split at hrun
  · rename_i items hitems
    have heq : itemsOf body = items := by
      rw [itemsOf, Obj.val_of_get hitems]
      rfl
    rw [← heq] at hrun
    obtain ⟨res', hrun', hiff⟩ := run_mappingError_ok hrun
    have hends := hready.run (owned d remap keyID)
      (foreign d remap keyID _) (fun x => length_of_mem_reservedIDs) hshort
      (fun o ho w hw => ⟨o, ho, hw⟩) (fun _ h => absurd h List.not_mem_nil)
      (fun item kept => mem_reservedIDs_of_kept)
      (length_reservedIDs (Obj.val body "store").flag _) hfuel hrun' hbudget
    rcases hends with ⟨hclear, hok, hnone⟩ | hclash
    · exact .inl ⟨hclear, hiff.mpr ⟨hok, hnone⟩, hnone⟩
    · exact .inr hclash
  · -- a body without a list of items asks for no name
    rename_i hno
    cases hrun
    have heq : itemsOf body = [] := items_of_not_arr fun items h => hno items h
    rw [rewrittenOf, heq]
    exact .inl ⟨clear_nil, ⟨_, rfl⟩, herr⟩

end CodexOne.Compat
