import CodexOne.Restore

/-!
The cached matcher of an identity, `remember` and `exposePayload` of
`internal/proxy/identity.go`.

The matcher is built from the table when a payload is restored and dropped when an entry is added.
The keys come out of a map and a sort that is not stable, so their order is fixed only by their
lengths. Keys of one length never match at one place, so the order cannot be seen.
-/

namespace CodexOne

open JsonString IdentityM

lemma prefixSize_byteLen : PrefixSize Text.byteLen where
  eq_of_le {p q} hpre hle := by
    obtain ⟨r, rfl⟩ := hpre
    rw [Text.byteLen_append] at hle
    cases r with
    | nil => rw [List.append_nil]
    | cons c r =>
      have hpos : 0 < c.utf8Size := Char.utf8Size_pos c
      rw [Text.byteLen_cons] at hle
      omega

lemma encodedText_injective {a b : String} (h : encodedText a = encodedText b) : a = b := by
  unfold encodedText at h
  have ha := readPieces_render (a.toList.map ofRune) []
    ((a.toList.map ofRune).length + (b.toList.map ofRune).length + 1) (by omega)
  have hb := readPieces_render (b.toList.map ofRune) []
    ((a.toList.map ofRune).length + (b.toList.map ofRune).length + 1) (by omega)
  rw [h, hb] at ha
  have hpieces := congrArg (fun x => runes x.1) (Option.some.inj ha)
  simp only [runes_map_ofRune] at hpieces
  exact String.toList_injective hpieces.symm

/-- The patterns of a table and what takes the place of a match. -/
def tableRules (table : List (String × String)) : Rules Char :=
  table.map fun e => (encodedText e.1, encodedText e.2)

lemma tableRules_nodup {table : List (String × String)} (h : (table.map Prod.fst).Nodup) :
    ((tableRules table).map Prod.fst).Nodup := by
  have heq : (tableRules table).map Prod.fst = (table.map Prod.fst).map encodedText := by
    simp [tableRules]
  rw [heq]
  exact h.map fun _ _ => encodedText_injective

/-- Restoring from the table alone. -/
def exposeTable (table : List (String × String)) (payload : Text) : Text :=
  if payload = [] ∨ table = [] then payload
  else substitute ((tableRules table).insertionSort fun a b =>
    Text.byteLen b.1 ≤ Text.byteLen a.1) 0 payload

/-- How the keys come out of the iteration over the table and the sort by length. -/
structure KeyOrder where
  order : Rules Char → Rules Char
  perm : ∀ rules, (order rules).Perm rules
  sorted : ∀ rules, (order rules).LongestFirst Text.byteLen

def KeyOrder.stable : KeyOrder where
  order rules := rules.insertionSort fun a b => Text.byteLen b.1 ≤ Text.byteLen a.1
  perm rules := List.perm_insertionSort _ rules
  sorted rules := by
    have htotal : Std.Total fun a b : Text × Text => Text.byteLen b.1 ≤ Text.byteLen a.1 :=
      ⟨fun a b => le_total _ _⟩
    have htrans : IsTrans (Text × Text) fun a b => Text.byteLen b.1 ≤ Text.byteLen a.1 :=
      ⟨fun _ _ _ h1 h2 => le_trans h2 h1⟩
    exact List.pairwise_insertionSort _ rules

def Compiles (table : List (String × String)) (rules : Rules Char) : Prop :=
  rules.Perm (tableRules table) ∧ rules.LongestFirst Text.byteLen

lemma KeyOrder.compiles (o : KeyOrder) (table : List (String × String)) :
    Compiles table (o.order (tableRules table)) := ⟨o.perm _, o.sorted _⟩

lemma Compiles.substitute_eq {table table' : List (String × String)} {rules rules' : Rules Char}
    (hd : (table.map Prod.fst).Nodup) (hperm : table.Perm table') (h : Compiles table rules)
    (h' : Compiles table' rules') (payload : Text) :
    substitute rules 0 payload = substitute rules' 0 payload := by
  have htables : (tableRules table).Perm (tableRules table') := hperm.map _
  refine substitute_perm prefixSize_byteLen ((h.1.trans htables).trans h'.1.symm) h.2 h'.2 ?_ 0 _
  exact (h.1.map Prod.fst).nodup_iff.mpr (tableRules_nodup hd)

/-! ### The identity with its matcher -/

/-- `codexIdentity` with `matcher` and `matcherValues`: the keys in the order of the alternation,
next to the values that take their place. -/
structure MatchingIdentity where
  identity : Identity
  matcher : Option (Rules Char)

namespace MatchingIdentity

/-- `remember`, which drops the matcher of a table that it adds to. -/
def remember (m : MatchingIdentity) (upstream client : String) : MatchingIdentity :=
  if upstream = "" ∨ client = "" ∨ upstream = client then m
  else if m.identity.mappingErr ≠ none then m
  else
    match h : m.identity.reverse.lookup upstream with
    | some existing =>
      if existing ≠ client then
        { m with identity := { m.identity with mappingErr := some Identity.collision } }
      else m
    | none =>
      if hfit : m.identity.reverse.length ≥ maxIdentityMappings ∨
          m.identity.mappingBytes + entryBytes (upstream, client) > maxIdentityMappingBytes then
        { m with identity := { m.identity with mappingErr := some Identity.budgetExceeded } }
      else { identity := m.identity.add upstream client h hfit, matcher := none }

/-- `exposePayload`: what is returned, and the identity with a matcher. -/
def exposePayload (o : KeyOrder) (m : MatchingIdentity) (payload : Text) :
    Text × MatchingIdentity :=
  if payload = [] ∨ m.identity.reverse = [] then (payload, m)
  else
    let rules := m.matcher.getD (o.order (tableRules m.identity.reverse))
    (substitute rules 0 payload, { m with matcher := some rules })

/-- The matcher, if there is one, stands for the table. -/
def Fresh (m : MatchingIdentity) : Prop :=
  ∀ rules, m.matcher = some rules → Compiles m.identity.reverse rules

section

variable {m : MatchingIdentity} {upstream client : String}

lemma remember_known {existing : String} (h1 : ¬(upstream = "" ∨ client = "" ∨ upstream = client))
    (h2 : ¬m.identity.mappingErr ≠ none)
    (hl : m.identity.reverse.lookup upstream = some existing) :
    (m.remember upstream client).identity = m.identity.remember upstream client ∧
      (m.remember upstream client).identity.reverse = m.identity.reverse ∧
      (m.remember upstream client).matcher = m.matcher := by
  have hidentity : m.identity.remember upstream client =
      if existing ≠ client then { m.identity with mappingErr := some Identity.collision }
      else m.identity := by
    unfold Identity.remember
    rw [if_neg h1, if_neg h2]
    split
    · rename_i found hfound
      rw [Option.some.inj (hfound.symm.trans hl)]
    · rename_i hnone
      cases hnone.symm.trans hl
  have hmatching : m.remember upstream client =
      if existing ≠ client then
        { m with identity := { m.identity with mappingErr := some Identity.collision } }
      else m := by
    unfold MatchingIdentity.remember
    rw [if_neg h1, if_neg h2]
    split
    · rename_i found hfound
      rw [Option.some.inj (hfound.symm.trans hl)]
    · rename_i hnone
      cases hnone.symm.trans hl
  rw [hidentity, hmatching]
  split_ifs
  · exact ⟨rfl, rfl, rfl⟩
  · exact ⟨rfl, rfl, rfl⟩

lemma remember_new (h1 : ¬(upstream = "" ∨ client = "" ∨ upstream = client))
    (h2 : ¬m.identity.mappingErr ≠ none) (hl : m.identity.reverse.lookup upstream = none) :
    (m.remember upstream client).identity = m.identity.remember upstream client ∧
      ((m.remember upstream client).matcher = none ∨
        (m.remember upstream client).identity.reverse = m.identity.reverse ∧
        (m.remember upstream client).matcher = m.matcher) := by
  by_cases hfit : m.identity.reverse.length ≥ maxIdentityMappings ∨
      m.identity.mappingBytes + entryBytes (upstream, client) > maxIdentityMappingBytes
  · -- a full table keeps the matcher
    have hidentity : m.identity.remember upstream client =
        { m.identity with mappingErr := some Identity.budgetExceeded } := by
      unfold Identity.remember
      rw [if_neg h1, if_neg h2]
      split
      · rename_i found hfound
        cases hfound.symm.trans hl
      · rw [dif_pos hfit]
    have hmatching : m.remember upstream client =
        { m with identity := { m.identity with mappingErr := some Identity.budgetExceeded } } := by
      unfold MatchingIdentity.remember
      rw [if_neg h1, if_neg h2]
      split
      · rename_i found hfound
        cases hfound.symm.trans hl
      · rw [dif_pos hfit]
    rw [hidentity, hmatching]
    exact ⟨rfl, .inr ⟨rfl, rfl⟩⟩
  · -- a new entry drops it
    have hidentity : m.identity.remember upstream client =
        m.identity.add upstream client hl hfit := by
      unfold Identity.remember
      rw [if_neg h1, if_neg h2]
      split
      · rename_i found hfound
        cases hfound.symm.trans hl
      · rw [dif_neg hfit]
    have hmatching : m.remember upstream client =
        ⟨m.identity.add upstream client hl hfit, none⟩ := by
      unfold MatchingIdentity.remember
      rw [if_neg h1, if_neg h2]
      split
      · rename_i found hfound
        cases hfound.symm.trans hl
      · rw [dif_neg hfit]
    rw [hidentity, hmatching]
    exact ⟨rfl, .inl rfl⟩

end

/-- Remembering an entry adds it and drops the matcher, or leaves the table and the matcher. -/
lemma remember_cases (m : MatchingIdentity) (upstream client : String) :
    (m.remember upstream client).identity = m.identity.remember upstream client ∧
      ((m.remember upstream client).matcher = none ∨
        (m.remember upstream client).identity.reverse = m.identity.reverse ∧
        (m.remember upstream client).matcher = m.matcher) := by
  by_cases h1 : upstream = "" ∨ client = "" ∨ upstream = client
  · unfold remember Identity.remember
    rw [if_pos h1, if_pos h1]
    exact ⟨rfl, .inr ⟨rfl, rfl⟩⟩
  by_cases h2 : m.identity.mappingErr ≠ none
  · unfold remember Identity.remember
    rw [if_neg h1, if_neg h1, if_pos h2, if_pos h2]
    exact ⟨rfl, .inr ⟨rfl, rfl⟩⟩
  rcases hl : m.identity.reverse.lookup upstream with _ | existing
  · exact remember_new h1 h2 hl
  · obtain ⟨hi, ht, hm⟩ := remember_known h1 h2 hl
    exact ⟨hi, .inr ⟨ht, hm⟩⟩

lemma Fresh.remember {m : MatchingIdentity} (h : m.Fresh) (upstream client : String) :
    (m.remember upstream client).Fresh := by
  intro rules hrules
  obtain ⟨-, hnone | ⟨htable, hsame⟩⟩ := m.remember_cases upstream client
  · rw [hnone] at hrules
    cases hrules
  · rw [hsame] at hrules
    rw [htable]
    exact h rules hrules

lemma Fresh.exposePayload {m : MatchingIdentity} (h : m.Fresh) (o : KeyOrder) (payload : Text) :
    (m.exposePayload o payload).2.Fresh ∧
      (m.exposePayload o payload).2.identity = m.identity := by
  unfold MatchingIdentity.exposePayload
  split_ifs
  · exact ⟨h, rfl⟩
  · refine ⟨fun rules hrules => ?_, rfl⟩
    obtain rfl := Option.some.inj hrules
    cases hm : m.matcher with
    | none => exact o.compiles _
    | some rules => exact h rules hm

/-- **Restoring.** A matcher that stands for the table gives what the table alone gives. -/
lemma Fresh.exposePayload_eq {m : MatchingIdentity} (h : m.Fresh) (o : KeyOrder) (payload : Text)
    {table : List (String × String)} (hperm : m.identity.reverse.Perm table) :
    (m.exposePayload o payload).1 = exposeTable table payload := by
  have hempty : m.identity.reverse = [] ↔ table = [] := by
    rw [← List.length_eq_zero_iff, ← List.length_eq_zero_iff, hperm.length_eq]
  unfold MatchingIdentity.exposePayload exposeTable
  by_cases he : payload = [] ∨ m.identity.reverse = []
  · rw [if_pos he, if_pos (he.imp_right hempty.mp)]
  · rw [if_neg he, if_neg fun hc => he (hc.imp_right hempty.mpr)]
    refine Compiles.substitute_eq m.identity.distinct hperm ?_ (KeyOrder.stable.compiles table) _
    cases hm : m.matcher with
    | none => exact o.compiles _
    | some rules => exact h rules hm

inductive Call
  | remember (upstream client : String)
  | exposePayload (order : KeyOrder) (payload : Text)

def after (m : MatchingIdentity) : Call → MatchingIdentity
  | .remember upstream client => m.remember upstream client
  | .exposePayload order payload => (m.exposePayload order payload).2

def run (calls : List Call) (m : MatchingIdentity) : MatchingIdentity := calls.foldl after m

lemma Fresh.after {m : MatchingIdentity} (h : m.Fresh) (c : Call) :
    (m.after c).Fresh ∧ Identity.Extends m.identity (m.after c).identity := by
  cases c with
  | remember upstream client =>
    refine ⟨h.remember upstream client, ?_⟩
    rw [MatchingIdentity.after, (m.remember_cases upstream client).1]
    exact Identity.extends_remember _ _ _
  | exposePayload order payload =>
    obtain ⟨hfresh, hsame⟩ := h.exposePayload order payload
    refine ⟨hfresh, ?_⟩
    rw [MatchingIdentity.after, hsame]
    exact .refl _

lemma Fresh.run {m : MatchingIdentity} (h : m.Fresh) (calls : List Call) :
    (m.run calls).Fresh ∧ Identity.Extends m.identity (run calls m).identity := by
  induction calls generalizing m with
  | nil => exact ⟨h, .refl _⟩
  | cons c calls ih =>
    obtain ⟨hfresh, hext⟩ := h.after c
    obtain ⟨hfresh', hext'⟩ := ih hfresh
    exact ⟨hfresh', hext.trans hext'⟩

def start (i : Identity) : MatchingIdentity := { identity := i, matcher := none }

/-- **The table.** After any calls the table is within its budget and counted exactly, a matcher
stands for it, and every payload is restored as from the table alone, in any order of the entries
and the keys. Later calls keep every entry, and after an error they change nothing. -/
theorem table_invariant (i : Identity) (calls : List Call) :
    let m := (start i).run calls
    m.identity.reverse.length ≤ 256 ∧
    m.identity.mappingBytes = (m.identity.reverse.map fun e =>
      e.1.utf8ByteSize + e.2.utf8ByteSize).sum ∧
    m.identity.mappingBytes ≤ 256 * 1024 ∧
    (∀ more upstream client, m.identity.reverse.lookup upstream = some client →
      (m.run more).identity.reverse.lookup upstream = some client) ∧
    (m.identity.mappingErr ≠ none → ∀ more, (m.run more).identity = m.identity) ∧
    (∀ rules, m.matcher = some rules → Compiles m.identity.reverse rules) ∧
    ∀ order payload table, m.identity.reverse.Perm table →
      (m.exposePayload order payload).1 = exposeTable table payload := by
  intro m
  have hfresh : m.Fresh := (Fresh.run (m := start i) (fun _ h => by cases h) calls).1
  refine ⟨m.identity.bounded.1, m.identity.counted, m.identity.bounded.2,
    fun more upstream client h => ?_, fun herr more => (hfresh.run more).2.stuck herr, hfresh,
    fun order payload table hperm => hfresh.exposePayload_eq order payload hperm⟩
  rw [Identity.lookup_eq_some_iff (Identity.distinct _)] at h ⊢
  exact (hfresh.run more).2.reverse.subset h

end MatchingIdentity

end CodexOne
