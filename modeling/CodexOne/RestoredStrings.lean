import CodexOne.Restore
import CodexOne.Lib.JsonSubstitute

/-!
Restoring the strings of a payload.

`exposePayload` looks for the encoded upstream ids in the bytes of a payload. That restores the
decoded strings as long as no id is found from inside an escape or outside of the strings, and
every id in a string is escaped as the gateway escapes it.
-/

namespace CodexOne

open GoStrings (trimSpace)
open JsonString IdentityM

namespace Identity

variable {d : Digests} {i : Identity}

/-- No side of an entry is empty. -/
def FilledTable (i : Identity) : Prop := ∀ e ∈ i.reverse, e.1 ≠ "" ∧ e.2 ≠ ""

lemma FilledTable.remember (h : i.FilledTable) (upstream client : String) :
    (i.remember upstream client).FilledTable := by
  intro e he
  by_cases hi : i.mappingErr = none
  · rcases remember_cases hi upstream client with ⟨hr, -⟩ | ⟨_, _, hidle, -, hr⟩ | ⟨-, _, hr⟩ <;>
      rw [hr] at he
    · exact h e he
    · rcases List.mem_append.mp he with he | he
      · exact h e he
      · obtain rfl := List.mem_singleton.mp he
        exact ⟨fun hu => hidle (.inl hu), fun hc => hidle (.inr (.inl hc))⟩
    · exact h e he
  · -- after an error nothing is added
    rw [remember_of_err hi] at he
    exact h e he

lemma filledTable_mapValue (kind value : String) :
    Preserves FilledTable (mapValue d kind value) := by
  refine .of_self fun i hi => ?_
  dsimp only
  split_ifs
  · exact hi
  · exact hi.remember _ _

lemma filledTable_mapWindow (value : String) : Preserves FilledTable (mapWindow d value) := by
  refine .of_self fun i hi => ?_
  dsimp only
  split_ifs
  · exact hi
  · exact hi.remember _ _
  · exact (filledTable_mapValue _ _).of_bind (fun _ => .of_pure _) i hi

lemma filledTable_sanitizeItemID {fuel : ℕ} {reserved used : List String} {item : Obj} :
    Preserves FilledTable (Compat.sanitizeItemID d fuel reserved used item) := by
  refine .of_self fun i hi => ?_
  dsimp only
  split_ifs
  · exact hi
  · cases Compat.upstreamItemID d fuel i.remap i.keyID reserved used item
        (Obj.val item "id").text with
    | none => exact hi
    | some n =>
      dsimp only
      split_ifs
      · exact hi.remember _ _
      · exact hi

lemma FilledTable.after (h : i.FilledTable) (c : Call) : (c.after d i).FilledTable := by
  have hcomp := composes_preserves FilledTable
  cases c with
  | prepareBody object fixed =>
    exact hcomp.prepareBody filledTable_mapValue filledTable_mapWindow object fixed i h
  | applyHeaders target source websocketTransport =>
    exact hcomp.applyHeaders filledTable_mapValue filledTable_mapWindow target source
      websocketTransport i h
  | sanitizeCodexInputItems fuel object =>
    exact Compat.preserves_input (fun _ _ _ _ _ _ => filledTable_sanitizeItemID) i h

lemma FilledTable.run (h : i.FilledTable) (calls : List Call) :
    (calls.foldl (Call.after d) i).FilledTable := by
  induction calls generalizing i with
  | nil => exact h
  | cons c calls ih => exact ih (h.after c)

lemma filledTable_new {key : Option String} {headers : Header} {object : Obj} {remap : Bool}
    (h : Identity.new d key headers object remap = .ok i) : i.FilledTable := by
  obtain ⟨client, up, j, rfl, -, ⟨-, hrun⟩ | ⟨-, rfl, -⟩⟩ := new_ok d h
  · have hj := filledTable_mapValue (d := d) "prompt-cache" client
      (blank remap (trimSpace (key.getD "")) client) (fun _ he => by cases he)
    rw [hrun] at hj
    exact hj
  · exact fun _ he => by cases he

variable (i)

/-- The reverse table, an id and what the client calls it. -/
def runeTable : Rules Char := i.reverse.map fun e => (e.1.toList, e.2.toList)

/-- The table with the longest ids first. -/
def runeRules : Rules Char := i.runeTable.insertionSort fun a b => b.1.length ≤ a.1.length

/-- The string with the leftmost and longest occurrences of upstream ids, one after the other,
replaced by the client's. -/
def restoreText (s : String) : String := Raw.substituteString i.runeRules s

/-- How many bytes the runes are written in. -/
def writtenLen (l : List Char) : ℕ := Text.byteLen (renderPieces (l.map ofRune))

def codeRules : Rules Char := i.runeTable.insertionSort fun a b => writtenLen b.1 ≤ writtenLen a.1

lemma matcherRules_eq : i.matcherRules = written (spelled i.codeRules) := by
  have hwritten (l : Rules Char) : written (spelled l) =
      l.map fun r => (renderPieces (r.1.map ofRune), renderPieces (r.2.map ofRune)) := by
    simp [written, spelled, Function.comp_def]
  have hsort := List.map_insertionSort (fun a b => writtenLen b.1 ≤ writtenLen a.1)
    (fun a b : Text × Text => Text.byteLen b.1 ≤ Text.byteLen a.1)
    (fun r : List Char × List Char =>
      (renderPieces (r.1.map ofRune), renderPieces (r.2.map ofRune))) i.runeTable
    fun _ _ _ _ => Iff.rfl
  rw [hwritten, codeRules, hsort, runeTable, List.map_map]
  rfl

lemma exposePayload_eq (payload : Text) :
    i.exposePayload payload = substitute (written (spelled i.codeRules)) 0 payload := by
  rw [← matcherRules_eq]
  unfold exposePayload
  split_ifs with h
  · rcases h with rfl | h
    · rw [substitute_nil]
    · refine (substitute_eq_self fun r hr => ?_).symm
      obtain ⟨e, he, -⟩ := mem_matcherRules.mp hr
      rw [h] at he
      cases he
  · rfl

lemma prefixSize_length : PrefixSize (List.length (α := Char)) where
  eq_of_le hpre hle := hpre.eq_of_length_le hle

lemma prefixSize_writtenLen : PrefixSize writtenLen where
  eq_of_le {p q} hpre hle := by
    obtain ⟨r, rfl⟩ := hpre
    cases r with
    | nil => rw [List.append_nil]
    | cons c r =>
      have hpos : 0 < Text.byteLen (ofRune c).chars := by
        obtain ⟨c', l, hl⟩ := List.exists_cons_of_ne_nil (chars_ne_nil (ofRune c))
        rw [hl, Text.byteLen_cons]
        have := Char.utf8Size_pos c'
        omega
      simp only [writtenLen, List.map_append, List.map_cons, renderPieces_append,
        renderPieces_cons, Text.byteLen_append] at hle
      omega

lemma longestFirst_sorted (size : List Char → ℕ) (rules : Rules Char) :
    Rules.LongestFirst size (rules.insertionSort fun a b => size b.1 ≤ size a.1) := by
  have htotal : Std.Total fun a b : Text × Text => size b.1 ≤ size a.1 := ⟨fun a b => le_total _ _⟩
  have htrans : IsTrans (Text × Text) fun a b => size b.1 ≤ size a.1 :=
    ⟨fun _ _ _ h1 h2 => le_trans h2 h1⟩
  exact List.pairwise_insertionSort _ rules

lemma first_codeRules (t : List Char) : i.codeRules.first t = i.runeRules.first t := by
  have hsort : i.codeRules.Perm i.runeTable := List.perm_insertionSort _ _
  have hperm : i.codeRules.Perm i.runeRules := hsort.trans (List.perm_insertionSort _ _).symm
  have hd : (i.codeRules.map Prod.fst).Nodup := by
    rw [(hsort.map Prod.fst).nodup_iff, runeTable, List.map_map]
    have heq : Prod.fst ∘ (fun e : String × String => (e.1.toList, e.2.toList)) =
        String.toList ∘ Prod.fst := rfl
    rw [heq, ← List.map_map]
    exact i.distinct.map fun _ _ h => String.toList_injective h
  exact first_eq_of_longest hperm hd
    (longest_of_longestFirst prefixSize_writtenLen (longestFirst_sorted _ _))
    (longest_of_longestFirst prefixSize_length (longestFirst_sorted _ _)) t

variable {i}

lemma FilledTable.rules (h : i.FilledTable) : Filled i.codeRules := by
  intro r hr
  rw [codeRules, (List.perm_insertionSort _ _).mem_iff] at hr
  obtain ⟨e, he, rfl⟩ := List.mem_map.mp hr
  obtain ⟨h1, h2⟩ := h e he
  exact ⟨fun h => h1 (String.toList_injective h), fun h => h2 (String.toList_injective h)⟩

/-- **Restoring strings.** Let every match that is replaced in a payload begin at a piece of a
string, and every upstream id that is to be replaced in a decoded string be escaped there as the
gateway escapes it. Then the restored payload is the JSON value with its strings restored. -/
theorem exposePayload_restores {key : Option String} {headers : Header} {object : Obj}
    {remap : Bool} (hnew : Identity.new d key headers object remap = .ok i) (calls : List Call)
    {payload : Text} {x : Raw} (hx : Raw.parse payload = some x)
    (haligned : Aligned (calls.foldl (Call.after d) i).matcherRules 0 .outside payload)
    (hspelled : ∀ ps ∈ x.strings, Spelled (calls.foldl (Call.after d) i).runeRules 0 ps) :
    ∃ y, Raw.parse ((calls.foldl (Call.after d) i).exposePayload payload) = some y ∧
      y.tree = x.tree.mapText (calls.foldl (Call.after d) i).restoreText := by
  have hfilled := (filledTable_new hnew).run (d := d) calls
  generalize calls.foldl (Call.after d) i = j at haligned hspelled hfilled ⊢
  rw [matcherRules_eq] at haligned
  obtain ⟨y, hy, htree⟩ := Raw.tree_substitute hfilled.rules hx haligned fun ps hps =>
    (spelled_congr (first_codeRules j) 0 ps).mpr (hspelled ps hps)
  have hrestore : j.restoreText = Raw.substituteString j.codeRules := by
    funext s
    rw [restoreText, Raw.substituteString, Raw.substituteString,
      substitute_congr (first_codeRules j)]
  rw [exposePayload_eq, hrestore]
  exact ⟨y, hy, htree⟩

section Samples

/-- A payload in which an upstream id occurs in the middle of a string. -/
def tablePayload : Text := "\x7b\"text\":\"the msg_x table\"\x7d".toList

theorem exposePayload_restores_message :
    ∃ i x, Identity.new Digests.zero (some "key") [] (messageNamed "x") false = .ok i ∧
      Raw.parse tablePayload = some x ∧
      ∃ y, Raw.parse (([Call.sanitizeCodexInputItems 1 (messageNamed "x")].foldl
          (Call.after Digests.zero) i).exposePayload tablePayload) = some y ∧
        y.tree = x.tree.mapText ([Call.sanitizeCodexInputItems 1 (messageNamed "x")].foldl
          (Call.after Digests.zero) i).restoreText := by
  obtain ⟨i, hi, h⟩ := ok_of_any
    (x := Identity.new Digests.zero (some "key") [] (messageNamed "x") false)
    (p := fun i =>
      let j := Call.after Digests.zero i (.sanitizeCodexInputItems 1 (messageNamed "x"))
      decide (Aligned j.matcherRules 0 .outside tablePayload) &&
        (Raw.parse tablePayload).any fun y =>
          decide (∀ ps ∈ Raw.strings y, Spelled j.runeRules 0 ps))
    (by decide +kernel)
  rw [Bool.and_eq_true, decide_eq_true_eq] at h
  obtain ⟨haligned, h⟩ := h
  cases hx : Raw.parse tablePayload with
  | none =>
    rw [hx] at h
    cases h
  | some x =>
    rw [hx] at h
    exact ⟨i, x, hi, rfl, exposePayload_restores hi _ hx haligned (of_decide_eq_true h)⟩

def callNamed (id : String) : Obj :=
  [("input", .arr [.obj [("id", .str id), ("type", .str "function_call")]])]

/-- **Escapes.** The id of a call begins with the letter of an escape. Restored from inside of the
escape, a payload is no longer JSON. -/
theorem exposePayload_breaks_escape :
    ∃ i, Identity.new Digests.zero (some "key") [] (callNamed "x") false = .ok i ∧
      (Raw.parse "\"\\fc_x\"".toList).isSome ∧
      Raw.parse (([Call.sanitizeCodexInputItems 1 (callNamed "x")].foldl
        (Call.after Digests.zero) i).exposePayload "\"\\fc_x\"".toList) = none := by
  obtain ⟨i, hi, h⟩ := ok_of_any
    (x := Identity.new Digests.zero (some "key") [] (callNamed "x") false)
    (p := fun i =>
      let j := Call.after Digests.zero i (.sanitizeCodexInputItems 1 (callNamed "x"))
      decide (Raw.parse (j.exposePayload "\"\\fc_x\"".toList)).isNone) (by decide +kernel)
  exact ⟨i, hi, by decide +kernel, Option.isNone_iff_eq_none.mp (of_decide_eq_true h)⟩

end Samples

end Identity

end CodexOne
