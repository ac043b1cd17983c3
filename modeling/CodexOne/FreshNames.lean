import CodexOne.Collisions

/-!
The search for an item id that is not in use, `uniqueCodexInputItemID`.

The loop has no bound of its own. It ends as soon as the digests of the attempts differ, after one
more attempt than there are ids in use.
-/

namespace CodexOne.Compat

open GoStrings Naming

variable {d : Digests} {itemID : String} {reserved used : List String} {a b : ℕ}

/-- The bytes of a digest that an attempt takes. -/
def truncatedDigest (d : Digests) (itemID : String) (attempt : ℕ) : List UInt8 :=
  let hashInput := if attempt > 0 then itemID ++ "\x00" ++ toString attempt else itemID
  (List.ofFn (d.sha256 hashInput)).take 8

def inUse (reserved used : List String) : Finset String := (reserved ++ used).toFinset

/-- The attempts up to the number of ids in use take different digests. -/
def DigestsDiffer (d : Digests) (itemID : String) (reserved used : List String) : Prop :=
  ∀ m ≤ (inUse reserved used).card, ∀ n ≤ (inUse reserved used).card,
    truncatedDigest d itemID m = truncatedDigest d itemID n → m = n

instance : Decidable (DigestsDiffer d itemID reserved used) :=
  inferInstanceAs (Decidable (∀ m ≤ _, ∀ n ≤ _, _))

lemma mem_inUse {name : String} : name ∈ inUse reserved used ↔ name ∈ reserved ∨ name ∈ used := by
  rw [inUse, List.mem_toFinset, List.mem_append]

lemma shortenSuffix_eq (attempt : ℕ) :
    shortenSuffix d itemID attempt =
      "_" ++ String.ofList (Digests.hex (truncatedDigest d itemID attempt)) := rfl

lemma hexDigits_injective : ∀ m < 256, ∀ n < 256, hexDigits m = hexDigits n → m = n := by
  have hdigit : ∀ m < 16, ∀ n < 16, hexDigit m = hexDigit n → m = n := by decide
  intro m hm n hn he
  obtain ⟨h1, h2⟩ := List.cons.inj he
  have hhigh := hdigit _ (Nat.mod_lt _ (by decide)) _ (Nat.mod_lt _ (by decide)) h1
  have hlow := hdigit _ (Nat.mod_lt _ (by decide)) _ (Nat.mod_lt _ (by decide)) (List.cons.inj h2).1
  omega

lemma hex_injective {s t : List UInt8} (h : Digests.hex s = Digests.hex t) : s = t := by
  induction s generalizing t with
  | nil =>
    cases t with
    | nil => rfl
    | cons c t => simp [Digests.hex, hexDigits] at h
  | cons b s ih =>
    cases t with
    | nil => simp [Digests.hex, hexDigits] at h
    | cons c t =>
      rw [Digests.hex, Digests.hex, List.flatMap_cons, List.flatMap_cons] at h
      obtain ⟨hhead, htail⟩ := List.append_inj h rfl
      have hbyte := hexDigits_injective _ b.toNat_lt _ c.toNat_lt hhead
      rw [UInt8.toNat_inj.mp hbyte, ih htail]

lemma truncatedDigest_of_shorten
    (h : shortenCodexInputItemID d itemID a = shortenCodexInputItemID d itemID b) :
    truncatedDigest d itemID a = truncatedDigest d itemID b := by
  have hl := congrArg String.toList h
  unfold shortenCodexInputItemID at hl
  dsimp only at hl
  rw [shortenSuffix_length, shortenSuffix_length, String.toList_append, String.toList_append] at hl
  have hsuffix := List.append_cancel_left hl
  rw [shortenSuffix_eq, shortenSuffix_eq] at hsuffix
  simp only [String.toList_append, String.toList_ofList] at hsuffix
  exact hex_injective (List.append_cancel_left hsuffix)

lemma prefix_shorten (attempt : ℕ) :
    itemID.toList.take (min 47 itemID.length) <+:
      (shortenCodexInputItemID d itemID attempt).toList := by
  unfold shortenCodexInputItemID takeRunes
  dsimp only
  rw [String.toList_append, shortenSuffix_length, String.toList_ofList]
  exact List.prefix_append _ _

/-- **The search ends.** When the truncated digests differ, one more attempt than there are ids in
use is enough for an id that is not in use, whose length is within the limit and that begins as
the wanted id does. -/
theorem unique_item_id_found (d : Digests) (itemID : String) (reserved used : List String)
    (hdigests : DigestsDiffer d itemID reserved used) :
    ∃ name, (∀ fuel, (inUse reserved used).card + 1 ≤ fuel →
        uniqueCodexInputItemID d fuel itemID reserved used = some name) ∧
      name ∉ reserved ∧ name ∉ used ∧ name.length ≤ codexInputItemIDLimit ∧
      itemID.toList.take (min 47 itemID.length) <+: name.toList ∧
      ∀ item : Obj, hasPrefix itemID (codexInputItemPrefix item) = true →
        hasPrefix name (codexInputItemPrefix item) = true := by
  have hinj : ∀ m ≤ (inUse reserved used).card, ∀ n ≤ (inUse reserved used).card,
      shortenCodexInputItemID d itemID m = shortenCodexInputItemID d itemID n → m = n :=
    fun m hm n hn he => hdigests m hm n hn (truncatedDigest_of_shorten he)
  obtain ⟨m, hm, hnew, hfirst⟩ := exists_first_unused (inUse reserved used) hinj
  rw [mem_inUse, not_or] at hnew
  refine ⟨shortenCodexInputItemID d itemID m, fun fuel hfuel => ?_, hnew.1, hnew.2,
    shortenCodexInputItemID_length d itemID m, prefix_shorten m, fun item hitem => ?_⟩
  · exact uniqueCodexInputItemID_eq (by omega) hnew fun k hk => mem_inUse.mp (hfirst k hk)
  · have hp := prefix_length item
    exact hasPrefix_shorten (by omega) hitem m

/-- Digests that count the runes of what they are taken of. -/
def countingDigests : Digests where
  sha256 message := fun _ => UInt8.ofNat message.length
  hmac _ message := fun _ => UInt8.ofNat message.length

theorem unique_item_id_found_sample :
    ∃ name, uniqueCodexInputItemID countingDigests 2 "msg_1" ["msg_1_0505050505050505"] [] =
        some name ∧ name ∉ ["msg_1_0505050505050505"] := by
  obtain ⟨name, hfound, hnew, -⟩ := unique_item_id_found countingDigests "msg_1"
    ["msg_1_0505050505050505"] [] (by decide)
  exact ⟨name, hfound 2 (by decide), hnew⟩

end CodexOne.Compat
