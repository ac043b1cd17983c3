import CodexOne.Endpoints
import CodexOne.Normalized

/-!
Normalizing the text of a request that was normalized before.
-/

namespace CodexOne

open Members Normalize

lemma normalizeRequestText_ok {raw : Text} {body : Obj} {stream : Bool} {model : String}
    (h : normalizeRequestText raw = .ok (body, stream, model)) :
    ∃ requested, decodeObject raw = some requested ∧
      (JsonOf.obj requested).canon = .obj requested ∧
      normalizeResponsesRequest requested = .ok (body, stream, model) := by
  unfold normalizeRequestText at h
  split_ifs at h with hvalid
  cases hparse : Raw.parse raw with
  | none =>
    rw [hparse] at h
    cases h
  | some r =>
    rw [hparse] at h
    cases hdecode : r.decode with
    | obj requested =>
      rw [Option.map_some, hdecode] at h
      refine ⟨requested, ?_, hdecode ▸ Raw.canon_decode r, h⟩
      rw [decodeObject, hparse, Option.map_some, hdecode]
    -- `null` has no model, so the normalization refuses it
    | _ =>
      rw [Option.map_some, hdecode] at h
      cases h

/-- **Normalizing twice.** Normalizing the text of a normalized request gives the same request, and
the fields that normalizing does not name have the values of the request. -/
theorem normalize_idempotent {raw : Text} {body : Obj} {stream : Bool} {model : String}
    (h : normalizeRequestText raw = .ok (body, stream, model)) :
    normalizeRequestText (marshal (.obj body)) = .ok (body, true, model) ∧
      ∃ requested, decodeObject raw = some requested ∧
        ∀ field ∉ rewrittenFields, get body field = get requested field := by
  obtain ⟨requested, hdecode, hcanon, hnormalize⟩ := normalizeRequestText_ok h
  have hok := normalizeResponsesRequest_ok hnormalize
  have hother {field : String} (hfield : field ∉ rewrittenFields) :
      get body field = get requested field := by
    rw [hok.1]
    exact get_normalized_other requested hfield
  refine ⟨?_, requested, hdecode, fun field hfield => hother hfield⟩
  have hbody := canon_normalizeResponsesRequest hcanon hnormalize
  have htwice : normalizeNested (normalizeFields body) = body := by
    rw [hok.1]
    exact normalized_idem hcanon
  have hmodel : Obj.val body "model" = Obj.val requested "model" :=
    Obj.val_congr (hother (by decide))
  have hagain : normalizeResponsesRequest body = .ok (body, true, model) := by
    unfold normalizeResponsesRequest at hnormalize ⊢
    dsimp only at hnormalize ⊢
    rw [if_neg hok.2.1, if_neg hok.2.2] at hnormalize
    simp only [Except.ok.injEq, Prod.mk.injEq] at hnormalize
    have hstream : (Obj.val body "stream").flag = true := by
      rw [hok.1, Obj.val, get_stream]
      rfl
    rw [hmodel, if_neg hok.2.1, if_neg (hok.1 ▸ input_normalized hok.2.2), htwice, hstream,
      hnormalize.2.2]
  unfold normalizeRequestText
  rw [jsonValid_marshal, parse_marshal]
  rw [if_neg (by simp), Option.map_some, Raw.decode_ofJson, hbody]
  exact hagain

/-- A request with its reasoning in two old spellings. -/
def spelledRequest : Text :=
  marshal (.obj [("input", .str "hi"), ("model", .str "m"),
    ("reasoning", .obj [("generate_summary", .str " Detailed ")]),
    ("reasoning_effort", .str "X-High"), ("tools", .null), ("user", .str "u")])

theorem normalize_idempotent_sample : ∃ body,
    normalizeRequestText spelledRequest = .ok (body, false, "m") ∧
      normalizeRequestText (marshal (.obj body)) = .ok (body, true, "m") := by
  have hok : ((normalizeRequestText spelledRequest).toOption.any fun r =>
      r.2 = (false, "m")) = true := by
    decide +kernel
  cases hr : normalizeRequestText spelledRequest with
  | error e =>
    rw [hr] at hok
    cases hok
  | ok r =>
    obtain ⟨body, stream, model⟩ := r
    rw [hr] at hok
    obtain ⟨rfl, rfl⟩ := Prod.mk.inj (of_decide_eq_true hok)
    exact ⟨body, rfl, (normalize_idempotent hr).1⟩

end CodexOne
