import CodexOne.ChatStream

/-!
The outcome that is recorded for a response: a response that is passed on counts as a success at
EOF, whatever it was; one that is collected is judged by its events.
-/

namespace CodexOne.ResponseStream

open SSE Chat

/-- A status of the 2xx class. -/
def IsSuccess (status : Int) : Prop := 200 ≤ status ∧ status < 300

instance (status : Int) : Decidable (IsSuccess status) :=
  inferInstanceAs (Decidable (200 ≤ status ∧ status < 300))

/-- The response that a completed or incomplete event brings. -/
def CollectedEvent.completion (e : CollectedEvent) : Option Raw :=
  if isCompletion e.type then e.response else none

def events (expose : Text → Text) (stream : Text) : List CollectedEvent :=
  (payloads expose stream).filterMap CollectedEvent.decode

/-- The completed and incomplete responses that arrived. -/
def completions (expose : Text → Text) (stream : Text) : List Raw :=
  (events expose stream).filterMap CollectedEvent.completion

/-- **Success**: a completed or incomplete response arrived and no failure did. -/
def Succeeded (expose : Text → Text) (stream : Text) : Prop :=
  completions expose stream ≠ [] ∧ ∀ e ∈ events expose stream, isFailure e.type = false

lemma httpStatus_not_success (e : UpstreamResponseError) : ¬ IsSuccess e.httpStatus := by
  unfold IsSuccess UpstreamResponseError.httpStatus
  split
  · omega
  · dsimp only
    split_ifs <;> omega

lemma collectEvent_final (c : Collected) (payload : Text) :
    (collectEvent c payload).final =
      (((CollectedEvent.decode payload).bind CollectedEvent.completion).or c.final) := by
  rw [collectEvent]
  cases CollectedEvent.decode payload with
  | none => rfl
  | some e =>
    rw [Option.bind_some, CollectedEvent.completion]
    cases hc : isCompletion e.type <;> cases hr : e.response <;> simp [hc, hr]

lemma collectEvent_upstreamErr (c : Collected) (payload : Text) :
    (collectEvent c payload).upstreamErr.isSome =
      (c.upstreamErr.isSome ||
        (CollectedEvent.decode payload).any fun e => isFailure e.type) := by
  rw [collectEvent]
  cases CollectedEvent.decode payload with
  | none => simp
  | some e => cases h : isFailure e.type <;> simp [h]

lemma foldl_collectEvent (ps : List Text) (c : Collected) :
    (ps.foldl collectEvent c).final =
        ((ps.filterMap CollectedEvent.decode).filterMap CollectedEvent.completion).getLast?.or
          c.final ∧
      (ps.foldl collectEvent c).upstreamErr.isSome =
        (c.upstreamErr.isSome ||
          (ps.filterMap CollectedEvent.decode).any fun e => isFailure e.type) := by
  induction ps using List.reverseRecOn with
  | nil => simp
  | append_singleton ps payload ih =>
    obtain ⟨hfinal, herr⟩ := ih
    have hsplit : (ps ++ [payload]).filterMap CollectedEvent.decode =
        ps.filterMap CollectedEvent.decode ++ (CollectedEvent.decode payload).toList := by
      rw [List.filterMap_append]
      cases hd : CollectedEvent.decode payload <;> simp [hd]
    rw [List.foldl_append, List.foldl_cons, List.foldl_nil, collectEvent_final,
      collectEvent_upstreamErr, hfinal, herr, hsplit, List.filterMap_append, List.any_append,
      List.getLast?_append]
    generalize List.filterMap CollectedEvent.decode ps = es
    cases CollectedEvent.decode payload with
    | none => simp
    | some e =>
      cases hc : e.completion <;> simp [hc, Bool.or_assoc]

/-- `collectResponse` returns the last response when nothing failed. -/
lemma collectResponse_ok_iff {expose : Text → Text} {stream : Text} {final : Raw} :
    (collectResponse expose stream).1 = .ok final ↔
      (completions expose stream).getLast? = some final ∧
        ∀ e ∈ events expose stream, isFailure e.type = false := by
  obtain ⟨hfinal, herr⟩ := foldl_collectEvent (payloads expose stream) .start
  have hnone : ((payloads expose stream).foldl collectEvent .start).upstreamErr = none ↔
      ∀ e ∈ events expose stream, isFailure e.type = false := by
    rw [← Option.not_isSome_iff_eq_none, Bool.not_eq_true, herr, Collected.start,
      Option.isSome_none, Bool.false_or,
      List.any_eq_false]
    exact forall₂_congr fun e _ => Bool.eq_false_iff.symm
  have hlast : (completions expose stream).getLast? =
      ((payloads expose stream).foldl collectEvent .start).final :=
    (hfinal.trans (Option.or_none ..)).symm
  rw [collectResponse, ← hnone, hlast]
  generalize (payloads expose stream).foldl collectEvent .start = c
  cases c.upstreamErr with
  | some failure => simp
  | none => cases c.final <;> simp

lemma collectedStatus_success {expose : Text → Text} {stream : Text} (deliver : Raw → Int) :
    IsSuccess (collectedStatus deliver (collectResponse expose stream).1) ↔
      Succeeded expose stream ∧
        ∀ final ∈ (completions expose stream).getLast?, IsSuccess (deliver final) := by
  constructor
  · intro h
    cases heq : (collectResponse expose stream).1 with
    | ok final =>
      rw [heq] at h
      obtain ⟨hlast, hno⟩ := collectResponse_ok_iff.mp heq
      refine ⟨⟨fun hnil => ?_, hno⟩, fun r hr => ?_⟩
      · rw [hnil] at hlast
        cases hlast
      · rw [Option.mem_def, hlast, Option.some_inj] at hr
        exact hr ▸ h
    | error e =>
      rw [heq] at h
      -- a failure has a status of its own, a missing end is a bad gateway
      cases e with
      | upstream failure => exact absurd h (httpStatus_not_success failure)
      | incomplete _ => exact absurd h (by decide : ¬ IsSuccess 502)
  · rintro ⟨⟨hne, hno⟩, hdeliver⟩
    have hlast := List.getLast?_eq_some_getLast hne
    rw [collectResponse_ok_iff.mpr ⟨hlast, hno⟩]
    exact hdeliver _ hlast

lemma handleResponses_collected (expose : Text → Text) (stream : Text) :
    IsSuccess (handleResponsesStatus expose false stream) ↔ Succeeded expose stream := by
  rw [handleResponsesStatus, if_neg (by decide), collectedStatus_success]
  exact and_iff_left fun _ _ => by decide

lemma chatCompletions_collected (expose : Text → Text) (model : String) (now : Int)
    (includeUsage : Bool) (upstream : Text) :
    IsSuccess (chatCompletionsStatus expose model now includeUsage false upstream) ↔
      Succeeded expose upstream ∧
        ∀ final ∈ (completions expose upstream).getLast?,
          (CompletedResponse.decode final).isSome := by
  rw [chatCompletionsStatus, if_neg (by decide), collectedStatus_success]
  refine and_congr_right fun _ => forall₂_congr fun final _ => ?_
  rw [convertChatResponse, Option.isSome_map]
  split
  · rename_i h
    exact iff_of_true (by decide) h
  · rename_i h
    exact iff_of_false (by decide) h

/-- **When the delivery does not matter.** The outcome recorded for a stream that ends in EOF is,
streaming or not, success exactly when a response arrived and no failure did: for the Responses
endpoint just when the stream is a success, for Chat Completions just when it is one and the last
response has the fields that the conversion reads. -/
theorem outcome_delivery_iff (expose : Text → Text) (model : String) (now : Int)
    (includeUsage : Bool) (upstream : Text) :
    ((∀ stream, IsSuccess (handleResponsesStatus expose stream upstream) ↔
        Succeeded expose upstream) ↔ Succeeded expose upstream) ∧
      ((∀ stream, IsSuccess (chatCompletionsStatus expose model now includeUsage stream upstream) ↔
          Succeeded expose upstream) ↔
        Succeeded expose upstream ∧
          ∀ final ∈ (completions expose upstream).getLast?,
            (CompletedResponse.decode final).isSome) := by
  -- a stream is answered with 200 before it is read
  have hpass : IsSuccess (handleResponsesStatus expose true upstream) := by
    rw [handleResponsesStatus, if_pos rfl]
    exact (by decide : IsSuccess 200)
  have hchat : IsSuccess (chatCompletionsStatus expose model now includeUsage true upstream) := by
    rw [chatCompletionsStatus, if_pos rfl]
    exact (by decide : IsSuccess 200)
  refine ⟨⟨fun h => (h true).mp hpass, fun hs stream => ?_⟩,
    ⟨fun h => ?_, fun hs stream => ?_⟩⟩
  · cases stream with
    | false => exact handleResponses_collected expose upstream
    | true => exact iff_of_true hpass hs
  · have hs := (h true).mp hchat
    exact (chatCompletions_collected expose model now includeUsage upstream).mp ((h false).mpr hs)
  · cases stream with
    | false =>
      exact iff_of_true ((chatCompletions_collected ..).mpr hs) hs.1
    | true => exact iff_of_true hchat hs.1

/-- A response that fails is recorded as a success when it is passed on. -/
theorem outcome_of_failure :
    let upstream := "data: \x7b\"type\":\"response.failed\"\x7d\n\n".toList
    ¬ Succeeded id upstream ∧
      handleResponsesStatus id true upstream = 200 ∧
      handleResponsesStatus id false upstream = 502 ∧
      chatCompletionsStatus id "m" 0 false true upstream = 200 ∧
      chatCompletionsStatus id "m" 0 false false upstream = 502 := by
  intro upstream
  have hnone : (completions id upstream).isEmpty = true := by decide
  exact ⟨fun h => h.1 (List.isEmpty_iff.mp hnone), by decide⟩

end CodexOne.ResponseStream
