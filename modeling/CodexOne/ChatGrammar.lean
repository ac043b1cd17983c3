import CodexOne.ChatStream

/-!
The order of the chunks that `streamChatResponse` writes.

The role is sent once, by the first event that needs it, and the reader goes on after a terminal
event. So the order of the chunks depends on the order of the events.
-/

namespace CodexOne.Chat

open ResponseStream

/-- What a written frame is to the client. -/
inductive FrameKind where
  | role
  | delta
  | finish
  | usage
  | error
  | done
  deriving DecidableEq

def Frame.kind : Frame → FrameKind
  | chunk _ .role none => .role
  | chunk _ _ none => .delta
  | chunk _ _ (some _) => .finish
  | usage _ _ => .usage
  | error _ => .error
  | done => .done

/-- What may follow the role: deltas, at most one closing part, and the end marker. -/
inductive Tail : List FrameKind → Prop where
  | delta {ks : List FrameKind} : Tail ks → Tail (.delta :: ks)
  | finish : Tail [.finish, .done]
  | usage : Tail [.finish, .usage, .done]
  | error : Tail [.error, .done]
  | done : Tail [.done]

/-- **The grammar of a chat stream**: the role before all deltas, then at most one closing part,
then the end marker. A stream without deltas may lack the role. -/
inductive Grammar : List FrameKind → Prop where
  | role {ks : List FrameKind} : Tail ks → Grammar (.role :: ks)
  | error : Grammar [.error, .done]
  | done : Grammar [.done]

namespace ChatEvent

/-- The event has the role sent if it was not. -/
def needsRole (e : ChatEvent) : Bool :=
  match e.kind with
  | .created | .textDelta | .completion => true
  | .reasoningDelta => e.delta ≠ ""
  | .itemAdded => e.itemType = "function_call"
  | _ => false

/-- The event ends the response. -/
def isTerminal (e : ChatEvent) : Bool := e.kind = .completion || e.kind = .failure

/-- The event is one that has nothing to tell the client. -/
def isSilent (e : ChatEvent) (roleSent : Bool) : Bool :=
  match e.kind with
  | .created => roleSent
  | .reasoningDelta => e.delta = ""
  | .itemAdded => e.itemType ≠ "function_call"
  | .other => true
  | _ => false

end ChatEvent

/-- **Orderly events**: no argument delta comes before the role, and only silent events come after
a terminal one. -/
def Orderly : (roleSent closed : Bool) → List ChatEvent → Prop
  | _, _, [] => True
  | roleSent, closed, e :: es =>
    (e.kind = .argumentsDelta → roleSent = true) ∧ (closed = true → e.isSilent roleSent = true) ∧
      Orderly (roleSent || e.needsRole) (closed || e.isTerminal) es

/-- What an event writes when the role was sent or not. -/
def emitted (includeUsage roleSent : Bool) (e : ChatEvent) : List FrameKind :=
  let role := if roleSent then [] else [FrameKind.role]
  match e.kind with
  | .created => role
  | .reasoningDelta => if e.delta = "" then [] else role ++ [.delta]
  | .textDelta => role ++ [.delta]
  | .itemAdded => if e.itemType ≠ "function_call" then [] else role ++ [.delta]
  | .argumentsDelta => [.delta]
  | .completion => role ++ .finish :: (if includeUsage then [.usage] else []) ++ [.done]
  | .failure => [.error, .done]
  | .other => []

/-- What is written for the events that are left, the end marker at EOF included. -/
def remaining (includeUsage : Bool) : (roleSent closed : Bool) → List ChatEvent → List FrameKind
  | _, closed, [] => if closed then [] else [.done]
  | roleSent, closed, e :: es =>
    emitted includeUsage roleSent e ++
      remaining includeUsage (roleSent || e.needsRole) (closed || e.isTerminal) es

/-! ### The translation writes what is emitted -/

namespace ChatStreamState

@[simp] lemma observe_roleSent (s : ChatStreamState) (r : Option Raw) :
    (s.observe r).roleSent = s.roleSent := by
  cases r <;> rfl

@[simp] lemma observe_terminalSent (s : ChatStreamState) (r : Option Raw) :
    (s.observe r).terminalSent = s.terminalSent := by
  cases r <;> rfl

lemma ensureRole_kinds (s : ChatStreamState) :
    s.ensureRole.1.map Frame.kind = if s.roleSent then [] else [.role] := by
  rw [ensureRole]
  split <;> rfl

lemma ensureRole_roleSent (s : ChatStreamState) : s.ensureRole.2.roleSent = true := by
  rw [ensureRole]
  split
  · assumption
  · rfl

lemma ensureRole_terminalSent (s : ChatStreamState) :
    s.ensureRole.2.terminalSent = s.terminalSent := by
  rw [ensureRole]
  split <;> rfl

lemma sendAfterRole_kinds (s : ChatStreamState) (delta : Delta)
    (h : (Frame.chunk s.head delta none).kind = .delta) :
    (s.sendAfterRole delta).1.map Frame.kind =
        (if s.roleSent then [] else [.role]) ++ [.delta] ∧
      (s.sendAfterRole delta).2.roleSent = true ∧
      (s.sendAfterRole delta).2.terminalSent = s.terminalSent := by
  refine ⟨?_, s.ensureRole_roleSent, s.ensureRole_terminalSent⟩
  rw [sendAfterRole, List.map_append, s.ensureRole_kinds, List.map_singleton, h]

end ChatStreamState

/-- The spec of one event: the kinds of what it writes, and the two flags after it. -/
lemma translate_emitted (includeUsage : Bool) (e : ChatEvent) (s : ChatStreamState) :
    (translate includeUsage e s).1.map Frame.kind = emitted includeUsage s.roleSent e ∧
      (translate includeUsage e s).2.roleSent = (s.roleSent || e.needsRole) ∧
      (translate includeUsage e s).2.terminalSent = (s.terminalSent || e.isTerminal) := by
  have hrole := s.observe_roleSent e.response
  have hterm := s.observe_terminalSent e.response
  rw [translate]
  generalize s.observe e.response = t at hrole hterm ⊢
  rw [← hrole, ← hterm]
  have hkinds := t.ensureRole_kinds
  have hsent := t.ensureRole_roleSent
  have hstill := t.ensureRole_terminalSent
  have hsend := t.sendAfterRole_kinds
  unfold emitted ChatEvent.needsRole ChatEvent.isTerminal
  -- `hsend` is for the events that send the role first when it is due
  cases e.kind with
  | created => simpa using ⟨hkinds, hsent, hstill⟩
  | reasoningDelta =>
    by_cases hd : e.delta = ""
    · simp [hd]
    · simpa [hd] using hsend (.reasoning e.delta) rfl
  | textDelta => simpa using hsend (.content e.delta) rfl
  | itemAdded =>
    by_cases hi : e.itemType = "function_call"
    · simpa [hi, ChatStreamState.addTool] using
        hsend (.toolCall t.nextTool e.itemCallID e.itemName) rfl
    · simp [hi]
  | argumentsDelta =>
    cases t.tools.lookup e.outputIndex with
    | none => simp [Frame.kind, ChatStreamState.addTool]
    | some index => simp [Frame.kind]
  | completion => cases includeUsage <;> simp [hkinds, hsent, Frame.kind]
  | failure => simp [Frame.kind]
  | other => simp

lemma translateAll_emitted (includeUsage : Bool) (payloads : List Text) (s : ChatStreamState) :
    let translated := translateAll includeUsage payloads s
    (translated.1 ++ if translated.2.terminalSent then [] else [Frame.done]).map Frame.kind =
      remaining includeUsage s.roleSent s.terminalSent (payloads.filterMap ChatEvent.decode) := by
  induction payloads generalizing s with
  | nil =>
    cases hs : s.terminalSent <;> simp [translateAll, remaining, hs, Frame.kind]
  | cons payload rest ih =>
    cases hd : ChatEvent.decode payload with
    | none => simpa [translateAll, translateChatEvent, hd] using ih s
    | some e =>
      obtain ⟨hkinds, hrole, hterm⟩ := translate_emitted includeUsage e s
      have := ih (translate includeUsage e s).2
      rw [hrole, hterm] at this
      rw [List.filterMap_cons, hd, remaining, ← this, ← hkinds, ← List.map_append,
        ← List.append_assoc]
      simp only [translateAll, translateChatEvent, hd]

lemma tail_delta {ks : List FrameKind} : Tail (.delta :: ks) ↔ Tail ks :=
  ⟨fun h => by cases h; assumption, .delta⟩

lemma grammar_role {ks : List FrameKind} : Grammar (.role :: ks) ↔ Tail ks :=
  ⟨fun h => by cases h; assumption, .role⟩

lemma tail_failure {ks : List FrameKind} : Tail (.error :: .done :: ks) ↔ ks = [] :=
  ⟨fun h => by cases h; rfl, fun h => h ▸ .error⟩

lemma grammar_failure {ks : List FrameKind} : Grammar (.error :: .done :: ks) ↔ ks = [] :=
  ⟨fun h => by cases h; rfl, fun h => h ▸ .error⟩

lemma tail_finish {ks : List FrameKind} : Tail (.finish :: .done :: ks) ↔ ks = [] :=
  ⟨fun h => by cases h; rfl, fun h => h ▸ .finish⟩

lemma tail_usage {ks : List FrameKind} : Tail (.finish :: .usage :: .done :: ks) ↔ ks = [] :=
  ⟨fun h => by cases h; rfl, fun h => h ▸ .usage⟩

lemma emitted_eq_nil {includeUsage roleSent : Bool} {e : ChatEvent} :
    emitted includeUsage roleSent e = [] ↔ e.isSilent roleSent = true := by
  unfold emitted ChatEvent.isSilent
  cases e.kind <;> cases roleSent <;> simp

lemma remaining_closed (includeUsage : Bool) (es : List ChatEvent) (roleSent : Bool) :
    remaining includeUsage roleSent true es = [] ↔ Orderly roleSent true es := by
  induction es generalizing roleSent with
  | nil => simp [remaining, Orderly]
  | cons e es ih =>
    rw [remaining, List.append_eq_nil_iff, emitted_eq_nil, Bool.true_or, ih, Orderly,
      Bool.true_or]
    refine ⟨fun ⟨hs, ho⟩ => ⟨fun hk => ?_, fun _ => hs, ho⟩, fun ⟨_, hs, ho⟩ => ⟨hs rfl, ho⟩⟩
    rw [ChatEvent.isSilent, hk] at hs
    cases hs

lemma remaining_tail (includeUsage : Bool) (es : List ChatEvent) :
    Tail (remaining includeUsage true false es) ↔ Orderly true false es := by
  induction es with
  | nil => exact ⟨fun _ => trivial, fun _ => .done⟩
  | cons e es ih =>
    have hclosed := remaining_closed includeUsage es true
    rw [remaining, Orderly, Bool.true_or, Bool.false_or]
    unfold emitted ChatEvent.isTerminal
    cases hk : e.kind with
    | created | other => simpa using ih
    | reasoningDelta =>
      by_cases hd : e.delta = ""
      · simpa [hd] using ih
      · simpa [hd, tail_delta] using ih
    | textDelta | argumentsDelta => simpa [tail_delta] using ih
    | itemAdded =>
      by_cases hi : e.itemType = "function_call"
      · simpa [hi, tail_delta] using ih
      · simpa [hi] using ih
    -- the stream is closed here, and nothing may follow
    | completion => cases includeUsage <;> simpa [tail_finish, tail_usage] using hclosed
    | failure => simpa [tail_failure] using hclosed

lemma emitted_role {includeUsage : Bool} {e : ChatEvent} (h : e.needsRole = true) :
    emitted includeUsage false e = .role :: emitted includeUsage true e := by
  unfold emitted
  unfold ChatEvent.needsRole at h
  cases hk : e.kind <;> simp_all

lemma remaining_grammar {includeUsage : Bool} (es : List ChatEvent) :
    Grammar (remaining includeUsage false false es) ↔ Orderly false false es := by
  induction es with
  | nil => exact ⟨fun _ => trivial, fun _ => .done⟩
  | cons e es ih =>
    cases hn : e.needsRole with
    | true =>
      -- the role goes first, and the rest is as if it had been sent before
      have htail := remaining_tail includeUsage (e :: es)
      have hk : e.kind ≠ .argumentsDelta := fun hk => by
        rw [ChatEvent.needsRole, hk] at hn
        cases hn
      rw [remaining, Orderly, Bool.true_or] at htail
      rw [remaining, emitted_role hn, hn, List.cons_append, grammar_role, Bool.or_true, htail,
        Orderly, hn, Bool.or_true]
      simp [hk]
    | false =>
      have hclosed := remaining_closed includeUsage es false
      rw [remaining, Orderly, hn, Bool.false_or, Bool.false_or]
      unfold ChatEvent.needsRole at hn
      unfold emitted ChatEvent.isTerminal
      cases hk : e.kind with
      | created | textDelta | completion => simp [hk] at hn
      | reasoningDelta => simpa [show e.delta = "" by simpa [hk] using hn] using ih
      | itemAdded => simpa [show e.itemType ≠ "function_call" by simpa [hk] using hn] using ih
      | argumentsDelta =>
        refine iff_of_false (fun h => ?_) fun h => by simpa using h.1
        cases h
      | failure => simpa [grammar_failure] using hclosed
      | other => simpa using ih

/-- **The chunk grammar holds exactly for orderly events.** Whatever the upstream sends up to EOF,
what `streamChatResponse` writes has its role, deltas, ending and end marker in order just when
no argument delta comes before an event that sends the role and nothing that has to be told
follows a terminal event. -/
theorem stream_grammar_iff (expose : Text → Text) (fallbackModel : String) (now : Int)
    (includeUsage : Bool) (stream : Text) :
    Grammar ((streamChatFrames expose fallbackModel now includeUsage stream).map Frame.kind) ↔
      Orderly false false ((payloads expose stream).filterMap ChatEvent.decode) := by
  rw [streamChatFrames, translateAll_emitted, ← remaining_grammar]
  rfl

/-- A response that fails after its completion has the stream ended twice. -/
theorem stream_ends_twice :
    let stream :=
      "data: \x7b\"type\":\"response.completed\"\x7d\n\ndata: \x7b\"type\":\"error\"\x7d\n\n".toList
    (streamChatFrames id "m" 0 false stream).map Frame.kind =
        [.role, .finish, .done, .error, .done] ∧
      ¬ Grammar ((streamChatFrames id "m" 0 false stream).map Frame.kind) := by
  intro stream
  have hkinds : (streamChatFrames id "m" 0 false stream).map Frame.kind =
      [.role, .finish, .done, .error, .done] := by decide
  refine ⟨hkinds, fun h => ?_⟩
  rw [hkinds, grammar_role, tail_finish] at h
  cases h

end CodexOne.Chat
