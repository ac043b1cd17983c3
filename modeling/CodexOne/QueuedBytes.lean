import CodexOne.Lib.Transition
import CodexOne.Lib.Url
import Mathlib.Algebra.Ring.Nat
import Mathlib.Algebra.Ring.Int.Defs

/-!
The bytes that are queued on a WebSocket connection, on either side.

A reader reserves the bytes of each frame before it sends the frame into the channel, and a consumer
releases them when it has taken the frame out. The counter is raised before the sum is known, so it
is wrong while a frame that does not fit is taken back. Every atomic operation is a step of its own.
-/

namespace CodexOne.WebSocketQueue

def webSocketClientQueueSize : ℕ := 16
def webSocketUpstreamEventBacklog : ℕ := 256
def defaultWebSocketReadLimit : ℤ := 32 * 2 ^ 20
def upstreamWebSocketReadLimit : ℤ := 64 * 2 ^ 20

inductive Side
  | downstream | upstream
  deriving DecidableEq

inductive MessageType
  | text | binary | other
  deriving DecidableEq

/-- Where the goroutine that reads the connection stands. -/
inductive Reader
  | reading
  /-- `reserve` has been called, and has not looked at the counter. -/
  | reserving (frame : Bytes)
  | adding (frame : Bytes)
  | rollingBack (frame : Bytes)
  /-- `reserve` has returned `false`. -/
  | refused (frame : Bytes)
  /-- `reserve` has returned `true`, and the frame is to be sent. -/
  | sending (frame : Bytes)
  | releasing (frame : Bytes)
  | ended
  deriving DecidableEq

/-- `downstreamWebSocketInbox` and `upstreamWebSocket`, what concerns the queue. The counter is far
from the bounds of its type, as the frames it counts are in memory. -/
structure Queue where
  side : Side
  maxQueuedBytes : ℤ
  queuedBytes : ℤ
  channel : List Bytes
  reader : Reader
  /-- The frame that was received from the channel and is not released. -/
  taken : Option Bytes
  stopped : Bool
  err : Option String
  deriving DecidableEq

def newDownstreamWebSocketInbox (readLimit : ℤ) : Queue :=
  ⟨.downstream, readLimit, 0, [], .reading, none, false, none⟩

def newUpstreamWebSocket : Queue :=
  ⟨.upstream, upstreamWebSocketReadLimit, 0, [], .reading, none, false, none⟩

/-- The limit of a session, from `MaxRequestBytes`. -/
def readLimit (maxRequestBytes : ℤ) : ℤ :=
  if maxRequestBytes ≤ 0 then defaultWebSocketReadLimit else maxRequestBytes

def capacity : Side → ℕ
  | .downstream => webSocketClientQueueSize
  | .upstream => webSocketUpstreamEventBacklog

namespace Queue

/-- `setError`, which keeps the first error. -/
def setError (q : Queue) (text : String) : Queue := { q with err := q.err.or (some text) }

def exceeds (q : Queue) : String :=
  match q.side with
  | .downstream => "queued WebSocket requests exceed " ++ toString q.maxQueuedBytes ++ " bytes"
  | .upstream => "queued upstream WebSocket events exceed " ++ toString q.maxQueuedBytes ++ " bytes"

/-- The frame that was read is not sent: the channel of the inbox is full, or the socket is
stopped. -/
def MayGiveUp (q : Queue) : Prop :=
  match q.side with
  | .downstream => capacity q.side ≤ q.channel.length
  | .upstream => q.stopped = true

instance (q : Queue) : Decidable q.MayGiveUp := by
  unfold MayGiveUp
  split <;> infer_instance

def release (q : Queue) (frame : Bytes) : Queue :=
  { q with queuedBytes := q.queuedBytes - frame.length }

end Queue

inductive Event
  | read (kind : MessageType) (payload : Bytes)
  | readError (text : String)
  /-- The test of the size in `reserve`. -/
  | check
  | add
  | rollBack
  /-- The reader sets the error of a refused frame. -/
  | report
  | send
  | giveUp
  | releaseUnsent
  | take
  | releaseTaken
  /-- The socket is closed, after an error of a ping or without one. -/
  | stop (text : Option String)
  deriving DecidableEq

open Queue

/-- A step of the reader, of the consumer, or of what stops the socket. -/
def step (q : Queue) : Event → Option Queue
  | .read kind payload =>
    if q.reader = .reading then
      some (match kind, q.side with
        | .text, _ => { q with reader := .reserving payload }
        | .binary, .downstream => { q with reader := .reserving payload }
        | .binary, .upstream =>
          { q.setError "upstream WebSocket sent an unexpected binary message" with
            reader := .ended }
        | .other, _ => q)
    else none
  | .readError text =>
    if q.reader = .reading then some { q.setError text with reader := .ended } else none
  | .check =>
    match q.reader with
    | .reserving frame =>
      if q.maxQueuedBytes ≤ 0 then some { q with reader := .refused frame }
      else if frame.length > q.maxQueuedBytes then some { q with reader := .refused frame }
      else some { q with reader := .adding frame }
    | _ => none
  | .add =>
    match q.reader with
    | .adding frame =>
      let total := q.queuedBytes + frame.length
      if total > q.maxQueuedBytes then
        some { q with queuedBytes := total, reader := .rollingBack frame }
      else some { q with queuedBytes := total, reader := .sending frame }
    | _ => none
  | .rollBack =>
    match q.reader with
    | .rollingBack frame =>
      some { q with queuedBytes := q.queuedBytes - frame.length, reader := .refused frame }
    | _ => none
  | .report =>
    match q.reader with
    | .refused _ => some { q.setError q.exceeds with reader := .ended }
    | _ => none
  | .send =>
    match q.reader with
    | .sending frame =>
      if q.channel.length < capacity q.side then
        some { q with channel := q.channel ++ [frame], reader := .reading }
      else none
    | _ => none
  | .giveUp =>
    match q.reader with
    | .sending frame => if q.MayGiveUp then some { q with reader := .releasing frame } else none
    | _ => none
  | .releaseUnsent =>
    match q.reader with
    | .releasing frame =>
      some (match q.side with
        | .downstream =>
          { (q.release frame).setError "too many queued WebSocket requests" with reader := .ended }
        | .upstream => { q.release frame with reader := .ended })
    | _ => none
  | .take =>
    match q.taken, q.channel with
    | none, frame :: rest => some { q with channel := rest, taken := some frame }
    | _, _ => none
  | .releaseTaken =>
    match q.taken with
    | some frame => some { q.release frame with taken := none }
    | none => none
  | .stop text =>
    match q.side with
    | .downstream => none
    | .upstream => some { (text.elim q q.setError) with stopped := true }

def newQueue (side : Side) (maxRequestBytes : ℤ) : Queue :=
  match side with
  | .downstream => newDownstreamWebSocketInbox (readLimit maxRequestBytes)
  | .upstream => newUpstreamWebSocket

def system (side : Side) (maxRequestBytes : ℤ) : TransitionSystem Queue Event :=
  ⟨newQueue side maxRequestBytes, step⟩

namespace Reader

/-- A call of `reserve` has not returned. -/
def Reserving : Reader → Prop
  | reserving _ | adding _ | rollingBack _ => True
  | _ => False

/-- The frame that the reader has reserved and not sent. -/
def unsent : Reader → Option Bytes
  | sending frame | releasing frame => some frame
  | _ => none

/-- The bytes that were added and are to be taken back. -/
def excess : Reader → ℤ
  | rollingBack frame => frame.length
  | _ => 0

/-- A call of `reserve` has been decided against a frame. -/
def Refuses (r : Reader) (frame : Bytes) : Prop := r = .rollingBack frame ∨ r = .refused frame

end Reader

def totalBytes (frames : List Bytes) : ℤ := (frames.map fun frame => (frame.length : ℤ)).sum

/-- The frames that are reserved and not released. -/
def Queue.reserved (q : Queue) : List Bytes :=
  q.channel ++ q.taken.toList ++ q.reader.unsent.toList

@[simp] lemma totalBytes_nil : totalBytes [] = 0 := rfl

@[simp] lemma totalBytes_cons (frame : Bytes) (frames : List Bytes) :
    totalBytes (frame :: frames) = frame.length + totalBytes frames := by
  simp [totalBytes]

@[simp] lemma totalBytes_append (a b : List Bytes) :
    totalBytes (a ++ b) = totalBytes a + totalBytes b := by
  simp [totalBytes]

lemma totalBytes_nonneg (frames : List Bytes) : 0 ≤ totalBytes frames := by
  induction frames with
  | nil => exact Int.le_refl 0
  | cons frame frames ih =>
    rw [totalBytes_cons]
    omega

/-! ### Every step -/

/-- The counter holds the bytes of the reserved frames, and those that are to be taken back. -/
structure Accounted (q : Queue) : Prop where
  counted : q.queuedBytes = totalBytes q.reserved + q.reader.excess
  bounded : totalBytes q.reserved ≤ q.maxQueuedBytes
  positive : 0 < q.maxQueuedBytes

lemma readLimit_pos (n : ℤ) : 0 < readLimit n := by
  unfold readLimit
  split_ifs with h
  · decide
  · omega

lemma accounted_newQueue (side : Side) (n : ℤ) : Accounted (newQueue side n) := by
  have hpos := readLimit_pos n
  cases side with
  | downstream => exact ⟨rfl, Int.le_of_lt hpos, hpos⟩
  | upstream =>
    have hupstream : (0 : ℤ) < upstreamWebSocketReadLimit := by decide
    exact ⟨rfl, Int.le_of_lt hupstream, hupstream⟩

variable {q t : Queue} {e : Event} {frame : Bytes}

lemma accounted_iff :
    Accounted q ↔
      q.queuedBytes = totalBytes q.channel + totalBytes q.taken.toList +
        totalBytes q.reader.unsent.toList + q.reader.excess ∧
      totalBytes q.channel + totalBytes q.taken.toList + totalBytes q.reader.unsent.toList ≤
        q.maxQueuedBytes ∧ 0 < q.maxQueuedBytes := by
  have htotal : totalBytes q.reserved = totalBytes q.channel + totalBytes q.taken.toList +
      totalBytes q.reader.unsent.toList := by
    rw [Queue.reserved, totalBytes_append, totalBytes_append]
  constructor
  · rintro ⟨h1, h2, h3⟩
    exact ⟨htotal ▸ h1, htotal ▸ h2, h3⟩
  · rintro ⟨h1, h2, h3⟩
    exact ⟨htotal.symm ▸ h1, htotal.symm ▸ h2, h3⟩

/-- **Every step keeps the account.** -/
theorem Accounted.step (h : Accounted q) (hs : step q e = some t) : Accounted t := by
  obtain ⟨side, limit, counter, channel, reader, taken, stopped, err⟩ := q
  obtain ⟨hcounter, hbound, hpos⟩ := accounted_iff.mp h
  have hchannel := totalBytes_nonneg channel
  have htaken := totalBytes_nonneg taken.toList
  dsimp only at hcounter hbound hpos
  rw [accounted_iff]
  cases e with
  | read kind payload =>
    unfold WebSocketQueue.step at hs
    dsimp only at hs
    split_ifs at hs with hr
    subst hr
    cases kind <;> cases side <;> cases hs <;> exact ⟨hcounter, hbound, hpos⟩
  | readError text =>
    unfold WebSocketQueue.step at hs
    dsimp only at hs
    split_ifs at hs with hr
    subst hr
    cases hs
    exact ⟨hcounter, hbound, hpos⟩
  | check =>
    cases reader with
    | reserving frame =>
      unfold WebSocketQueue.step at hs
      dsimp only at hs
      split_ifs at hs <;> cases hs <;> exact ⟨hcounter, hbound, hpos⟩
    | _ => cases hs
  | add =>
    cases reader with
    | adding frame =>
      simp only [Reader.unsent, Reader.excess, Option.toList, totalBytes_nil] at hcounter hbound
      unfold WebSocketQueue.step at hs
      dsimp only at hs
      split_ifs at hs with hover
      · -- the bytes have been counted, and are taken back after
        cases hs
        simp only [Reader.unsent, Reader.excess, Option.toList, totalBytes_nil]
        omega
      · cases hs
        simp only [Reader.unsent, Reader.excess, Option.toList, totalBytes_nil, totalBytes_cons]
        omega
    | _ => cases hs
  | rollBack =>
    cases reader with
    | rollingBack frame =>
      cases hs
      simp only [Reader.unsent, Reader.excess, Option.toList, totalBytes_nil] at hcounter hbound ⊢
      omega
    | _ => cases hs
  | report =>
    cases reader with
    | refused frame =>
      cases hs
      exact ⟨hcounter, hbound, hpos⟩
    | _ => cases hs
  | send =>
    cases reader with
    | sending frame =>
      unfold WebSocketQueue.step at hs
      dsimp only at hs
      split_ifs at hs
      cases hs
      simp only [Reader.unsent, Reader.excess, Option.toList, totalBytes_nil, totalBytes_cons,
        totalBytes_append] at hcounter hbound ⊢
      omega
    | _ => cases hs
  | giveUp =>
    cases reader with
    | sending frame =>
      unfold WebSocketQueue.step at hs
      dsimp only at hs
      split_ifs at hs
      cases hs
      exact ⟨hcounter, hbound, hpos⟩
    | _ => cases hs
  | releaseUnsent =>
    cases reader with
    | releasing frame =>
      simp only [Reader.unsent, Reader.excess, Option.toList, totalBytes_nil, totalBytes_cons]
        at hcounter hbound
      cases side <;> cases hs <;>
        simp only [setError, release, Reader.unsent, Reader.excess, Option.toList,
          totalBytes_nil] <;> omega
    | _ => cases hs
  | take =>
    cases taken with
    | some frame => cases hs
    | none =>
      cases channel with
      | nil => cases hs
      | cons frame rest =>
        cases hs
        simp only [Option.toList, totalBytes_nil, totalBytes_cons] at hcounter hbound ⊢
        omega
  | releaseTaken =>
    cases taken with
    | none => cases hs
    | some frame =>
      cases hs
      simp only [release, Option.toList, totalBytes_nil, totalBytes_cons] at hcounter hbound ⊢
      omega
  | stop text =>
    cases side with
    | downstream => cases hs
    | upstream =>
      cases hs
      cases text <;> exact ⟨hcounter, hbound, hpos⟩

lemma refuses_cases (hs : step q e = some t) (hbefore : ¬q.reader.Refuses frame)
    (hafter : t.reader.Refuses frame) :
    q.reader = .reserving frame ∧ (q.maxQueuedBytes ≤ 0 ∨ q.maxQueuedBytes < frame.length) ∨
      q.reader = .adding frame ∧ q.maxQueuedBytes < q.queuedBytes + frame.length := by
  have hsame (h : t.reader = q.reader) : False := hbefore (h ▸ hafter)
  -- the reader refuses nothing in any other place
  have hother {r : Reader} (hr : t.reader = r) (h1 : r ≠ .rollingBack frame)
      (h2 : r ≠ .refused frame) : False := by
    rcases hafter with h | h
    · exact h1 (hr.symm.trans h)
    · exact h2 (hr.symm.trans h)
  unfold step at hs
  cases e with
  | read kind payload =>
    dsimp only at hs
    split_ifs at hs with hr
    cases Option.some.inj hs
    cases kind with
    | text => exact (hother rfl nofun nofun).elim
    | binary =>
      cases hside : q.side <;> simp only [hside] at hother
      · exact (hother rfl nofun nofun).elim
      · exact (hother rfl nofun nofun).elim
    | other => exact (hsame rfl).elim
  | readError text =>
    dsimp only at hs
    split_ifs at hs with hr
    cases Option.some.inj hs
    exact (hother rfl nofun nofun).elim
  | check =>
    cases hr : q.reader <;> simp only [hr, reduceCtorEq] at hs
    split_ifs at hs with h1 h2 <;> cases Option.some.inj hs
    · rcases hafter with h | h
      · cases h
      · cases h
        exact .inl ⟨rfl, .inl h1⟩
    · rcases hafter with h | h
      · cases h
      · cases h
        exact .inl ⟨rfl, .inr h2⟩
    · exact (hother rfl nofun nofun).elim
  | add =>
    cases hr : q.reader <;> simp only [hr, reduceCtorEq] at hs
    split_ifs at hs with h1 <;> cases Option.some.inj hs
    · rcases hafter with h | h
      · cases h
        exact .inr ⟨rfl, h1⟩
      · cases h
    · exact (hother rfl nofun nofun).elim
  | rollBack =>
    cases hr : q.reader <;> simp only [hr, reduceCtorEq] at hs
    cases Option.some.inj hs
    rcases hafter with h | h
    · cases h
    · cases h
      exact absurd (.inl hr) hbefore
  | report =>
    cases hr : q.reader <;> simp only [hr, reduceCtorEq] at hs
    cases Option.some.inj hs
    exact (hother rfl nofun nofun).elim
  | send =>
    cases hr : q.reader <;> simp only [hr, reduceCtorEq] at hs
    split_ifs at hs
    cases Option.some.inj hs
    exact (hother rfl nofun nofun).elim
  | giveUp =>
    cases hr : q.reader <;> simp only [hr, reduceCtorEq] at hs
    split_ifs at hs
    cases Option.some.inj hs
    exact (hother rfl nofun nofun).elim
  | releaseUnsent =>
    cases hr : q.reader <;> simp only [hr, reduceCtorEq] at hs
    cases Option.some.inj hs
    cases hside : q.side <;> simp only [hside] at hother
    · exact (hother rfl nofun nofun).elim
    · exact (hother rfl nofun nofun).elim
  | take =>
    dsimp only at hs
    split at hs
    · cases Option.some.inj hs
      exact (hsame rfl).elim
    · cases hs
  | releaseTaken =>
    dsimp only at hs
    split at hs
    · cases Option.some.inj hs
      exact (hsame rfl).elim
    · cases hs
  | stop text =>
    dsimp only at hs
    split at hs
    · cases hs
    · cases Option.some.inj hs
      cases text <;> exact (hsame rfl).elim

lemma Accounted.refuses (h : Accounted q) (hs : WebSocketQueue.step q e = some t)
    (hbefore : ¬q.reader.Refuses frame) (hafter : t.reader.Refuses frame) :
    q.maxQueuedBytes < totalBytes q.reserved + frame.length := by
  have hnonneg := totalBytes_nonneg q.reserved
  have hpos := h.positive
  rcases refuses_cases hs hbefore hafter with ⟨-, hsize⟩ | ⟨hr, hsum⟩
  · omega
  · have hcounted := h.counted
    simp only [hr, Reader.excess] at hcounted
    omega

section Runs

variable {side : Side} {maxRequestBytes : ℤ}

lemma accounted_of_reach (h : (system side maxRequestBytes).Reach q) : Accounted q :=
  h.invariant (accounted_newQueue side maxRequestBytes) fun _ _ _ hi hs => hi.step hs

/-- **The queued bytes.** Unless a frame is being reserved, the counter is the sum of the frames
that are reserved and not released, between zero and the limit. A frame is refused only if it
does not fit beside these. -/
theorem queued_bytes_accounted (side : Side) (maxRequestBytes : ℤ) {q : Queue}
    (h : (system side maxRequestBytes).Reach q) :
    (¬q.reader.Reserving → q.queuedBytes = totalBytes q.reserved ∧ 0 ≤ q.queuedBytes ∧
      q.queuedBytes ≤ q.maxQueuedBytes ∧ (q.reserved = [] → q.queuedBytes = 0)) ∧
    ∀ e t frame, (system side maxRequestBytes).step q e = some t → ¬q.reader.Refuses frame →
      t.reader.Refuses frame → q.maxQueuedBytes < totalBytes q.reserved + frame.length := by
  have haccounted := accounted_of_reach h
  refine ⟨fun hidle => ?_, fun e t frame hs => haccounted.refuses hs⟩
  have hexcess : q.reader.excess = 0 := by
    unfold Reader.excess
    split
    · rename_i frame hr
      rw [hr] at hidle
      exact absurd trivial hidle
    · rfl
  have hcounter := haccounted.counted
  rw [hexcess, Int.add_zero] at hcounter
  have hbounded := haccounted.bounded
  have hnonneg := totalBytes_nonneg q.reserved
  refine ⟨hcounter, by omega, by omega, fun hnone => ?_⟩
  rw [hcounter, hnone]
  rfl

def sampleFrame : Bytes := List.replicate 5 0x31

/-- A frame of six bytes is reserved and sent, and one of five bytes is to be added. -/
def sampleEvents : List Event :=
  [.read .text (List.replicate 6 0x31), .check, .add, .send, .read .binary sampleFrame, .check]

theorem queued_bytes_accounted_sample :
    ∃ q t u, (system .downstream 10).run (newQueue .downstream 10) sampleEvents = some q ∧
      (system .downstream 10).step q .add = some t ∧
      (system .downstream 10).run t [.take, .rollBack] = some u ∧
      q.maxQueuedBytes < totalBytes q.reserved + sampleFrame.length ∧
      u.queuedBytes = totalBytes u.reserved ∧ u.queuedBytes = 6 := by
  have hsample : (((system .downstream 10).run (newQueue .downstream 10) sampleEvents).any
      fun q => ((system .downstream 10).step q .add).any fun t =>
        ((system .downstream 10).run t [.take, .rollBack]).any fun u =>
          decide (q.reader = .adding sampleFrame ∧ t.reader = .rollingBack sampleFrame ∧
            u.reader = .refused sampleFrame ∧ u.queuedBytes = 6)) = true := by
    decide
  obtain ⟨q, hq, hsample⟩ := (Option.any_eq_true _ _).mp hsample
  obtain ⟨t, ht, hsample⟩ := (Option.any_eq_true _ _).mp hsample
  obtain ⟨u, hu, hsample⟩ := (Option.any_eq_true _ _).mp hsample
  obtain ⟨hadding, hrolling, hrefused, hsix⟩ := of_decide_eq_true hsample
  have hrun : (system .downstream 10).run (newQueue .downstream 10)
      (sampleEvents ++ .add :: [.take, .rollBack]) = some u :=
    TransitionSystem.run_append.mpr ⟨q, hq, by rw [TransitionSystem.run, ht]; exact hu⟩
  -- the frame is refused at the addition
  have hfull := (queued_bytes_accounted .downstream 10 ⟨sampleEvents, hq⟩).2 .add t sampleFrame ht
    (by rw [hadding]; rintro (h | h) <;> cases h) (.inl hrolling)
  obtain ⟨hidle, -⟩ := queued_bytes_accounted .downstream 10 ⟨_, hrun⟩
  refine ⟨q, t, u, hq, ht, hu, hfull, (hidle ?_).1, hsix⟩
  rw [hrefused]
  exact id

end Runs

end CodexOne.WebSocketQueue
