import LlmGateway.Lib.EventStream

namespace LlmGateway

open Emitter EventStream

variable {s : PingKeepaliveStream} {upstream : EventStream}

/-- What the inner stream answers to a poll. -/
inductive InnerPoll
  | ready (item : Except String (List UInt8))
  | finished
  | pending

/-- `deadline` is when the sleep of `wait` is over. -/
structure PingKeepaliveStream where
  interval : Nat
  deadline : Nat
  done : Bool
  atLineStart : Bool

def withPingKeepalive (interval now : Nat) : PingKeepaliveStream := ⟨interval, now + interval, false, true⟩

/-- `: ping`, an SSE comment, and a blank line. -/
def pingFrame : List UInt8 := Utf8.encode ": ping\n\n"

/-- A poll at the time `poll.1` that the inner stream answers with `poll.2`. -/
def pollNext (poll : Nat × InnerPoll) : Emitter PingKeepaliveStream (Except String (List UInt8)) := fun s =>
  if s.done then ([], s)
  else match poll.2 with
    | .ready item =>
      let atLineStart := match item with
        | .ok bytes => bytes.getLast? == some 0x0A
        | .error _ => s.atLineStart
      ([item], { s with deadline := poll.1 + s.interval, atLineStart })
    | .finished => ([], { s with done := true })
    | .pending =>
      if s.deadline ≤ poll.1 then
        (if s.atLineStart then [.ok pingFrame] else [], { s with deadline := poll.1 + s.interval })
      else ([], s)

def chunkBytes : Except String (List UInt8) → List UInt8
  | .ok bytes => bytes
  | .error _ => []

def InnerPoll.bytes : InnerPoll → List UInt8
  | .ready item => chunkBytes item
  | .finished | .pending => []

def upstreamBytes : List (Nat × InnerPoll) → List UInt8
  | [] => []
  | (_, .finished) :: _ => []
  | (_, inner) :: rest => inner.bytes ++ upstreamBytes rest

def clientBytes (s : PingKeepaliveStream) (polls : List (Nat × InnerPoll)) : List UInt8 :=
  (forEach pollNext polls s).1.flatMap chunkBytes

def PingKeepaliveStream.pings (s : PingKeepaliveStream) : Nat × InnerPoll → Bool
  | (now, .pending) => !s.done && decide (s.deadline ≤ now) && s.atLineStart
  | _ => false

def pingsBetweenEvents (s : PingKeepaliveStream) (upstream : EventStream) : List (Nat × InnerPoll) → Bool
  | [] => true
  | poll :: rest =>
    (!s.pings poll || upstream.between &&
        !(upstream.unstarted && byteOrderMark.isPrefixOf (upstreamBytes rest))) &&
      pingsBetweenEvents (pollNext poll s).2 (forEach EventStream.read poll.2.bytes upstream).2 rest

def PingKeepaliveStream.Follows (s : PingKeepaliveStream) (upstream : EventStream) : Prop :=
  upstream.CrEnds ∧ (s.atLineStart → upstream.AtLineStart)

theorem forEach_read_pingFrame {s : EventStream} (atLineStart : s.AtLineStart) (between : s.between) :
    forEach EventStream.read pingFrame s = ([], s.started) := by
  have frame : pingFrame = 0x3A :: [0x20, 0x70, 0x69, 0x6E, 0x67] ++ [0x0A, 0x0A] := by decide
  rw [frame]
  exact forEach_read_comment (by simp) atLineStart between

theorem pollNext_done (done : s.done) (polls : List (Nat × InnerPoll)) :
    (forEach pollNext polls s).1 = [] := by
  induction polls with
  | nil => rfl
  | cons poll rest ih =>
    have stays : pollNext poll s = ([], s) := by simp [pollNext, done]
    rw [forEach, followedBy, stays]
    exact ih

theorem pollNext_ready (live : s.done = false) (now : Nat) (item : Except String (List UInt8)) :
    (pollNext (now, .ready item) s).1 = [item] ∧ (pollNext (now, .ready item) s).2.done = false := by
  simp [pollNext, live]

theorem pollNext_pending (live : s.done = false) (now : Nat) :
    (pollNext (now, .pending) s).1 = (if s.pings (now, .pending) then [.ok pingFrame] else []) ∧
      (pollNext (now, .pending) s).2.done = false ∧ (pollNext (now, .pending) s).2.atLineStart = s.atLineStart := by
  by_cases due : s.deadline ≤ now <;> simp [pollNext, PingKeepaliveStream.pings, live, due]

theorem PingKeepaliveStream.Follows.ready {now : Nat} {item : Except String (List UInt8)} (live : s.done = false)
    (follows : s.Follows upstream) :
    (pollNext (now, .ready item) s).2.Follows (forEach EventStream.read (chunkBytes item) upstream).2 := by
  refine ⟨forEach_read_crEnds follows.1, fun flag => ?_⟩
  cases item with
  | error message => exact follows.2 (by simpa [pollNext, live] using flag)
  | ok bytes => exact forEach_read_newline follows.1 (by simpa [pollNext, live, chunkBytes] using flag)

theorem readsAs_ping {future : List UInt8} {client : EventStream}
    (same : EventStream.ReadsAs future upstream client)
    (atLineStart : upstream.AtLineStart) (between : upstream.between)
    (unmarked : (upstream.unstarted && byteOrderMark.isPrefixOf future) = false) :
    (forEach EventStream.read pingFrame client).1 = [] ∧
      EventStream.ReadsAs future upstream (forEach EventStream.read pingFrame client).2 := by
  have read : forEach EventStream.read pingFrame client = ([], upstream.started) := by
    obtain rfl | ⟨rfl, -⟩ := same
    · exact forEach_read_pingFrame atLineStart between
    · exact forEach_read_pingFrame (s := upstream.started) atLineStart between
  rw [read]
  refine ⟨rfl, ?_⟩
  cases fresh : upstream.unstarted with
  | false =>
    left
    simp [started, ← fresh]
  | true =>
    refine .inr ⟨rfl, atLineStart.2, fun marked => ?_⟩
    rw [atLineStart.1, List.nil_append, ← List.isPrefixOf_iff_prefix] at marked
    simp [fresh, marked] at unmarked

theorem clientBytes_reads {client : EventStream} {polls : List (Nat × InnerPoll)} (live : s.done = false)
    (follows : s.Follows upstream) (same : EventStream.ReadsAs (upstreamBytes polls) upstream client)
    (safe : pingsBetweenEvents s upstream polls) :
    (forEach EventStream.read (clientBytes s polls) client).1 =
      (forEach EventStream.read (upstreamBytes polls) upstream).1 := by
  induction polls generalizing s upstream client with
  | nil => rfl
  | cons poll rest ih =>
    obtain ⟨now, inner⟩ := poll
    obtain ⟨safe, later⟩ := Bool.and_eq_true_iff.mp safe
    have sent : clientBytes s ((now, inner) :: rest) =
        (pollNext (now, inner) s).1.flatMap chunkBytes ++ clientBytes (pollNext (now, inner) s).2 rest :=
      List.flatMap_append
    rw [sent, forEach_append, followedBy_events]
    cases inner with
    | ready item =>
      obtain ⟨one, live'⟩ := pollNext_ready live now item
      have same : EventStream.ReadsAs (chunkBytes item ++ upstreamBytes rest) upstream client := same
      obtain ⟨read, same⟩ := same.forEach
      have first : (pollNext (now, .ready item) s).1.flatMap chunkBytes = chunkBytes item := by
        rw [one, List.flatMap_singleton]
      rw [first, read, ih live' (follows.ready live) same later]
      show _ = (forEach EventStream.read (chunkBytes item ++ upstreamBytes rest) upstream).1
      rw [forEach_append, followedBy_events]
    | finished =>
      have ended : (pollNext (now, .finished) s).2.done := by simp [pollNext, live]
      have none : (pollNext (now, .finished) s).1 = [] := by simp [pollNext, live]
      rw [none, clientBytes, pollNext_done ended]
      rfl
    | pending =>
      obtain ⟨emitted, live', flag⟩ := pollNext_pending live now
      have follows' : (pollNext (now, .pending) s).2.Follows upstream :=
        ⟨follows.1, fun set => follows.2 (flag ▸ set)⟩
      rw [emitted]
      cases pings : s.pings (now, .pending) with
      | false => exact ih live' follows' same later
      | true =>
        simp only [pings, Bool.not_true, Bool.false_or, Bool.and_eq_true, Bool.not_eq_true'] at safe
        have set : s.atLineStart := by
          simpa [PingKeepaliveStream.pings, live] using (Bool.and_eq_true_iff.mp pings).2
        obtain ⟨silent, same⟩ := readsAs_ping same (follows.2 set) safe.1 safe.2
        have ping : [Except.ok pingFrame].flatMap chunkBytes = pingFrame := List.flatMap_singleton ..
        simp only [↓reduceIte, ping, silent, List.nil_append]
        exact ih live' follows' same later

/-- Pings between the events of the upstream are invisible to a client that
parses the event stream. -/
theorem keepalive_transparent (interval now : Nat) (polls : List (Nat × InnerPoll))
    (safe : pingsBetweenEvents (withPingKeepalive interval now) .new polls) :
    messages (clientBytes (withPingKeepalive interval now) polls) =
      messages (upstreamBytes polls) :=
  clientBytes_reads rfl ⟨nofun, fun _ => ⟨rfl, rfl⟩⟩ (.inl rfl) safe

def gapsBetweenEvents : List (Nat × InnerPoll) :=
  [(1, .ready (.ok (Utf8.encode "data: a\n\n"))), (20, .pending), (21, .ready (.ok (Utf8.encode "data: b"))),
    (40, .pending), (41, .ready (.ok (Utf8.encode "c\n\n"))), (42, .finished)]

theorem gapsBetweenEvents_transparent : pingsBetweenEvents (withPingKeepalive 15 0) .new gapsBetweenEvents ∧
    messages (clientBytes (withPingKeepalive 15 0) gapsBetweenEvents) =
      messages (upstreamBytes gapsBetweenEvents) :=
  have safe : pingsBetweenEvents (withPingKeepalive 15 0) .new gapsBetweenEvents := by decide +kernel
  ⟨safe, keepalive_transparent 15 0 gapsBetweenEvents safe⟩

def gapInsideEvent : List (Nat × InnerPoll) :=
  [(1, .ready (.ok (Utf8.encode "event: delta\n"))), (20, .pending), (21, .ready (.ok (Utf8.encode "data: a\n\n"))),
    (22, .finished)]

/-- The blank line of the ping ends the event it falls into, which loses its type. -/
theorem ping_splits_event :
    messages (upstreamBytes gapInsideEvent) = [⟨"delta".toList, "a".toList, []⟩] ∧
      messages (clientBytes (withPingKeepalive 15 0) gapInsideEvent) =
        [⟨"message".toList, "a".toList, []⟩] := by
  decide +kernel

end LlmGateway
