import LlmGateway.Breaker.Breaker
import LlmGateway.Lib.Fallible
import LlmGateway.Lib.Json
import LlmGateway.Lib.Text
import LlmGateway.Lib.Utf8

namespace LlmGateway

open List

/-- What the candidate loops read of a provider. -/
structure Candidate where
  id : Int
  name : Str
  deriving DecidableEq

def addCandidate (providers list : List Candidate) (id : Int) : List Candidate :=
  match providers.find? (·.id = id) with
  | some provider => if list.any (·.id = id) then list else list ++ [provider]
  | none => list

def resolveCandidates (providers : List Candidate) (ids : List Int) : List Candidate :=
  ids.foldl (addCandidate providers) []

structure Reply where
  status : Nat
  body : List UInt8
  contentType : Str

/-- A reply that is kept while other candidates are tried. -/
structure Failure where
  reply : Reply
  /-- whose reply it is; the loops do not know it -/
  producer : Candidate

def statusRetryable (status : Nat) : Bool :=
  if 200 ≤ status ∧ status < 300 then false else !([400, 405, 406, 413, 414, 415, 422, 501].contains status)

def upstreamErrorEnvelope (message : Str) : List UInt8 :=
  Utf8.encode (String.ofList (Json.print (.obj [("error", .obj [("code", .str "upstream_error".toList),
    ("message", .str message), ("type", .str "upstream_error".toList)])])))

/-- How the first part of a stream is read. -/
inductive Priming
  | committed
  /-- an answer that is no stream is complete and passed on as it is -/
  | body
  | errorEnvelope (message : Str)
  | transportError (error : Str)
  | ended (empty : Bool)

/-- How a body is read that is not streamed. -/
inductive BodyRead
  | whole
  | failed

/-- What happens with a candidate that the breaker lets through. -/
inductive Attempt (ρ : Type)
  | buildFailed (message : Str)
  | undecryptable
  /-- a client error that could not be repaired -/
  | preRead (reply : Reply)
  | unsent (error : Str)
  | replied (reply : Reply) (reading : ρ)

structure Trial (ρ : Type) where
  filtered : Nat
  asked : Nat
  noted : Nat
  attempt : Attempt ρ

inductive ProxyError
  | unsupportedPairing
  | build (message : Str)
  | upstreamTimeout
  | badGateway
  | upstreamExhausted

/-- How a request ends: a reply is passed on, with the provider of the usage row and that of the error context. -/
inductive ProxyResult
  | relayed (usageProvider : Int) (context : Candidate) (failure : Failure)
  | error (error : ProxyError)

structure LoopState where
  breaker : Breaker
  /-- the provider of the usage row -/
  providerId : Int
  lastFailure : Option Failure
  lastFailed : Option Candidate
  sawTimeout : Bool
  sawConnectError : Bool

namespace LoopState

def recordFailure (s : LoopState) (cfg : BreakerConfig) (now : Nat) (provider : Candidate) : LoopState :=
  { s with breaker := s.breaker.recordFailure cfg now provider.id }

def sawError (s : LoopState) (error : Str) : LoopState :=
  if (Text.cutAt "header timeout".toList error).isSome then { s with sawTimeout := true }
  else { s with sawConnectError := true }

variable (s : LoopState) (error : Str)

@[simp] theorem sawError_breaker : (s.sawError error).breaker = s.breaker := by
  unfold sawError
  split_ifs <;> rfl

@[simp] theorem sawError_providerId : (s.sawError error).providerId = s.providerId := by
  unfold sawError
  split_ifs <;> rfl

@[simp] theorem sawError_lastFailure : (s.sawError error).lastFailure = s.lastFailure := by
  unfold sawError
  split_ifs <;> rfl

end LoopState

def askBreaker (check : Bool) (now : Nat) (provider : Int) (breaker : Breaker) : Breaker × Bool :=
  if check then breaker.allow now provider else (breaker, true)

def unproductive (message : Str) : Reply := ⟨502, upstreamErrorEnvelope message, "application/json".toList⟩

section Loops

variable (cfg : BreakerConfig) (check : Bool)

def streamStep (trial : Int → Trial Priming) (s : LoopState) (provider : Candidate) :
    Except ProxyResult LoopState :=
  let now := trial provider.id
  let (breaker, allowed) := askBreaker check now.asked provider.id s.breaker
  let s := { s with providerId := provider.id, breaker }
  if !allowed then .ok s
  else
    match now.attempt with
    | .buildFailed message => .error (.error (.build message))
    | .undecryptable => .ok (s.recordFailure cfg now.noted provider)
    | .preRead reply => .error (.relayed s.providerId provider ⟨reply, provider⟩)
    | .unsent error =>
      .ok { (s.sawError error).recordFailure cfg now.noted provider with lastFailed := some provider }
    | .replied reply priming =>
      let failed (s : LoopState) (reply : Reply) : LoopState :=
        { s.recordFailure cfg now.noted provider with
          lastFailure := some ⟨reply, provider⟩
          lastFailed := some provider }
      if statusRetryable reply.status then .ok (failed s reply)
      else
        match priming with
        | .committed | .body => .error (.relayed s.providerId provider ⟨reply, provider⟩)
        | .errorEnvelope message => .ok (failed s (unproductive message))
        | .transportError error =>
          .ok (failed (s.sawError error)
            (unproductive ("upstream stream failed before productive output: ".toList ++ error)))
        | .ended true => .ok (failed s (unproductive "upstream stream ended before first byte".toList))
        | .ended false => .ok (failed s (unproductive "upstream stream ended before productive output".toList))

def bodyStep (trial : Int → Trial BodyRead) (s : LoopState) (provider : Candidate) : Except ProxyResult LoopState :=
  let now := trial provider.id
  let (breaker, allowed) := askBreaker check now.asked provider.id s.breaker
  let s := { s with providerId := provider.id, breaker }
  if !allowed then .ok s
  else
    let failed := { s.recordFailure cfg now.noted provider with lastFailed := some provider }
    match now.attempt with
    | .undecryptable => .ok failed
    | .buildFailed message => .error (.error (.build message))
    | .preRead reply => .error (.relayed s.providerId provider ⟨reply, provider⟩)
    | .unsent _ => .ok failed
    | .replied reply reading =>
      if statusRetryable reply.status then .ok { failed with lastFailure := some ⟨reply, provider⟩ }
      else
        match reading with
        | .whole => .error (.relayed s.providerId provider ⟨reply, provider⟩)
        | .failed => .ok failed

end Loops

def filterCandidates (asked : Int → Nat) (breaker : Breaker) : List Candidate → Breaker × List Candidate
  | [] => (breaker, [])
  | provider :: rest =>
    let (breaker, allowed) := breaker.allow (asked provider.id) provider.id
    let (breaker, kept) := filterCandidates asked breaker rest
    (breaker, if allowed then provider :: kept else kept)

/-- The breaker and the candidates with which a loop starts, and whether it asks the breaker again. -/
structure LoopStart where
  breaker : Breaker
  candidates : List Candidate
  checkBreaker : Bool

def loopStart (asked : Int → Nat) (breaker : Breaker) (supported : List Candidate) : LoopStart :=
  let (breaker, kept) := filterCandidates asked breaker supported
  if kept.isEmpty then ⟨breaker, supported, false⟩ else ⟨breaker, kept, 1 < kept.length⟩

def LoopStart.tried (start : LoopStart) (maxAttempts : Nat) : List Candidate :=
  start.candidates.take (min start.candidates.length (max maxAttempts 1))

/-- A loop over the candidates, and what is sent when all of them have failed. -/
def tryCandidates (start : LoopStart) (maxAttempts : Nat)
    (step : LoopState → Candidate → Except ProxyResult LoopState) (exhausted : LoopState → ProxyError) :
    ProxyResult :=
  match start.candidates with
  | [] => .error .unsupportedPairing
  | primary :: _ =>
    match (start.tried maxAttempts).foldlM step ⟨start.breaker, primary.id, none, none, false, false⟩ with
    | .error result => result
    | .ok last =>
      match last.lastFailure with
      | some failure => .relayed last.providerId (last.lastFailed.getD primary) failure
      | none => .error (exhausted last)

def proxyStream (cfg : BreakerConfig) (maxAttempts : Nat) (breaker : Breaker) (trial : Int → Trial Priming)
    (supported : List Candidate) : ProxyResult :=
  let start := loopStart (fun id => (trial id).filtered) breaker supported
  tryCandidates start maxAttempts (streamStep cfg start.checkBreaker trial) fun last =>
    if last.sawTimeout then .upstreamTimeout else if last.sawConnectError then .badGateway else .upstreamExhausted

def proxyBody (cfg : BreakerConfig) (maxAttempts : Nat) (breaker : Breaker) (trial : Int → Trial BodyRead)
    (supported : List Candidate) : ProxyResult :=
  let start := loopStart (fun id => (trial id).filtered) breaker supported
  tryCandidates start maxAttempts (bodyStep cfg start.checkBreaker trial) fun _ => .upstreamExhausted

theorem addCandidate_distinct (providers : List Candidate) {list : List Candidate} (id : Int)
    (distinct : (list.map Candidate.id).Nodup) : ((addCandidate providers list id).map Candidate.id).Nodup := by
  rw [addCandidate]
  cases found : providers.find? (·.id = id) with
  | none => exact distinct
  | some provider =>
    split_ifs with present
    · exact distinct
    · have same : provider.id = id := by simpa using List.find?_some found
      rw [map_append, nodup_append]
      refine ⟨distinct, nodup_singleton _, ?_⟩
      rintro other mem _ last rfl
      rw [map_singleton, mem_singleton] at last
      obtain ⟨old, held, named⟩ := mem_map.mp mem
      refine present (any_eq_true.mpr ⟨old, held, decide_eq_true ?_⟩)
      rw [named, last, same]

theorem resolveCandidates_distinct (providers : List Candidate) (ids : List Int) :
    ((resolveCandidates providers ids).map Candidate.id).Nodup := by
  suffices kept : ∀ list : List Candidate, (list.map Candidate.id).Nodup →
      ((ids.foldl (addCandidate providers) list).map Candidate.id).Nodup from kept [] nodup_nil
  induction ids with
  | nil => exact fun list distinct => distinct
  | cons id rest ih => exact fun list distinct => ih _ (addCandidate_distinct providers id distinct)

theorem filterCandidates_sublist (asked : Int → Nat) (breaker : Breaker) (supported : List Candidate) :
    (filterCandidates asked breaker supported).2.Sublist supported := by
  induction supported generalizing breaker with
  | nil => exact .slnil
  | cons provider rest ih =>
    rw [filterCandidates]
    dsimp only
    split_ifs
    · exact (ih _).cons_cons provider
    · exact (ih _).cons provider

theorem tried_sublist (asked : Int → Nat) (breaker : Breaker) (supported : List Candidate) (maxAttempts : Nat) :
    ((loopStart asked breaker supported).tried maxAttempts).Sublist supported := by
  refine (take_sublist _ _).trans ?_
  rw [loopStart]
  dsimp only
  split_ifs
  · exact List.Sublist.refl _
  · exact filterCandidates_sublist asked breaker supported

section Attribution

def Attributed (result : ProxyResult) : Prop :=
  ∀ usageProvider context failure, result = .relayed usageProvider context failure →
    usageProvider = failure.producer.id ∧ context = failure.producer

/-- What a candidate does to the request. -/
inductive Fate
  /-- the request ends with it -/
  | ends
  /-- it is passed over, or fails without a reply -/
  | silent
  /-- it fails with a reply that is kept -/
  | left
  deriving DecidableEq

def streamFate : Attempt Priming → Fate
  | .buildFailed _ | .preRead _ => .ends
  | .undecryptable | .unsent _ => .silent
  | .replied reply .committed | .replied reply .body => if statusRetryable reply.status then .left else .ends
  | .replied _ _ => .left

def bodyFate : Attempt BodyRead → Fate
  | .buildFailed _ | .preRead _ => .ends
  | .undecryptable | .unsent _ => .silent
  | .replied reply .whole => if statusRetryable reply.status then .left else .ends
  | .replied reply .failed => if statusRetryable reply.status then .left else .silent

def LoopStart.fate {ρ : Type} (start : LoopStart) (trial : Int → Trial ρ) (fate : Attempt ρ → Fate)
    (provider : Candidate) : Fate :=
  if (askBreaker start.checkBreaker (trial provider.id).asked provider.id start.breaker).2 then
    fate (trial provider.id).attempt
  else .silent

/-- What a step does, by the fate of its candidate. -/
def Stepped (s : LoopState) (provider : Candidate) : Fate → Except ProxyResult LoopState → Prop
  | .ends, next => ∃ result, next = .error result ∧ Attributed result
  | .silent, next =>
    ∃ after, next = .ok after ∧ after.providerId = provider.id ∧ after.lastFailure = s.lastFailure ∧
      ∀ other ≠ provider.id, after.breaker.entry other = s.breaker.entry other
  | .left, next => ∃ after, next = .ok after ∧ after.providerId = provider.id ∧
      (∃ reply, after.lastFailure = some ⟨reply, provider⟩) ∧ after.lastFailed = some provider ∧
      ∀ other ≠ provider.id, after.breaker.entry other = s.breaker.entry other

variable {s : LoopState} {provider : Candidate} {cfg : BreakerConfig} {check : Bool} {now : Nat}

theorem attributed_error (error : ProxyError) : Attributed (.error error) := by
  intro usageProvider context failure same
  cases same

theorem attributed_relayed (reply : Reply) : Attributed (.relayed provider.id provider ⟨reply, provider⟩) := by
  intro usageProvider context failure same
  cases same
  exact ⟨rfl, rfl⟩

theorem askBreaker_entry {breaker : Breaker} {id other : Int} (different : other ≠ id) :
    (askBreaker check now id breaker).1.entry other = breaker.entry other := by
  cases check with
  | false => rfl
  | true => exact Breaker.entry_put_of_ne different

theorem askBreaker_allowed {breaker started : Breaker} {id : Int} (same : breaker.entry id = started.entry id) :
    (askBreaker check now id breaker).2 = (askBreaker check now id started).2 := by
  cases check with
  | false => rfl
  | true =>
    show ((breaker.entry id).allow now).2 = ((started.entry id).allow now).2
    rw [same]

theorem noted_entry {breaker : Breaker} {noted : Nat} (id other : Int) (different : other ≠ id) :
    ((askBreaker check now id breaker).1.recordFailure cfg noted id).entry other = breaker.entry other := by
  rw [Breaker.recordFailure_entry, if_neg different, askBreaker_entry different]

theorem streamStep_stepped {start : LoopStart} (trial : Int → Trial Priming)
    (same : s.breaker.entry provider.id = start.breaker.entry provider.id) :
    Stepped s provider (start.fate trial streamFate provider)
      (streamStep cfg start.checkBreaker trial s provider) := by
  rw [LoopStart.fate, ← askBreaker_allowed same, streamStep]
  dsimp only
  cases allowed : (askBreaker start.checkBreaker (trial provider.id).asked provider.id s.breaker).2 with
  | false => exact ⟨_, rfl, rfl, rfl, fun other different => askBreaker_entry different⟩
  | true =>
    cases attempt : (trial provider.id).attempt with
    | buildFailed message => exact ⟨_, rfl, attributed_error _⟩
    | undecryptable => exact ⟨_, rfl, rfl, rfl, noted_entry _⟩
    | preRead reply => exact ⟨_, rfl, attributed_relayed reply⟩
    | unsent error =>
      refine ⟨_, rfl, ?_, ?_, fun other different => ?_⟩
      · simp [LoopState.recordFailure]
      · simp [LoopState.recordFailure]
      · simpa [LoopState.recordFailure] using noted_entry _ other different
    | replied reply priming =>
      dsimp only
      cases retryable : statusRetryable reply.status with
      | true =>
        have left : streamFate (.replied reply priming) = .left := by cases priming <;> simp [streamFate, retryable]
        rw [if_pos rfl, if_pos rfl, left]
        exact ⟨_, rfl, rfl, ⟨reply, rfl⟩, rfl, noted_entry _⟩
      | false =>
        cases priming with
        | committed =>
          have ends : streamFate (.replied reply .committed) = .ends := by simp [streamFate, retryable]
          rw [if_pos rfl, ends]
          exact ⟨_, rfl, attributed_relayed reply⟩
        | body =>
          have ends : streamFate (.replied reply .body) = .ends := by simp [streamFate, retryable]
          rw [if_pos rfl, ends]
          exact ⟨_, rfl, attributed_relayed reply⟩
        | errorEnvelope message => exact ⟨_, rfl, rfl, ⟨_, rfl⟩, rfl, noted_entry _⟩
        | transportError error =>
          refine ⟨_, rfl, ?_, ⟨_, rfl⟩, rfl, fun other different => ?_⟩
          · simp [LoopState.recordFailure]
          · simpa [LoopState.recordFailure] using noted_entry _ other different
        | ended empty => cases empty <;> exact ⟨_, rfl, rfl, ⟨_, rfl⟩, rfl, noted_entry _⟩

theorem bodyStep_stepped {start : LoopStart} (trial : Int → Trial BodyRead)
    (same : s.breaker.entry provider.id = start.breaker.entry provider.id) :
    Stepped s provider (start.fate trial bodyFate provider) (bodyStep cfg start.checkBreaker trial s provider) := by
  rw [LoopStart.fate, ← askBreaker_allowed same, bodyStep]
  dsimp only
  cases allowed : (askBreaker start.checkBreaker (trial provider.id).asked provider.id s.breaker).2 with
  | false => exact ⟨_, rfl, rfl, rfl, fun other different => askBreaker_entry different⟩
  | true =>
    cases attempt : (trial provider.id).attempt with
    | buildFailed message => exact ⟨_, rfl, attributed_error _⟩
    | undecryptable => exact ⟨_, rfl, rfl, rfl, noted_entry _⟩
    | preRead reply => exact ⟨_, rfl, attributed_relayed reply⟩
    | unsent error => exact ⟨_, rfl, rfl, rfl, noted_entry _⟩
    | replied reply reading =>
      dsimp only
      cases retryable : statusRetryable reply.status with
      | true =>
        have left : bodyFate (.replied reply reading) = .left := by cases reading <;> simp [bodyFate, retryable]
        rw [if_pos rfl, if_pos rfl, left]
        exact ⟨_, rfl, rfl, ⟨reply, rfl⟩, rfl, noted_entry _⟩
      | false =>
        cases reading with
        | whole =>
          have ends : bodyFate (.replied reply .whole) = .ends := by simp [bodyFate, retryable]
          rw [if_pos rfl, ends]
          exact ⟨_, rfl, attributed_relayed reply⟩
        | failed =>
          have silent : bodyFate (.replied reply .failed) = .silent := by simp [bodyFate, retryable]
          rw [if_pos rfl, silent]
          exact ⟨_, rfl, rfl, rfl, noted_entry _⟩

def StepsBy (start : LoopStart) (fate : Candidate → Fate)
    (step : LoopState → Candidate → Except ProxyResult LoopState) :
    Prop :=
  ∀ s provider, s.breaker.entry provider.id = start.breaker.entry provider.id →
    Stepped s provider (fate provider) (step s provider)

variable {start : LoopStart} {fate : Candidate → Fate} {step : LoopState → Candidate → Except ProxyResult LoopState}

/-- What the loop knows after candidates of which none ended the request. -/
structure Passed (start : LoopStart) (fate : Candidate → Fate) (tried : List Candidate) (s : LoopState) : Prop where
  producer_mem : ∀ failure, s.lastFailure = some failure → failure.producer ∈ tried
  isSome_iff : s.lastFailure.isSome ↔ ∃ provider ∈ tried, fate provider = .left
  entry_eq : ∀ id, id ∉ tried.map Candidate.id → s.breaker.entry id = start.breaker.entry id

theorem passed_start (id : Int) : Passed start fate [] ⟨start.breaker, id, none, none, false, false⟩ := by
  refine ⟨fun failure found => ?_, ?_, fun _ _ => rfl⟩
  · cases found
  · simp

theorem Passed.next {tried : List Candidate} (passed : Passed start fate tried s) (steps : StepsBy start fate step)
    (fresh : provider.id ∉ tried.map Candidate.id) (goes : fate provider ≠ .ends) :
    ∃ after, step s provider = .ok after ∧ Passed start fate (tried ++ [provider]) after ∧
      after.providerId = provider.id ∧
      (fate provider = .left → ∃ reply, after.lastFailure = some ⟨reply, provider⟩ ∧
        after.lastFailed = some provider) ∧
      (fate provider ≠ .left → after.lastFailure = s.lastFailure) := by
  have stepped := steps s provider (passed.entry_eq _ fresh)
  have others {after : LoopState} (entries : ∀ other ≠ provider.id, after.breaker.entry other =
      s.breaker.entry other) (id : Int) (unseen : id ∉ (tried ++ [provider]).map Candidate.id) :
      after.breaker.entry id = start.breaker.entry id := by
    rw [map_append, mem_append, not_or, map_singleton, mem_singleton] at unseen
    rw [entries id unseen.2, passed.entry_eq id unseen.1]
  cases chosen : fate provider with
  | ends => exact absurd chosen goes
  | silent =>
    rw [chosen] at stepped
    obtain ⟨after, ran, named, kept, entries⟩ := stepped
    refine ⟨after, ran, ⟨fun failure found => ?_, ?_, others entries⟩, named, fun left => ?_, fun _ => kept⟩
    · exact mem_append_left _ (passed.producer_mem failure (kept ▸ found))
    · rw [kept, passed.isSome_iff]
      simp [chosen, or_and_right, exists_or]
    · cases left
  | left =>
    rw [chosen] at stepped
    obtain ⟨after, ran, named, ⟨reply, written⟩, blamed, entries⟩ := stepped
    refine ⟨after, ran, ⟨fun failure found => ?_, ?_, others entries⟩, named, fun _ => ⟨reply, written, blamed⟩,
      fun other => absurd rfl other⟩
    · rw [written] at found
      cases found
      simp
    · rw [written]
      exact iff_of_true rfl ⟨provider, by simp, chosen⟩

theorem run_passed {tried : List Candidate} (steps : StepsBy start fate step)
    (distinct : (tried.map Candidate.id).Nodup) (go : ∀ provider ∈ tried, fate provider ≠ .ends) (id : Int) :
    ∃ last, tried.foldlM step ⟨start.breaker, id, none, none, false, false⟩ = .ok last ∧
      Passed start fate tried last := by
  induction tried using List.reverseRecOn with
  | nil => exact ⟨_, rfl, passed_start id⟩
  | append_singleton tried provider ih =>
    rw [map_append, nodup_append] at distinct
    obtain ⟨last, ran, passed⟩ := ih distinct.1 fun other mem => go other (mem_append_left _ mem)
    have fresh : provider.id ∉ tried.map Candidate.id := fun mem =>
      distinct.2.2 _ mem _ (mem_singleton.mpr rfl) rfl
    obtain ⟨after, stepped, next, _⟩ := passed.next steps fresh (go provider (by simp))
    refine ⟨after, ?_, next⟩
    rw [Fallible.foldlM_concat ran, stepped]

theorem run_ends {tried : List Candidate} (steps : StepsBy start fate step)
    (distinct : (tried.map Candidate.id).Nodup) (ended : ∃ provider ∈ tried, fate provider = .ends) (id : Int) :
    ∃ result, tried.foldlM step ⟨start.breaker, id, none, none, false, false⟩ = .error result ∧
      Attributed result := by
  induction tried using List.reverseRecOn with
  | nil => simp at ended
  | append_singleton tried provider ih =>
    rw [map_append, nodup_append] at distinct
    by_cases earlier : ∃ provider ∈ tried, fate provider = .ends
    · obtain ⟨result, ran, attributed⟩ := ih distinct.1 earlier
      refine ⟨result, ?_, attributed⟩
      rw [foldlM_append, ran]
      rfl
    · have go : ∀ provider ∈ tried, fate provider ≠ .ends := fun other mem ends => earlier ⟨other, mem, ends⟩
      obtain ⟨last, ran, passed⟩ := run_passed steps distinct.1 go id
      have fresh : provider.id ∉ tried.map Candidate.id := fun mem =>
        distinct.2.2 _ mem _ (mem_singleton.mpr rfl) rfl
      have ends : fate provider = .ends := by
        obtain ⟨other, mem, ends⟩ := ended
        rw [mem_append, mem_singleton] at mem
        rcases mem with old | rfl
        · exact absurd ends (go other old)
        · exact ends
      have stepped := steps last provider (passed.entry_eq _ fresh)
      rw [ends] at stepped
      obtain ⟨result, stopped, attributed⟩ := stepped
      refine ⟨result, ?_, attributed⟩
      rw [Fallible.foldlM_concat ran, stopped]

def LastLeaves (fate : Candidate → Fate) (tried : List Candidate) : Prop :=
  (∀ provider ∈ tried, fate provider ≠ .ends) → (∃ provider ∈ tried, fate provider = .left) →
    ∃ provider ∈ tried.getLast?, fate provider = .left

theorem tryCandidates_attributed_iff {maxAttempts : Nat} {exhausted : LoopState → ProxyError}
    (steps : StepsBy start fate step) (distinct : ((start.tried maxAttempts).map Candidate.id).Nodup) :
    Attributed (tryCandidates start maxAttempts step exhausted) ↔ LastLeaves fate (start.tried maxAttempts) := by
  rw [tryCandidates]
  cases candidates : start.candidates with
  | nil =>
    refine iff_of_true (attributed_error _) fun _ left => ?_
    simp [LoopStart.tried, candidates] at left
  | cons primary others =>
    dsimp only
    by_cases ended : ∃ provider ∈ start.tried maxAttempts, fate provider = .ends
    · obtain ⟨result, ran, attributed⟩ := run_ends steps distinct ended primary.id
      rw [ran]
      obtain ⟨provider, mem, ends⟩ := ended
      exact iff_of_true attributed fun go => absurd ends (go provider mem)
    · have go : ∀ provider ∈ start.tried maxAttempts, fate provider ≠ .ends :=
        fun other mem ends => ended ⟨other, mem, ends⟩
      have filled : start.tried maxAttempts ≠ [] := by
        rw [LoopStart.tried, candidates, length_cons, Ne, take_eq_nil_iff]
        simp
      obtain ⟨tried, provider, split⟩ := (eq_nil_or_concat (start.tried maxAttempts)).resolve_left filled
      rw [concat_eq_append] at split
      rw [split] at distinct go ⊢
      rw [map_append, nodup_append] at distinct
      have fresh : provider.id ∉ tried.map Candidate.id := fun mem =>
        distinct.2.2 _ mem _ (mem_singleton.mpr rfl) rfl
      obtain ⟨before, ran, passed⟩ := run_passed steps distinct.1 (fun other mem => go other (by simp [mem]))
        primary.id
      obtain ⟨after, stepped, next, named, left, kept⟩ := passed.next steps fresh (go provider (by simp))
      rw [Fallible.foldlM_concat ran, stepped]
      dsimp only
      by_cases leaves : fate provider = .left
      · obtain ⟨reply, written, blamed⟩ := left leaves
        rw [written, named, blamed]
        exact iff_of_true (attributed_relayed reply) fun _ _ => ⟨provider, by simp, leaves⟩
      · cases found : after.lastFailure with
        | none =>
          refine iff_of_true (attributed_error _) fun _ some => ?_
          rw [← next.isSome_iff, found] at some
          cases some
        | some failure =>
          -- the reply is one of an earlier candidate, and the usage row names the last one
          refine iff_of_false (fun attributed => ?_) fun last => ?_
          · have same := (attributed _ _ failure rfl).1
            rw [named] at same
            have mem := passed.producer_mem failure (kept leaves ▸ found)
            exact fresh (same ▸ mem_map_of_mem mem)
          · obtain ⟨other, ends, leavesOne⟩ := last go (next.isSome_iff.mp (by rw [found]; rfl))
            rw [List.getLast?_concat, Option.mem_some_iff] at ends
            exact leaves (ends ▸ leavesOne)

/-- Both loops attribute a failure to the right provider unless the last candidate left no reply of its own. -/
theorem failure_attributed_iff (cfg : BreakerConfig) (maxAttempts : Nat) (breaker : Breaker)
    (primings : Int → Trial Priming) (bodies : Int → Trial BodyRead) (providers : List Candidate) (ids : List Int)
    (supported : List Candidate) (resolved : supported.Sublist (resolveCandidates providers ids)) :
    let stream := loopStart (fun id => (primings id).filtered) breaker supported
    let body := loopStart (fun id => (bodies id).filtered) breaker supported
    (Attributed (proxyStream cfg maxAttempts breaker primings supported) ↔
      LastLeaves (stream.fate primings streamFate) (stream.tried maxAttempts)) ∧
    (Attributed (proxyBody cfg maxAttempts breaker bodies supported) ↔
      LastLeaves (body.fate bodies bodyFate) (body.tried maxAttempts)) := by
  have distinct (asked : Int → Nat) :
      (((loopStart asked breaker supported).tried maxAttempts).map Candidate.id).Nodup :=
    (resolveCandidates_distinct providers ids).sublist
      (((tried_sublist asked breaker supported maxAttempts).trans resolved).map Candidate.id)
  constructor
  · exact tryCandidates_attributed_iff (fun s provider same => streamStep_stepped primings same) (distinct _)
  · exact tryCandidates_attributed_iff (fun s provider same => bodyStep_stepped bodies same) (distinct _)

end Attribution

def alpha : Candidate := ⟨1, "alpha".toList⟩

def beta : Candidate := ⟨2, "beta".toList⟩

def probeDue : Breaker := ⟨fun id => if id = 2 then some { openUntil := some 5 } else none⟩

def unavailable : Reply := ⟨503, [], "application/json".toList⟩

theorem both_fail_attributed :
    Attributed (proxyStream .default 4 .new (fun _ => ⟨10, 20, 30, .replied unavailable .committed⟩)
      [alpha, beta]) ∧
      Attributed (proxyBody .default 4 .new (fun _ => ⟨10, 20, 30, .replied unavailable .whole⟩)
        [alpha, beta]) := by
  have resolved : [alpha, beta].Sublist (resolveCandidates [alpha, beta] [1, 2]) := List.Sublist.refl _
  have attributed := failure_attributed_iff .default 4 .new
    (fun _ => ⟨10, 20, 30, .replied unavailable .committed⟩) (fun _ => ⟨10, 20, 30, .replied unavailable .whole⟩)
    [alpha, beta] [1, 2] [alpha, beta] resolved
  exact ⟨attributed.1.mpr fun _ _ => ⟨beta, rfl, rfl⟩, attributed.2.mpr fun _ _ => ⟨beta, rfl, rfl⟩⟩

/-- The filter takes the slot of the second provider, so the loop passes it over after the first has failed. -/
theorem passed_over_provider_charged :
    ¬ Attributed (proxyStream .default 4 probeDue (fun _ => ⟨10, 20, 30, .replied unavailable .committed⟩)
        [alpha, beta]) ∧
      ¬ Attributed (proxyBody .default 4 probeDue (fun _ => ⟨10, 20, 30, .replied unavailable .whole⟩)
        [alpha, beta]) := by
  constructor
  · intro attributed
    exact absurd (attributed 2 alpha ⟨unavailable, alpha⟩ rfl).1 (by decide)
  · intro attributed
    exact absurd (attributed 2 alpha ⟨unavailable, alpha⟩ rfl).1 (by decide)

end LlmGateway
