import LlmGateway.Lib.Emitter
import LlmGateway.Responses.ConvertRequest
import LlmGateway.Responses.History

namespace LlmGateway

open Emitter ResponseHistoryStore Function

/-- What reaches the history: a request that is converted, and the output of the reply to one. -/
inductive Traffic (User : Type*)
  | request (user : User) (body : Json)
  | reply (user : User) (id : Str) (output : Json)

/-- The history of the gateway. Beside it stands the user whose response an entry is. -/
structure Gateway (User : Type*) where
  store : ResponseHistoryStore
  owner : Str → Option User

section Runs

variable {User γ : Type*} (convert : Json → γ)

def Gateway.new : Gateway User := ⟨.new, fun _ => none⟩

/-- The body for the upstream is computed from the request with its history and from nothing else. -/
def serve : Traffic User → Emitter (Gateway User) (User × Except Str γ)
  | .request user body => fun gateway =>
    let (enriched, store) := enrichRequestWithHistory gateway.store body
    ([(user, enriched.map convert)], { gateway with store })
  | .reply user id output => quiet fun gateway =>
    ⟨gateway.store.record id output,
      if recordable id output then Function.update gateway.owner id (some user) else gateway.owner⟩

def bodiesFor [DecidableEq User] (user : User) (sent : List (User × Except Str γ)) : List (Except Str γ) :=
  (sent.filter (·.1 = user)).map Prod.snd

/-- Two runs of the same requests that differ in the contents of one user's responses. -/
inductive SameBut (secret : User) : Traffic User → Traffic User → Prop
  | same (event : Traffic User) : SameBut secret event event
  | contents (id : Str) {output other : Json} (alike : recordable id output = recordable id other) :
      SameBut secret (.reply secret id output) (.reply secret id other)

def keepsOff [DecidableEq User] (user other : User) (gateway : Gateway User) : Traffic User → Bool
  | .request sender body =>
    sender ≠ user || (previousResponseId body).all fun id => gateway.owner id ≠ some other
  | .reply _ _ _ => true

end Runs

/-- Two stores that hold the same entries, with different contents under secret identifiers only. -/
structure Alike (hidden : Str → Prop) (left right : ResponseHistoryStore) : Prop where
  order : left.order = right.order
  known : ∀ id, (left.map id).isSome = (right.map id).isSome
  shown : ∀ id, ¬ hidden id → left.map id = right.map id

namespace Alike

variable {hidden more : Str → Prop} {left right : ResponseHistoryStore} {id : Str} {items others : Json}

theorem touch (alike : Alike hidden left right) (id : Str) : Alike hidden (left.touch id) (right.touch id) := by
  unfold ResponseHistoryStore.touch
  rw [alike.order]
  split_ifs
  · exact ⟨rfl, alike.known, alike.shown⟩
  · exact alike

theorem update {map other : Str → Option Json} {value new : Option Json} {order : List Str}
    (alike : Alike hidden ⟨order, map⟩ ⟨order, other⟩) (some : value.isSome = new.isSome)
    (kept : ∀ key, key ≠ id → hidden key → more key) (same : ¬ more id → value = new) :
    Alike more ⟨order, Function.update map id value⟩ ⟨order, Function.update other id new⟩ := by
  refine ⟨rfl, fun key => ?_, fun key visible => ?_⟩
  · by_cases here : key = id
    · subst here
      simpa using some
    · simpa [update_of_ne here] using alike.known key
  · by_cases here : key = id
    · subst here
      simpa using same visible
    · simpa [update_of_ne here] using alike.shown key fun secret => visible (kept key here secret)

theorem evict {map other : Str → Option Json} {order : List Str}
    (alike : Alike hidden ⟨order, map⟩ ⟨order, other⟩) :
    Alike hidden (ResponseHistoryStore.evict map order) (ResponseHistoryStore.evict other order) := by
  induction order generalizing map other with
  | nil => exact alike
  | cons oldest rest ih =>
    unfold ResponseHistoryStore.evict
    split_ifs with full
    · refine ih ?_
      have shorter : Alike hidden ⟨rest, map⟩ ⟨rest, other⟩ := ⟨rfl, alike.known, alike.shown⟩
      exact shorter.update rfl (fun _ _ secret => secret) fun _ => rfl
    · exact alike

theorem record (alike : Alike hidden left right) (both : recordable id items = recordable id others)
    (kept : ∀ key, key ≠ id → hidden key → more key) (same : ¬ more id → items = others)
    (accepted : recordable id items) : Alike more (left.record id items) (right.record id others) := by
  obtain ⟨order, map⟩ := left
  obtain ⟨order', other⟩ := right
  obtain rfl : order = order' := alike.order
  have written :
      Alike more ⟨order, Function.update map id (some items)⟩ ⟨order, Function.update other id (some others)⟩ :=
    alike.update rfl kept fun visible => congrArg some (same visible)
  unfold ResponseHistoryStore.record
  rw [← both, if_pos accepted, if_pos accepted]
  refine Alike.touch ?_ id
  unfold ResponseHistoryStore.insert
  rw [← alike.known id]
  split_ifs with found
  · exact written
  · exact Alike.evict ⟨rfl, written.known, written.shown⟩

theorem enrich (alike : Alike hidden left right) (body : Json) :
    Alike hidden (enrichRequestWithHistory left body).2 (enrichRequestWithHistory right body).2 := by
  cases named : previousResponseId body with
  | none => rwa [enrich_none named, enrich_none named]
  | some id =>
    rw [enrich_some named, enrich_some named]
    exact alike.touch id

theorem enrich_same (alike : Alike hidden left right) {body : Json}
    (off : ∀ id, previousResponseId body = some id → ¬ hidden id) :
    (enrichRequestWithHistory left body).1 = (enrichRequestWithHistory right body).1 := by
  cases named : previousResponseId body with
  | none => rw [enrich_none named, enrich_none named]
  | some id => rw [enrich_some named, enrich_some named, alike.shown id (off id named)]

end Alike

section Isolation

variable {User γ : Type*} [DecidableEq User] {convert : Json → γ} {secret user : User} {right left : Gateway User}

/-- The two gateways agree on whose the entries are, and on all that are not the secret user's. -/
structure Gateway.Alike (secret : User) (left right : Gateway User) : Prop where
  owner : left.owner = right.owner
  store : LlmGateway.Alike (left.owner · = some secret) left.store right.store

omit [DecidableEq User] in
theorem reply_alike (alike : left.Alike secret right) {sender : User} {id : Str} {output other : Json}
    (both : recordable id output = recordable id other) (same : sender ≠ secret → output = other) :
    (serve convert (.reply sender id output) left).2.Alike secret
      (serve convert (.reply sender id other) right).2 := by
  cases accepted : recordable id output with
  | true =>
    have kept : ∀ key, key ≠ id → left.owner key = some secret →
        Function.update left.owner id (some sender) key = some secret := by
      intro key elsewhere hidden
      rwa [update_of_ne elsewhere]
    have shown : ¬ Function.update left.owner id (some sender) id = some secret → output = other := by
      intro visible
      refine same fun mine => visible ?_
      rw [update_self, mine]
    have recorded := alike.store.record both kept shown accepted
    simp only [serve, quiet, ← both, accepted, if_true, ← alike.owner]
    exact ⟨rfl, recorded⟩
  | false =>
    have skipped : recordable id other = false := both.symm.trans accepted
    simp only [serve, quiet, ResponseHistoryStore.record, accepted, skipped, Bool.false_eq_true, if_false]
    exact alike

theorem serve_alike (alike : left.Alike secret right) {event other : Traffic User}
    (same : SameBut secret event other) (off : keepsOff user secret left event) :
    bodiesFor user (serve convert event left).1 = bodiesFor user (serve convert other right).1 ∧
      (serve convert event left).2.Alike secret (serve convert other right).2 := by
  cases same with
  | same =>
    cases event with
    | request sender body =>
      refine ⟨?_, alike.owner, alike.store.enrich body⟩
      by_cases own : sender = user
      · have named : ∀ id, previousResponseId body = some id → ¬ left.owner id = some secret := by
          intro id named
          simpa [keepsOff, own, named] using off
        simp [serve, alike.store.enrich_same named]
      · simp [serve, bodiesFor, own]
    | reply sender id output =>
      exact ⟨rfl, reply_alike alike rfl fun _ => rfl⟩
  | contents id both => exact ⟨rfl, reply_alike alike both fun other => absurd rfl other⟩

theorem serve_run_alike {events others : List (Traffic User)} (same : List.Forall₂ (SameBut secret) events others)
    (alike : left.Alike secret right) (off : along (serve convert) (keepsOff user secret) left events) :
    bodiesFor user (forEach (serve convert) events left).1 =
      bodiesFor user (forEach (serve convert) others right).1 := by
  induction same generalizing left right with
  | nil => rfl
  | cons first rest ih =>
    obtain ⟨now, later⟩ := Bool.and_eq_true_iff.mp off
    obtain ⟨sent, after⟩ := serve_alike alike first now
    have remaining := ih after later
    simp only [forEach, followedBy, bodiesFor, List.filter_append, List.map_append] at sent remaining ⊢
    rw [sent, remaining]

/-- Whatever the responses of one user hold, another user who never names one of them has the same bodies sent. -/
theorem bodies_isolated {events others : List (Traffic User)} (same : List.Forall₂ (SameBut secret) events others)
    (off : along (serve convert) (keepsOff user secret) .new events) :
    bodiesFor user (forEach (serve convert) events .new).1 =
      bodiesFor user (forEach (serve convert) others .new).1 := by
  have start : Gateway.Alike secret Gateway.new Gateway.new :=
    ⟨rfl, ⟨rfl, fun _ => rfl, fun _ _ => rfl⟩⟩
  exact serve_run_alike same start off

end Isolation

def sayItem (text : String) : Json :=
  .obj [("content", .str text.toList), ("role", .str assistantRole), ("type", .str "message".toList)]

def continueRequest (id : String) : Json :=
  .obj [("input", .str "go on".toList), ("previous_response_id", .str id.toList)]

def chatMessages (req : Json) : Except Str (List MessageOut) :=
  @requestMessagesToChat Json.verbatim ShortSha256.blank req (@ToolContext.fromRequest ShortSha256.blank req)

def guessRun (text : String) : List (Traffic Nat) :=
  [.reply 0 "resp_00000001".toList (.arr [sayItem text]), .request 1 (continueRequest "resp_00000001")]

theorem guessed_id_reads_history :
    List.Forall₂ (SameBut 0) (guessRun "the code is 1") (guessRun "the code is 2") ∧
      bodiesFor 1 (forEach (serve chatMessages) (guessRun "the code is 1") .new).1 ≠
        bodiesFor 1 (forEach (serve chatMessages) (guessRun "the code is 2") .new).1 := by
  refine ⟨.cons (.contents _ (by decide +kernel)) (.cons (.same _) .nil), ?_⟩
  intro same
  have read := congrArg (List.map fun body => (body.toOption.bind Except.toOption).map
    (List.map fun message => message.content.bind Json.asStr)) same
  revert read
  decide +kernel

def ownRun (text : String) : List (Traffic Nat) :=
  [.reply 0 "resp_00000001".toList (.arr [sayItem text]), .reply 1 "resp_00000002".toList (.arr [sayItem "hello"]),
    .request 0 (continueRequest "resp_00000001"), .request 1 (continueRequest "resp_00000002")]

theorem own_history_isolated :
    bodiesFor 1 (forEach (serve chatMessages) (ownRun "the code is 1") .new).1 =
      bodiesFor 1 (forEach (serve chatMessages) (ownRun "the code is 2") .new).1 := by
  have same : List.Forall₂ (SameBut 0) (ownRun "the code is 1") (ownRun "the code is 2") :=
    .cons (.contents _ (by decide +kernel)) (.cons (.same _) (.cons (.same _) (.cons (.same _) .nil)))
  exact bodies_isolated same (by decide +kernel)

end LlmGateway
