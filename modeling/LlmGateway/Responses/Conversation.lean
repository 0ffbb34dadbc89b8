import LlmGateway.Responses.Isolation

namespace LlmGateway

open Emitter ResponseHistoryStore List

/-- A turn of a conversation: what was asked, and the response that was recorded for it. -/
structure Turn where
  body : Json
  id : Str
  output : List Json

def Turn.items (turn : Turn) : List Json := inputItems turn.body ++ turn.output

def Chained : Option Str → List Turn → Json → Prop
  | before, [], body => previousResponseId body = before
  | before, turn :: turns, body => previousResponseId turn.body = before ∧ Chained (some turn.id) turns body

section Chain

variable {User γ : Type*} {convert : Json → γ} {events : List (Traffic User)} {gateway : Gateway User}

theorem store_of_run {id : Str} {items : Json}
    (held : (forEach (serve convert) events gateway).2.store.map id = some items) :
    (recordable id items ∧ ∃ user, .reply user id items ∈ events) ∨ gateway.store.map id = some items := by
  induction events generalizing gateway with
  | nil => exact .inr held
  | cons event events ih =>
    rcases ih held with ⟨accepted, user, mem⟩ | before
    · exact .inl ⟨accepted, user, mem_cons_of_mem _ mem⟩
    · cases event with
      | request user body => exact .inr (enrich_map ▸ before)
      | reply user key output =>
        rcases record_map before with ⟨rfl, rfl, accepted⟩ | old
        · exact .inl ⟨accepted, user, mem_cons_self⟩
        · exact .inr old

theorem filled_of_run {id : Str} {output : List Json}
    (held : (forEach (serve convert) events .new).2.store.map id = some (.arr output)) : output ≠ [] := by
  rcases store_of_run held with ⟨accepted, -⟩ | none
  · rintro rfl
    simp [recordable, Json.asArr] at accepted
  · cases none

theorem Chained.last {before : Option Str} {turns : List Turn} {turn : Turn} {body : Json}
    (chained : Chained before (turns ++ [turn]) body) : previousResponseId body = some turn.id := by
  induction turns generalizing before with
  | nil => exact chained.2
  | cons first turns ih => exact ih chained.2

/-- The input of a turn holds the conversation before it only if that is one turn without input, or none. -/
theorem conversation_kept_iff {turns : List Turn} {body : Json} (chained : Chained none turns body)
    (held : ∀ turn ∈ turns,
      (forEach (serve convert) events .new).2.store.map turn.id = some (.arr turn.output)) :
    (∃ enriched, (enrichRequestWithHistory (forEach (serve convert) events .new).2.store body).1 = .ok enriched ∧
        (turns.flatMap Turn.items ++ inputItems body).Sublist (inputItems enriched)) ↔
      turns = [] ∨ ∃ first, turns = [first] ∧ inputItems first.body = [] := by
  rcases eq_nil_or_concat' turns with rfl | ⟨earlier, last, rfl⟩
  · refine iff_of_true ⟨body, ?_, List.Sublist.refl _⟩ (.inl rfl)
    rw [enrich_none chained]
  · have named : previousResponseId body = some last.id := chained.last
    have found := held last (mem_append_right _ mem_cons_self)
    have restored : (enrichRequestWithHistory (forEach (serve convert) events .new).2.store body).1 =
        .ok (withHistory body (.arr last.output)) := by
      rw [enrich_some named, found]
    rw [restored]
    constructor
    · rintro ⟨enriched, same, sublist⟩
      cases same
      rw [inputItems_withHistory named] at sublist
      have lengths := sublist.length_le
      simp only [flatMap_append, flatMap_singleton, Turn.items, length_append] at lengths
      have nothing : earlier.flatMap Turn.items = [] := eq_nil_of_length_eq_zero (by omega)
      have asked : inputItems last.body = [] := eq_nil_of_length_eq_zero (by omega)
      have alone : earlier = [] := by
        refine eq_nil_iff_forall_not_mem.mpr fun turn member => ?_
        have empty := flatMap_eq_nil_iff.mp nothing turn member
        exact filled_of_run (held turn (mem_append_left _ member)) (append_eq_nil_iff.mp empty).2
      exact .inr ⟨last, by rw [alone, nil_append], asked⟩
    · rintro (none | ⟨first, only, empty⟩)
      · simp at none
      · refine ⟨_, rfl, ?_⟩
        have alone : earlier = [] := by simpa using congrArg List.length only
        subst alone
        cases only
        rw [inputItems_withHistory named, nil_append, flatMap_singleton, Turn.items, empty, nil_append]

end Chain

def firstTurn (body : Json) : Turn := ⟨body, "resp_00000001".toList, [sayItem "hi"]⟩

def firstRun (body : Json) : List (Traffic Nat) :=
  [.request 0 body, .reply 0 (firstTurn body).id (.arr (firstTurn body).output)]

theorem firstRun_held (body : Json) (start : previousResponseId body = none) :
    (forEach (serve chatMessages) (firstRun body) .new).2.store.map (firstTurn body).id =
      some (.arr (firstTurn body).output) := by
  have accepted : recordable "resp_00000001".toList (.arr [sayItem "hi"]) := by decide +kernel
  have stored : (ResponseHistoryStore.new.record "resp_00000001".toList (.arr [sayItem "hi"])).map
      "resp_00000001".toList = some (.arr [sayItem "hi"]) := by
    rfl
  have quiet : enrichRequestWithHistory .new body = (.ok body, .new) := enrich_none start
  have served : (serve chatMessages (.request 0 body) (.new : Gateway Nat)).2 = .new := by
    simp [serve, Gateway.new, quiet]
  simp only [firstRun, forEach, followedBy, served]
  exact stored

def helloBody : Json := .obj [("input", .str "hello".toList)]

/-- The second request brings back the answer, and not the question before it. -/
theorem first_question_dropped :
    Chained none [firstTurn helloBody] (continueRequest "resp_00000001") ∧
      (forEach (serve chatMessages) (firstRun helloBody) .new).2.store.map (firstTurn helloBody).id =
        some (.arr (firstTurn helloBody).output) ∧
      ¬ ∃ enriched, (enrichRequestWithHistory (forEach (serve chatMessages) (firstRun helloBody) .new).2.store
          (continueRequest "resp_00000001")).1 = .ok enriched ∧
        ([firstTurn helloBody].flatMap Turn.items ++ inputItems (continueRequest "resp_00000001")).Sublist
          (inputItems enriched) := by
  have start : previousResponseId helloBody = none := by decide +kernel
  have named : previousResponseId (continueRequest "resp_00000001") = some "resp_00000001".toList := by
    decide +kernel
  have held := firstRun_held helloBody start
  refine ⟨⟨start, named⟩, held, ?_⟩
  rintro ⟨enriched, same, sublist⟩
  cases same
  exact absurd sublist.length_le (by decide)

/-- A turn without input is kept. -/
theorem silent_question_kept :
    ∃ enriched, (enrichRequestWithHistory (forEach (serve chatMessages) (firstRun (.obj [])) .new).2.store
        (continueRequest "resp_00000001")).1 = .ok enriched ∧
      ([firstTurn (.obj [])].flatMap Turn.items ++ inputItems (continueRequest "resp_00000001")).Sublist
        (inputItems enriched) := by
  have named : previousResponseId (continueRequest "resp_00000001") = some "resp_00000001".toList := by
    decide +kernel
  have chained : Chained none [firstTurn (.obj [])] (continueRequest "resp_00000001") := ⟨rfl, named⟩
  refine (conversation_kept_iff chained ?_).mpr (.inr ⟨_, rfl, rfl⟩)
  intro turn member
  rw [mem_singleton.mp member]
  exact firstRun_held _ rfl

end LlmGateway
