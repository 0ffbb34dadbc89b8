import LlmGateway.Responses.Stream

namespace LlmGateway

open Machine Function Option

namespace ResponsesEvent

def target : ResponsesEvent → Option (Int × Str)
  | delta _ index id _ | done _ index id _ | partDone _ index id _ => some (index, id)
  | itemDone index item => some (index, item.id)
  | _ => none

def deltaIndex : ResponsesEvent → Option Int
  | delta _ index _ _ => some index
  | _ => none

def isTerminal : ResponsesEvent → Bool
  | terminal _ _ _ _ => true
  | _ => false

end ResponsesEvent

def SilentUntilAdded (index : Int) (events : List ResponsesEvent) : Prop :=
  ∀ before event after, events = before ++ event :: after → event.deltaIndex = some index →
    ∃ item, .itemAdded index item ∈ before

/-- The life of the items of a stream, from its first event to its last. -/
structure ItemLifecycle (events : List ResponsesEvent) : Prop where
  begins : ∃ response rest, events = .created response :: rest
  announced : ∀ before event after, events = before ++ event :: after →
    ∀ index id, event.target = some (index, id) →
    0 ≤ index ∧ ∃ item, .itemAdded index item ∈ before ∧ item.id = id
  finished : ∀ before index item after, events = before ++ .itemAdded index item :: after →
    ∃ middle item' rest, after = middle ++ .itemDone index item' :: rest ∧ item'.id = item.id ∧
      (∀ again, .itemAdded index again ∉ middle) ∧ SilentUntilAdded index rest
  ends : ∃ before last, events = before ++ [last] ∧ last.isTerminal ∧ ∀ event ∈ before, event.isTerminal = false

/-- A client of a Responses stream: the ids of the items it has open, by their indices. -/
structure ItemClient where
  created : Bool
  ended : Bool
  opened : Int → Option Str

namespace ItemClient

def new : ItemClient := ⟨false, false, fun _ => none⟩

def expect (client : ItemClient) (index : Int) (id : Str) : Option ItemClient :=
  if client.opened index = some id then some client else none

/-- A strict client: it takes an event only where the protocol has one. -/
def accept (client : ItemClient) (event : ResponsesEvent) : Option ItemClient :=
  if client.ended then none
  else
    match event with
    | .created _ => if client.created then none else some { client with created := true }
    | .inProgress _ => if client.created then some client else none
    | .itemAdded index item =>
      if client.created ∧ 0 ≤ index ∧ client.opened index = none then
        some { client with opened := Function.update client.opened index (some item.id) }
      else none
    | .partAdded _ index id | .delta _ index id _ | .done _ index id _ | .partDone _ index id _ =>
      client.expect index id
    | .itemDone index item =>
      (client.expect index item.id).map fun client =>
        { client with opened := Function.update client.opened index none }
    | .terminal _ _ _ _ => if client.created then some { client with ended := true } else none

section Accept

variable {client next last : ItemClient} {event : ResponsesEvent} {events : List ResponsesEvent} {index : Int}
  {id : Str}

theorem accept_running (taken : client.accept event = some next) : client.ended = false := by
  unfold accept at taken
  split at taken
  · cases taken
  next running =>
    simpa using running

theorem expect_eq_some : client.expect index id = some next ↔ client.opened index = some id ∧ client = next := by
  unfold expect
  split <;> simp_all

theorem accept_target (taken : client.accept event = some next) (named : event.target = some (index, id)) :
    client.opened index = some id := by
  cases event <;> simp_all [accept, ResponsesEvent.target, expect_eq_some]

theorem accept_cases (taken : client.accept event = some next) :
    (∃ index item, event = .itemAdded index item ∧ 0 ≤ index ∧ client.opened index = none ∧
      next.opened = Function.update client.opened index (some item.id)) ∨
    (∃ index item, event = .itemDone index item ∧ client.opened index = some item.id ∧
      next.opened = Function.update client.opened index none) ∨
    (∀ index item, event ≠ .itemAdded index item) ∧ next.opened = client.opened := by
  have running := accept_running taken
  cases event with
  | itemAdded index item =>
    simp only [accept, running, Bool.false_eq_true, if_false, ite_none_right_eq_some, Option.some.injEq] at taken
    obtain ⟨⟨-, nonneg, free⟩, rfl⟩ := taken
    exact .inl ⟨index, item, rfl, nonneg, free, rfl⟩
  | itemDone index item =>
    simp only [accept, running, Bool.false_eq_true, if_false, map_eq_some_iff, expect_eq_some] at taken
    obtain ⟨_, ⟨known, rfl⟩, rfl⟩ := taken
    exact .inr (.inl ⟨index, item, rfl, known, rfl⟩)
  | created | inProgress | terminal =>
    simp only [accept, running, Bool.false_eq_true, if_false] at taken
    split at taken <;> cases taken
    exact .inr (.inr ⟨by simp, rfl⟩)
  | partAdded | delta | done | partDone =>
    simp only [accept, running, Bool.false_eq_true, if_false, expect_eq_some] at taken
    obtain ⟨-, rfl⟩ := taken
    exact .inr (.inr ⟨by simp, rfl⟩)

theorem accept_opened (taken : client.accept event = some next) (found : next.opened index = some id) :
    client.opened index = some id ∨ 0 ≤ index ∧ ∃ item, event = .itemAdded index item ∧ item.id = id := by
  rcases accept_cases taken with ⟨other, item, rfl, nonneg, -, same⟩ | ⟨other, item, rfl, -, same⟩ | ⟨-, same⟩
  · rw [same] at found
    by_cases here : index = other
    · subst here
      rw [update_self, Option.some.injEq] at found
      exact .inr ⟨nonneg, item, rfl, found⟩
    · rw [update_of_ne here] at found
      exact .inl found
  · rw [same] at found
    by_cases here : index = other
    · subst here
      rw [update_self] at found
      cases found
    · rw [update_of_ne here] at found
      exact .inl found
  · exact .inl (same ▸ found)

theorem accept_closed (taken : client.accept event = some next) (found : client.opened index = some id) :
    (∀ item, event ≠ .itemAdded index item) ∧ (next.opened index = some id ∨
      next.opened index = none ∧ ∃ item, event = .itemDone index item ∧ item.id = id) := by
  rcases accept_cases taken with
    ⟨other, item, rfl, -, free, same⟩ | ⟨other, item, rfl, known, same⟩ | ⟨different, same⟩
  · have apart : index ≠ other := fun here => by rw [here, free] at found; cases found
    rw [same, update_of_ne apart]
    exact ⟨fun item here => apart (by cases here; rfl), .inl found⟩
  · refine ⟨by simp, ?_⟩
    rw [same]
    by_cases here : index = other
    · subst here
      rw [update_self]
      exact .inr ⟨rfl, item, rfl, Option.some.inj (known.symm.trans found)⟩
    · rw [update_of_ne here]
      exact .inl found
  · exact ⟨different index, .inl (same ▸ found)⟩

theorem opened_of_run (ran : run accept client events = some last) (found : last.opened index = some id) :
    client.opened index = some id ∨ 0 ≤ index ∧ ∃ item, .itemAdded index item ∈ events ∧ item.id = id := by
  induction events generalizing client with
  | nil =>
    cases Option.some.inj ran
    exact .inl found
  | cons event events ih =>
    obtain ⟨next, taken, rest⟩ := bind_eq_some_iff.mp ran
    rcases ih rest with before | ⟨nonneg, item, mem, same⟩
    · rcases accept_opened taken before with earlier | ⟨nonneg, item, rfl, same⟩
      · exact .inl earlier
      · exact .inr ⟨nonneg, item, List.mem_cons_self, same⟩
    · exact .inr ⟨nonneg, item, List.mem_cons_of_mem _ mem, same⟩

theorem closed_of_run (ran : run accept client events = some last) (found : client.opened index = some id)
    (closed : last.opened index = none) :
    ∃ middle item rest client', events = middle ++ .itemDone index item :: rest ∧
      item.id = id ∧ (∀ again, .itemAdded index again ∉ middle) ∧ client'.opened index = none ∧
      run accept client' rest = some last := by
  induction events generalizing client with
  | nil =>
    cases Option.some.inj ran
    rw [closed] at found
    cases found
  | cons event events ih =>
    obtain ⟨next, taken, rest⟩ := bind_eq_some_iff.mp ran
    obtain ⟨different, still | ⟨done, item, rfl, same⟩⟩ := accept_closed taken found
    · obtain ⟨middle, item, tail, client', rfl, same, apart, free, ran'⟩ := ih rest still
      refine ⟨event :: middle, item, tail, client', rfl, same, fun again mem => ?_, free, ran'⟩
      rcases List.mem_cons.mp mem with here | later
      · exact different again here.symm
      · exact apart again later
    · exact ⟨[], item, events, next, rfl, same, by simp, done, rest⟩

theorem ended_of_run (ran : run accept client events = some last) (running : last.ended = false) :
    client.ended = false ∧ ∀ event ∈ events, event.isTerminal = false := by
  induction events generalizing client with
  | nil =>
    cases Option.some.inj ran
    exact ⟨running, by simp⟩
  | cons event events ih =>
    obtain ⟨next, taken, rest⟩ := bind_eq_some_iff.mp ran
    obtain ⟨still, none⟩ := ih rest
    refine ⟨accept_running taken, List.forall_mem_cons.mpr ⟨?_, none⟩⟩
    cases event with
    | terminal =>
      simp only [accept, accept_running taken, Bool.false_eq_true, if_false] at taken
      split at taken <;> cases taken
      cases still
    | _ => rfl

theorem run_at {before after : List ResponsesEvent}
    (ran : run accept client (before ++ event :: after) = some last) :
    ∃ middle next, run accept client before = some middle ∧ middle.accept event = some next ∧
      run accept next after = some last := by
  rw [run_append] at ran
  obtain ⟨middle, earlier, rest⟩ := bind_eq_some_iff.mp ran
  obtain ⟨next, taken, later⟩ := bind_eq_some_iff.mp rest
  exact ⟨middle, next, earlier, taken, later⟩

theorem added_of_run (ran : run accept client events = some last) (closed : client.opened index = none)
    (found : last.opened index = some id) : 0 ≤ index ∧ ∃ item, .itemAdded index item ∈ events ∧ item.id = id := by
  refine (opened_of_run ran found).resolve_left fun before => ?_
  rw [closed] at before
  cases before

theorem silent_of_run (ran : run accept client events = some last) (closed : client.opened index = none) :
    SilentUntilAdded index events := by
  rintro before event after rfl named
  obtain ⟨middle, next, earlier, taken, -⟩ := run_at ran
  cases event with
  | delta channel other id text =>
    cases named
    obtain ⟨-, item, mem, -⟩ := added_of_run earlier closed (accept_target taken rfl)
    exact ⟨item, mem⟩
  | _ => cases named

theorem begins_of_run (ran : run accept new events = some client) (created : client.created) :
    ∃ response rest, events = .created response :: rest := by
  cases events with
  | nil =>
    cases Option.some.inj ran
    cases created
  | cons event events =>
    obtain ⟨next, taken, -⟩ := bind_eq_some_iff.mp ran
    cases event with
    | created response => exact ⟨response, events, rfl⟩
    | _ => simp [accept, new, expect] at taken

theorem itemLifecycle_of_run (ran : run accept new events = some client) (created : client.created)
    (running : client.ended = false) (closed : ∀ index, client.opened index = none) (type : ResponseStatus)
    (response : ResponsesResponseOut) (error : Option Json) (usage : Option ChatUsage) :
    ItemLifecycle (events ++ [.terminal type response error usage]) := by
  have whole : run accept new (events ++ [.terminal type response error usage]) =
      some { client with ended := true } := by
    rw [run_snoc, ran]
    simp [accept, running, created]
  generalize same : events ++ [.terminal type response error usage] = all at whole
  refine ⟨begins_of_run whole created, ?_, ?_, ?_⟩
  · rintro before event after rfl index id named
    obtain ⟨middle, next, earlier, taken, -⟩ := run_at whole
    exact added_of_run earlier rfl (accept_target taken named)
  · rintro before index item after rfl
    obtain ⟨middle, next, -, taken, later⟩ := run_at whole
    have opened : next.opened index = some item.id := by
      simp only [accept, accept_running taken, Bool.false_eq_true, if_false, ite_none_right_eq_some,
        Option.some.injEq] at taken
      obtain ⟨-, rfl⟩ := taken
      exact update_self ..
    obtain ⟨middle, item', rest, client', rfl, sameId, apart, free, ran'⟩ :=
      closed_of_run later opened (closed index)
    exact ⟨middle, item', rest, rfl, sameId, apart, silent_of_run ran' free⟩
  · exact ⟨events, _, same.symm, rfl, (ended_of_run ran running).2⟩

end Accept

end ItemClient

end LlmGateway
