import LlmGateway.Lib.Machine

/-- An operation on a state that also emits events. -/
abbrev Emitter (σ ε : Type*) := σ → List ε × σ

namespace Emitter

open Machine List

variable {σ ε κ α β : Type*} {body : α → Emitter σ ε} {ok : σ → α → Bool}

/-- A change of the state that emits nothing. -/
def quiet (change : σ → σ) : Emitter σ ε := fun s => ([], change s)

def followedBy (first second : Emitter σ ε) : Emitter σ ε := fun s =>
  let (before, middle) := first s
  let (after, last) := second middle
  (before ++ after, last)

theorem quiet_state (change : σ → σ) (s : σ) : (quiet change s : List ε × σ).2 = change s := rfl

theorem followedBy_state (first second : Emitter σ ε) (s : σ) :
    (first.followedBy second s).2 = (second (first s).2).2 := rfl

theorem followedBy_events (first second : Emitter σ ε) (s : σ) :
    (first.followedBy second s).1 = (first s).1 ++ (second (first s).2).1 := rfl

def whenSome (op : α → Emitter σ ε) : Option α → Emitter σ ε
  | some a => op a
  | none => quiet id

/-- A loop whose body appends what it emits. -/
def forEach (op : α → Emitter σ ε) : List α → Emitter σ ε
  | [] => quiet id
  | a :: rest => (op a).followedBy (forEach op rest)

theorem forEach_append (op : α → Emitter σ ε) (first second : List α) (s : σ) :
    forEach op (first ++ second) s = ((forEach op first).followedBy (forEach op second)) s := by
  induction first generalizing s with
  | nil => simp only [nil_append, forEach, followedBy, quiet, id_eq]
  | cons a rest ih => simp [forEach, followedBy, ih]

/-- Every element of the loop meets `ok` in the state it is handled in. -/
def along (op : α → Emitter σ ε) (ok : σ → α → Bool) (s : σ) : List α → Bool
  | [] => true
  | a :: rest => ok s a && along op ok (op a s).2 rest

/-- What is seen of each element of the loop in the state it is handled in. -/
def collect (op : α → Emitter σ ε) (see : σ → α → List β) (s : σ) : List α → List β
  | [] => []
  | a :: rest => see s a ++ collect op see (op a s).2 rest

/-- The acceptor that keeps everything it is sent. -/
def remember (trace : List ε) (event : ε) : Option (List ε) := some (trace ++ [event])

theorem run_remember (trace events : List ε) : run remember trace events = some (trace ++ events) := by
  induction events generalizing trace with
  | nil => rw [append_nil, run]
  | cons event rest ih => rw [run, remember, Option.bind_some, ih, append_assoc, singleton_append]

/-- What the operation emits is taken by the acceptor, and `post` relates the states afterwards if `pre` did before.
-/
def Sends (accept : κ → ε → Option κ) (pre : σ → κ → Prop) (op : Emitter σ ε) (post : σ → κ → Prop) : Prop :=
  ∀ s c, pre s c → ∃ c', run accept c (op s).1 = some c' ∧ post (op s).2 c'

variable {accept : κ → ε → Option κ} {pre middle post : σ → κ → Prop} {first second op : Emitter σ ε}

theorem Sends.quiet {change : σ → σ} (kept : ∀ s c, pre s c → post (change s) c) :
    Sends accept pre (quiet change) post :=
  fun s c holds => ⟨c, rfl, kept s c holds⟩

theorem Sends.followedBy (one : Sends accept pre first middle) (two : Sends accept middle second post) :
    Sends accept pre (first.followedBy second) post := by
  intro s c holds
  obtain ⟨c', before, between⟩ := one s c holds
  obtain ⟨c'', after, last⟩ := two _ _ between
  refine ⟨c'', ?_, last⟩
  show run accept c ((first s).1 ++ (second (first s).2).1) = some c''
  rw [run_append, before]
  exact after

theorem Sends.whenSome (each : ∀ a, Sends accept pre (body a) pre) (value : Option α) :
    Sends accept pre (whenSome body value) pre := by
  cases value with
  | none => exact Sends.quiet fun _ _ holds => holds
  | some a => exact each a

theorem Sends.whenSome_all (each : ∀ a, Sends accept (fun s c => pre s c ∧ ok s a) (body a) pre)
    (value : Option α) :
    Sends accept (fun s c => pre s c ∧ value.all (ok s)) (Emitter.whenSome body value) pre := by
  cases value with
  | none => exact Sends.quiet fun _ _ held => held.1
  | some a => exact each a

/-- A fact about the state after the operation may be required before it. -/
theorem Sends.carry (fact : σ → Prop) (sends : Sends accept pre op post) :
    Sends accept (fun s c => pre s c ∧ fact (op s).2) op (fun s c => post s c ∧ fact s) := by
  rintro s c ⟨held, known⟩
  obtain ⟨c', ran, after⟩ := sends s c held
  exact ⟨c', ran, after, known⟩

theorem Sends.weaken {weaker : σ → κ → Prop} (sends : Sends accept pre op post)
    (stronger : ∀ s c, weaker s c → pre s c) : Sends accept weaker op post :=
  fun s c held => sends s c (stronger s c held)

/-- A change of the state, whatever is emitted. -/
theorem Sends.of_state {before after : σ → Prop} (kept : ∀ s, before s → after (op s).2) :
    Sends (fun (_ : Unit) _ => some ()) (fun s _ => before s) op (fun s _ => after s) := by
  intro s c held
  refine ⟨(), ?_, kept s held⟩
  induction (op s).1 with
  | nil => rfl
  | cons event events ih => exact ih

/-- A relation to everything that has been emitted so far. -/
theorem sends_remember_iff {before after : σ → List ε → Prop} : Sends remember before op after ↔
    ∀ s trace, before s trace → after (op s).2 (trace ++ (op s).1) := by
  simp [Sends, run_remember]

/-- The loop rule. The relation may speak of the elements that are still to come. -/
theorem Sends.forEach (holds : List α → σ → κ → Prop)
    (each : ∀ a rest, Sends accept (holds (a :: rest)) (body a) (holds rest)) (items : List α) :
    Sends accept (holds items) (forEach body items) (holds []) := by
  induction items with
  | nil => exact Sends.quiet fun _ _ held => held
  | cons a rest ih => exact (each a rest).followedBy ih

theorem Sends.forEach_along (each : ∀ a, Sends accept (fun s c => pre s c ∧ ok s a) (body a) pre)
    (items : List α) :
    Sends accept (fun s c => pre s c ∧ along body ok s items) (Emitter.forEach body items) pre := by
  intro s c held
  obtain ⟨c', ran, after, -⟩ := Sends.forEach (fun rest s c => pre s c ∧ along body ok s rest)
    (fun a rest s c ⟨held, allowed⟩ =>
      let ⟨now, later⟩ := Bool.and_eq_true_iff.mp allowed
      let ⟨c', ran, after⟩ := each a s c ⟨held, now⟩
      ⟨c', ran, after, later⟩) items s c held
  exact ⟨c', ran, after⟩

theorem along_of_forall (always : ∀ s a, ok s a) (items : List α) (s : σ) : along body ok s items := by
  induction items generalizing s with
  | nil => rfl
  | cons a rest ih => rw [along, always, ih, Bool.and_true]

theorem forEach_invariant (holds : σ → Prop) (each : ∀ a s, holds s → holds (body a s).2) (items : List α) {s : σ}
    (held : holds s) : holds (Emitter.forEach body items s).2 := by
  induction items generalizing s with
  | nil => exact held
  | cons a rest ih => exact ih (each a s held)

/-- A loop whose body changes nothing and emits nothing. -/
theorem forEach_idle {items : List α} {s : σ} (idle : ∀ a ∈ items, body a s = ([], s)) :
    Emitter.forEach body items s = ([], s) := by
  induction items with
  | nil => rfl
  | cons a rest ih =>
    rw [Emitter.forEach, Emitter.followedBy, idle a mem_cons_self]
    dsimp only
    rw [ih fun later mem => idle later (mem_cons_of_mem _ mem)]
    rfl

/-- What was seen and what was emitted, before the loop and in it, are related to the state after it. -/
theorem collect_trace_invariant (see : σ → α → List β) (holds : σ → List β → List ε → Prop)
    (each : ∀ s seen trace a, holds s seen trace → holds (body a s).2 (seen ++ see s a) (trace ++ (body a s).1))
    (items : List α) {s : σ} {seen : List β} {trace : List ε} (held : holds s seen trace) :
    holds (Emitter.forEach body items s).2 (seen ++ collect body see s items)
      (trace ++ (Emitter.forEach body items s).1) := by
  induction items generalizing s seen trace with
  | nil =>
    rw [collect, append_nil]
    simpa [Emitter.forEach, quiet] using held
  | cons a rest ih =>
    rw [collect, Emitter.forEach, followedBy_state, followedBy_events, ← append_assoc, ← append_assoc]
    exact ih (each s seen trace a held)

/-- What was seen before the loop and in it is related to the state after it. -/
theorem collect_invariant (see : σ → α → List β) (holds : σ → List β → Prop)
    (each : ∀ s seen a, holds s seen → holds (body a s).2 (seen ++ see s a)) (items : List α) {s : σ}
    {seen : List β}
    (held : holds s seen) : holds (Emitter.forEach body items s).2 (seen ++ collect body see s items) :=
  @collect_trace_invariant _ _ _ _ _ see (fun s seen _ => holds s seen) (fun s seen _ a held => each s seen a held)
    items _ _ [] held

end Emitter
