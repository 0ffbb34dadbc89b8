import LlmGateway.Lib.Machine
import Mathlib.Tactic.Linarith
import Mathlib.Tactic.Positivity

namespace TokenBucket

/-- What a bucket holds at `now`: refilled since `last`, and full at `cap`. -/
def refilled (tokens last rate cap now : ℚ) : ℚ := min (tokens + max 0 (now - last) * rate) cap

section Refilled

variable {tokens last rate cap now earlier later idle : ℚ}

theorem refilled_le : refilled tokens last rate cap now ≤ cap := min_le_right _ _

theorem refilled_nonneg (held : 0 ≤ tokens) (speed : 0 ≤ rate) (room : 0 ≤ cap) :
    0 ≤ refilled tokens last rate cap now :=
  le_min (add_nonneg held (mul_nonneg (le_max_left _ _) speed)) room

theorem refilled_self (within : tokens ≤ cap) : refilled tokens now rate cap now = tokens := by
  rw [refilled, sub_self, max_self, zero_mul, add_zero, min_eq_left within]

/-- Between two moments a bucket gains no more than its rate gives. -/
theorem refilled_grows (speed : 0 ≤ rate) (order : earlier ≤ later) :
    refilled tokens last rate cap later ≤ refilled tokens last rate cap earlier + rate * (later - earlier) := by
  have elapsed : max 0 (later - last) ≤ max 0 (earlier - last) + (later - earlier) := by
    rcases max_cases 0 (later - last) with ⟨same, -⟩ | ⟨same, -⟩
    · have := le_max_left 0 (earlier - last)
      linarith
    · have := le_max_right 0 (earlier - last)
      linarith
  have gained := mul_le_mul_of_nonneg_right elapsed speed
  have moved : 0 ≤ rate * (later - earlier) := mul_nonneg speed (sub_nonneg.mpr order)
  rw [refilled, refilled, ← min_add_add_right]
  apply min_le_min
  · linarith
  · linarith

/-- After a long enough pause a bucket is full. -/
theorem refilled_full (held : 0 ≤ tokens) (speed : 0 ≤ rate) (pause : idle ≤ max 0 (now - last))
    (long : cap ≤ idle * rate) : refilled tokens last rate cap now = cap := by
  have gained := mul_le_mul_of_nonneg_right pause speed
  exact min_eq_right (by linarith)

end Refilled

open Machine

variable {σ α : Type*}

/-- A machine that counts while its clock is in an interval, and pays from a level that refills at `rate` up to
`cap`. -/
structure Metered (step : σ → α → Option σ) (ok : σ → α → Prop) (inv : σ → Prop) (clock count : σ → ℚ)
    (level : σ → ℚ → ℚ) (rate cap opening closing : ℚ) : Prop where
  kept : ∀ {s a s'}, inv s → step s a = some s' → inv s'
  nonneg : ∀ {s}, inv s → ∀ now, 0 ≤ level s now
  le_cap : ∀ s now, level s now ≤ cap
  grows : ∀ s {earlier later}, earlier ≤ later → level s later ≤ level s earlier + rate * (later - earlier)
  forward : ∀ {s a s'}, step s a = some s' → clock s ≤ clock s'
  outside : ∀ {s a s'}, step s a = some s' → clock s' < opening ∨ closing < clock s' → count s' = count s
  paid : ∀ {s a s'}, inv s → ok s a → step s a = some s' → opening ≤ clock s' → clock s' ≤ closing →
    count s' + level s' (clock s') ≤ count s + level s (clock s')

/-- What was counted so far is covered by a full level and the refill since `opening`. -/
structure Covered (clock count : σ → ℚ) (level : σ → ℚ → ℚ) (rate cap opening closing : ℚ) (s : σ) : Prop where
  before : clock s < opening → count s = 0
  during : opening ≤ clock s → clock s ≤ closing → count s + level s (clock s) ≤ cap + rate * (clock s - opening)
  after : closing < clock s → count s ≤ cap + rate * (closing - opening)

variable {step : σ → α → Option σ} {ok : σ → α → Prop} {inv : σ → Prop} {clock count : σ → ℚ} {level : σ → ℚ → ℚ}
  {rate cap opening closing : ℚ} {start s s' : σ} {a : α} {trace : List α}

theorem Covered.count_le (metered : Metered step ok inv clock count level rate cap opening closing)
    (speed : 0 ≤ rate) (order : opening ≤ closing) (valid : inv s)
    (covered : Covered clock count level rate cap opening closing s) :
    count s ≤ cap + rate * (closing - opening) := by
  have held := metered.nonneg valid (clock s)
  have whole : 0 ≤ rate * (closing - opening) := mul_nonneg speed (sub_nonneg.mpr order)
  rcases lt_or_ge (clock s) opening with early | started
  · have room := metered.le_cap s (clock s)
    rw [covered.before early]
    linarith
  rcases lt_or_ge closing (clock s) with late | running
  · exact covered.after late
  · have paid := covered.during started running
    have part : rate * (clock s - opening) ≤ rate * (closing - opening) :=
      mul_le_mul_of_nonneg_left (by linarith) speed
    linarith

theorem Covered.next (metered : Metered step ok inv clock count level rate cap opening closing)
    (speed : 0 ≤ rate) (order : opening ≤ closing) (valid : inv s)
    (covered : Covered clock count level rate cap opening closing s) (allowed : ok s a)
    (stepped : step s a = some s') : Covered clock count level rate cap opening closing s' := by
  have forward := metered.forward stepped
  refine ⟨fun early => ?_, fun started running => ?_, fun late => ?_⟩
  · rw [metered.outside stepped (.inl early)]
    exact covered.before (lt_of_le_of_lt forward early)
  · have paid := metered.paid valid allowed stepped started running
    rcases lt_or_ge (clock s) opening with early | before
    · have room := metered.le_cap s (clock s')
      have elapsed : 0 ≤ rate * (clock s' - opening) := mul_nonneg speed (sub_nonneg.mpr started)
      have none := covered.before early
      linarith
    · have earlier := covered.during before (forward.trans running)
      have refill := metered.grows s forward
      linarith
  · rw [metered.outside stepped (.inr late)]
    exact covered.count_le metered speed order valid

/-- In any interval no more is counted than a full level and the refill of the interval pay for. -/
theorem Metered.count_le (metered : Metered step ok inv clock count level rate cap opening closing)
    (speed : 0 ≤ rate) (order : opening ≤ closing) (valid : inv start) (fresh : count start = 0)
    (reach : Reach step ok start trace s) : count s ≤ cap + rate * (closing - opening) := by
  have first : Covered clock count level rate cap opening closing start := by
    refine ⟨fun _ => fresh, fun started _ => ?_, fun _ => ?_⟩
    · have room := metered.le_cap start (clock start)
      have elapsed : 0 ≤ rate * (clock start - opening) := mul_nonneg speed (sub_nonneg.mpr started)
      linarith
    · have room := (metered.nonneg valid opening).trans (metered.le_cap start opening)
      have whole : 0 ≤ rate * (closing - opening) := mul_nonneg speed (sub_nonneg.mpr order)
      linarith
  have both : inv s ∧ Covered clock count level rate cap opening closing s :=
    reach.invariant (fun s => inv s ∧ Covered clock count level rate cap opening closing s) ⟨valid, first⟩
      fun _ _ _ ⟨valid, covered⟩ allowed stepped =>
        ⟨metered.kept valid stepped, covered.next metered speed order valid allowed stepped⟩
  exact both.2.count_le metered speed order both.1

end TokenBucket
