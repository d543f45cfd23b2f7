import Mathlib.Algebra.Order.Ring.Rat
import Mathlib.Data.List.Basic
import Mathlib.Data.List.Induction
import Mathlib.Tactic.Linarith

/-! The estimators of `rtt/`: a base class and a derived one, with members of one name. -/

namespace StreamUP

/-- `RTTEstimator`: the members of the base class, which its constructor leaves indeterminate. -/
structure RTTEstimator where
  rtt : Option ℚ
  variance : Option ℚ
  deriving DecidableEq

namespace RTTEstimator

/-- `RTTEstimator() = default`. -/
def new : RTTEstimator where
  -- Neither member has an initialiser.
  rtt := none
  variance := none

def getRTTEstimate (self : RTTEstimator) : Option ℚ := self.rtt

def getRTTVariance (self : RTTEstimator) : Option ℚ := self.variance

/-- `getRTO`, indeterminate where one of the two getters is. -/
def getRTO (self : RTTEstimator) : Option ℚ := do
  return 4 * (← self.getRTTVariance) + (← self.getRTTEstimate)

def setRTTEstimate (self : RTTEstimator) (rtt : ℚ) : RTTEstimator := { self with rtt := some rtt }

def setRTTVariance (self : RTTEstimator) (variance : ℚ) : RTTEstimator :=
  { self with variance := some variance }

end RTTEstimator

/-- `DefaultRTTEstimator`: the base class it is derived from, and members of its own. -/
structure DefaultRTTEstimator where
  base : RTTEstimator
  rtt : ℚ
  alpha : ℚ
  variance : ℚ
  beta : ℚ
  deriving DecidableEq

namespace DefaultRTTEstimator

/-- The constructor, which initialises the members of the derived class only. -/
def new (initialRtt alpha initialVariance beta : ℚ) : DefaultRTTEstimator where
  base := .new
  rtt := initialRtt
  alpha := alpha
  variance := initialVariance
  beta := beta

/-- The constructor with its default arguments. -/
def default : DefaultRTTEstimator := new 2 (1 / 8) 1 (1 / 4)

/-- `addSampleImpl`: the names of its members are those of the derived class. -/
def addSampleImpl (self : DefaultRTTEstimator) (sampleRtt : ℚ) : DefaultRTTEstimator :=
  -- The deviation is from the estimate before its update.
  let diff := |sampleRtt - self.rtt|
  { self with
    variance := (1 - self.beta) * self.variance + self.beta * diff
    rtt := (1 - self.alpha) * self.alpha + self.alpha * sampleRtt }

/-- `addSample`, which casts to the derived class. -/
def addSample (self : DefaultRTTEstimator) (rtt : ℚ) : DefaultRTTEstimator :=
  self.addSampleImpl rtt

end DefaultRTTEstimator

/-- A call through the interface that changes the estimator. -/
inductive RTTCall where
  | addSample (rtt : ℚ)
  | setRTTEstimate (rtt : ℚ)
  | setRTTVariance (variance : ℚ)
  deriving DecidableEq

namespace DefaultRTTEstimator

/-- The estimator after a call; the setters are those of the base class. -/
def call (self : DefaultRTTEstimator) : RTTCall → DefaultRTTEstimator
  | .addSample rtt => self.addSample rtt
  | .setRTTEstimate rtt => { self with base := self.base.setRTTEstimate rtt }
  | .setRTTVariance variance => { self with base := self.base.setRTTVariance variance }

/-- What the call does to the state that `addSample` maintains, when there is only that one. -/
def maintain (self : DefaultRTTEstimator) : RTTCall → DefaultRTTEstimator
  -- Setters write the members that samples are smoothed with.
  | .addSample rtt => self.addSampleImpl rtt
  | .setRTTEstimate rtt => { self with rtt }
  | .setRTTVariance variance => { self with variance }

/-- The getters report the estimate and the variance of a maintained state. -/
structure Reports (estimator state : DefaultRTTEstimator) : Prop where
  estimate : estimator.base.getRTTEstimate = some state.rtt
  variance : estimator.base.getRTTVariance = some state.variance
  rto : estimator.base.getRTO = some (4 * state.variance + state.rtt)

/-- There is one state: at every moment the getters report what the calls so far amount to. -/
def OneState (start : DefaultRTTEstimator) (calls : List RTTCall) : Prop :=
  -- The first moment is before any call.
  ∀ before after, calls = before ++ after →
    Reports (before.foldl call start) (before.foldl maintain start)

/-- A sample leaves the members of the base class alone. -/
@[simp] theorem base_call_addSample (self : DefaultRTTEstimator) (rtt : ℚ) :
    (self.call (.addSample rtt)).base = self.base := rfl

/-- The estimate that a call sets, if it sets one. -/
def setsEstimate : RTTCall → Option ℚ
  | .setRTTEstimate rtt => some rtt
  | .addSample _ | .setRTTVariance _ => none

/-- The getter reports the estimate that was set last, and nothing before one was set. -/
theorem getRTTEstimate_foldl (initialRtt alpha initialVariance beta : ℚ) (calls : List RTTCall) :
    (calls.foldl call (new initialRtt alpha initialVariance beta)).base.getRTTEstimate
      = (calls.filterMap setsEstimate).getLast? := by
  -- The induction is on the end of the list, as the last call decides.
  induction calls using List.reverseRecOn with
  | nil => rfl
  | append_singleton calls last ih =>
    rw [List.foldl_concat, List.filterMap_append]
    cases last with
    | addSample rtt => simpa [setsEstimate] using ih
    | setRTTEstimate rtt =>
      simp [setsEstimate, call, RTTEstimator.getRTTEstimate, RTTEstimator.setRTTEstimate]
    | setRTTVariance variance =>
      -- The variance is another member.
      have unset : List.filterMap setsEstimate [.setRTTVariance variance] = [] := rfl
      rw [unset, List.append_nil]
      exact ih

/--
The getters do not report the one state along any run, and no calls mend that.

A new estimator has nothing to report, and what is set later is never smoothed.
-/
theorem oneState_never (initialRtt alpha initialVariance beta : ℚ) (calls : List RTTCall) :
    ¬ OneState (new initialRtt alpha initialVariance beta) calls ∧
      ∃ more, ¬ Reports ((calls ++ more).foldl call (new initialRtt alpha initialVariance beta))
        ((calls ++ more).foldl maintain (new initialRtt alpha initialVariance beta)) := by
  constructor
  · intro one
    -- Before any call the members of the base class are indeterminate.
    have reported := (one [] calls rfl).estimate
    rw [getRTTEstimate_foldl] at reported
    contradiction
  · -- An estimate is set that the next sample cannot lead to.
    let state := calls.foldl maintain (new initialRtt alpha initialVariance beta)
    let estimate := (1 - state.alpha) * state.alpha + 1
    refine ⟨[.setRTTEstimate estimate, .addSample 0], ?_⟩
    intro reports
    have reported := reports.estimate
    rw [List.foldl_append, List.foldl_append] at reported
    have smoothed : estimate = (1 - state.alpha) * state.alpha + state.alpha * 0 :=
      Option.some.inj reported
    simp only [estimate, mul_zero, add_zero] at smoothed
    linarith

/-- The estimator with its default arguments does not report what its first sample has led to. -/
theorem sample_not_reported : ¬ OneState default [.addSample 3] := by
  -- After the sample the members of the base class are still indeterminate.
  intro one
  have reported := (one [.addSample 3] [] rfl).estimate
  contradiction

end DefaultRTTEstimator

end StreamUP
