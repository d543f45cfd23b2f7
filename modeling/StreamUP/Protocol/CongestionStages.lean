import StreamUP.Protocol.CongestionGrowth

/-! When the stage of the congestion control agrees with its threshold, along exact runs. -/

namespace StreamUP

/-- A call over exact integers, with what `getMSS` returns during it. -/
structure ExactCall where
  getMSS : Int
  event : CongestionEvent
  low : 0 ≤ getMSS
  nonnegative : event.Nonnegative

namespace TCPCongestionControl

/-- The state after a call, which on exact integers never fails. -/
def exactCall (self : TCPCongestionControl) (call : ExactCall) :
    Except Empty TCPCongestionControl :=
  .ok (self.exactStep call.getMSS call.event)

/-- Slow start is the stage of a window below the threshold, and of no other. -/
def StageAgrees (self : TCPCongestionControl) : Prop :=
  self.stage = .slowStart ↔ self.cWnd < self.ssThresh

/--
The stage follows the threshold along a run.

It agrees in every state, so no ack is counted in full once the window is at the threshold.
-/
structure StageFollows (calls : List ExactCall) : Prop where
  agrees : Run.Always exactCall StageAgrees new calls
  slowBelow : Run.EveryStep exactCall (fun self call => ∀ numBytes,
    call.event = .onAck numBytes → self.stage = .slowStart → self.cWnd < self.ssThresh) new calls

/-- A timeout finds a window whose half is larger than the initial window. -/
def HalfAboveInitial (self : TCPCongestionControl) (call : ExactCall) : Prop :=
  -- The half becomes the threshold, and the initial size the window.
  call.event = .onTimeout → initCwnd < self.cWnd / 2

/-- The window is no smaller than the initial one, and in avoidance no smaller than the threshold. -/
structure Staged (control : TCPCongestionControl) : Prop where
  wide : initCwnd ≤ control.cWnd
  above : control.stage = .congestionAvoidance → control.ssThresh ≤ control.cWnd

/-- A new connection starts with the initial window. -/
theorem staged_new : Staged new where
  wide := Int.le_refl initCwnd
  above := fun avoiding => TahoeStage.noConfusion avoiding

/-- An ack moves the window to or above the threshold exactly when it leads to avoidance. -/
theorem stageAgrees_exactAck {getMSS numBytes : Int} {self : TCPCongestionControl}
    (staged : self.Staged) (low : 0 ≤ getMSS) (nonneg : 0 ≤ numBytes) :
    (self.exactAck getMSS numBytes).StageAgrees := by
  have positive : 0 < self.cWnd := positive_of_wide staged.wide
  have grown := cWnd_le_exactAck low positive nonneg
  unfold StageAgrees
  cases stage : self.stage with
  | slowStart =>
    -- The comparison in the code is the one that is asked for.
    simp only [exactAck, stage]
    split
    · rename_i reached
      simp [reached]
    · rename_i below
      simpa [stage] using below
  | congestionAvoidance =>
    -- Neither the stage nor the threshold changes, and the window does not shrink.
    have above := staged.above stage
    have threshold : (self.exactAck getMSS numBytes).ssThresh = self.ssThresh := by
      simp only [exactAck, stage]
    rw [stage_exactAck_avoidance stage, threshold]
    simp only [reduceCtorEq, false_iff]
    omega

/-- A timeout leaves the stage in agreement exactly when half the window is above the initial one. -/
theorem stageAgrees_exactTimeout {self : TCPCongestionControl} (staged : self.Staged) :
    self.exactTimeout.StageAgrees ↔ initCwnd < self.cWnd / 2 := by
  -- The stage is slow start in any case.
  have positive : 0 ≤ self.cWnd := Int.le_of_lt (positive_of_wide staged.wide)
  simp only [StageAgrees, exactTimeout, Int.tdiv_eq_ediv_of_nonneg positive, true_iff]

/-- Every call keeps the window no smaller than the initial one, or than the threshold reached. -/
theorem Staged.exactCall {self next : TCPCongestionControl} {call : ExactCall}
    (staged : self.Staged) (called : self.exactCall call = .ok next) : next.Staged := by
  cases called
  refine ⟨initCwnd_le_exactStep call.low call.nonnegative staged.wide, ?_⟩
  intro avoiding
  have nonnegative := call.nonnegative
  -- A timeout goes to slow start, and after an ack the stage agrees with the threshold.
  cases event : call.event with
  | onTimeout =>
    rw [event] at avoiding
    contradiction
  | onAck numBytes =>
    rw [event] at avoiding nonnegative
    have agrees := stageAgrees_exactAck staged call.low nonnegative
    refine Int.not_lt.mp fun below => ?_
    have starting := agrees.mpr below
    exact TahoeStage.noConfusion (avoiding.symm.trans starting)

/-- A call leaves the stage in agreement exactly when it is no timeout in a window too small. -/
theorem stageAgrees_exactCall {self : TCPCongestionControl} (staged : self.Staged)
    (call : ExactCall) :
    (∀ next, self.exactCall call = .ok next → next.StageAgrees) ↔ self.HalfAboveInitial call := by
  have nonnegative := call.nonnegative
  simp only [exactCall, Except.ok.injEq, forall_eq', HalfAboveInitial]
  cases event : call.event with
  | onAck numBytes =>
    rw [event] at nonnegative
    simp only [exactStep, reduceCtorEq, false_implies, iff_true]
    exact stageAgrees_exactAck staged call.low nonnegative
  | onTimeout =>
    simp only [exactStep, true_implies]
    exact stageAgrees_exactTimeout staged

/-- At every moment of a run the stage agrees exactly when no timeout finds a window too small. -/
theorem always_stageAgrees_iff (calls : List ExactCall) :
    Run.Always exactCall StageAgrees new calls ↔ Run.EveryStep exactCall HalfAboveInitial new calls :=
  Run.always_iff exactCall Staged StageAgrees
    (fun _ _ _ staged called => staged.exactCall called)
    (fun _ call staged _ => stageAgrees_exactCall staged call) staged_new
    (iff_of_true rfl (by decide))

/-- The stage follows the threshold exactly when no timeout finds a window too small. -/
theorem stageFollows_iff (calls : List ExactCall) :
    StageFollows calls ↔ Run.EveryStep exactCall HalfAboveInitial new calls := by
  rw [← always_stageAgrees_iff]
  constructor
  · exact fun follows => follows.agrees
  · intro agrees
    refine ⟨agrees, (Run.everyStep_iff exactCall).mpr ?_⟩
    intro before call after middle split arrived numBytes _ starting
    -- Before each ack the run is at one of its moments.
    exact (agrees before (call :: after) middle split arrived).mp starting

/-- A timeout of a new connection, whatever its segment size. -/
def firstTimeout : ExactCall where
  getMSS := 1200
  event := .onTimeout
  low := by decide
  nonnegative := trivial

/-- A timeout of a new connection leaves slow start with a window twice the threshold. -/
theorem firstTimeout_not_follows : ¬ StageFollows [firstTimeout] := by
  -- Half of the initial window becomes the threshold, and the window starts over at all of it.
  intro follows
  have agrees := follows.agrees [firstTimeout] [] _ rfl rfl
  have below : initCwnd < initCwnd.tdiv 2 := agrees.mp rfl
  contradiction

end TCPCongestionControl

end StreamUP
