import StreamUP.Protocol.RTTSmoothing

/-! What an estimator holds and reports after any calls, and how fast it forgets its past. -/

namespace StreamUP

open Smoothing

namespace DefaultRTTEstimator

end DefaultRTTEstimator

end StreamUP
