import Mathlib.Data.Int.Notation
import Mathlib.Data.Nat.Notation

/-! What `utils::Timer` sets its descriptor to. A `Timeout` is in milliseconds, an
`itimerspec` in seconds and nanoseconds. -/

namespace EpollChat.Utils

abbrev Timeout := UInt64

/-- `it_value` of an `itimerspec`, of `time_t` and `long`. -/
structure TimeSpec where
  tvSec : Int64
  tvNsec : Int64
  deriving DecidableEq

namespace TimeSpec

/-- What `timerfd_settime` accepts. -/
def Valid (spec : TimeSpec) : Prop := 0 ≤ spec.tvSec.toInt ∧ 0 ≤ spec.tvNsec.toInt ∧ spec.tvNsec.toInt < 1000000000

/-- Zero disarms the timer. -/
def Armed (spec : TimeSpec) : Prop := spec ≠ ⟨0, 0⟩

/-- After how long the timer expires. -/
def nanoseconds (spec : TimeSpec) : ℤ := spec.tvSec.toInt * 1000000000 + spec.tvNsec.toInt

end TimeSpec

/-- `timer_spec_new` of the constructor. -/
def timerSpecNew (timeout : Timeout) : TimeSpec := ⟨(timeout / 1000).toInt64, (1000 * (timeout % 1000)).toInt64⟩

theorem toInt_toInt64_of_lt {x : UInt64} (h : 2 * x.toNat < UInt64.size) : x.toInt64.toInt = x.toNat :=
  BitVec.toInt_eq_toNat_of_lt h

theorem tvSec_timerSpecNew (timeout : Timeout) : (timerSpecNew timeout).tvSec.toInt = (timeout.toNat / 1000 : ℕ) := by
  have hdiv : (timeout / 1000).toNat = timeout.toNat / 1000 := UInt64.toNat_div timeout 1000
  have hlt := timeout.toNat_lt_size
  rw [timerSpecNew, toInt_toInt64_of_lt (by omega), hdiv]

theorem tvNsec_timerSpecNew (timeout : Timeout) :
    (timerSpecNew timeout).tvNsec.toInt = (1000 * (timeout.toNat % 1000) : ℕ) := by
  have hmod : (timeout % 1000).toNat = timeout.toNat % 1000 := UInt64.toNat_mod timeout 1000
  have hmul : (1000 * (timeout % 1000)).toNat = 1000 * (timeout.toNat % 1000) := by
    rw [UInt64.toNat_mul, hmod]
    exact Nat.mod_eq_of_lt (show 1000 * (timeout.toNat % 1000) < 18446744073709551616 by omega)
  have hlt : 2 * (1000 * (timeout.toNat % 1000)) < UInt64.size := show _ < 18446744073709551616 by omega
  rw [timerSpecNew, toInt_toInt64_of_lt (hmul ▸ hlt), hmul]

theorem valid_timerSpecNew (timeout : Timeout) : (timerSpecNew timeout).Valid := by
  rw [TimeSpec.Valid, tvSec_timerSpecNew, tvNsec_timerSpecNew]
  omega

theorem armed_timerSpecNew {timeout : Timeout} (h : 0 < timeout) : (timerSpecNew timeout).Armed := by
  intro hzero
  have hsec := tvSec_timerSpecNew timeout
  have hnsec := tvNsec_timerSpecNew timeout
  have hpos : 0 < timeout.toNat := UInt64.lt_iff_toNat_lt.mp h
  rw [hzero] at hsec hnsec
  change (0 : ℤ) = _ at hsec hnsec
  omega

/-- The remainder of a second is counted in microseconds. -/
theorem nanoseconds_timerSpecNew (timeout : Timeout) :
    (timerSpecNew timeout).nanoseconds =
      (timeout.toNat * 1000000 : ℤ) - (timeout.toNat % 1000 : ℕ) * 999000 := by
  rw [TimeSpec.nanoseconds, tvSec_timerSpecNew, tvNsec_timerSpecNew]
  omega

/-- The timer expires in time just for whole seconds, and early otherwise. -/
theorem nanoseconds_eq_iff (timeout : Timeout) :
    (timerSpecNew timeout).nanoseconds = timeout.toNat * 1000000 ↔ timeout % 1000 = 0 := by
  have hmod : timeout % 1000 = 0 ↔ timeout.toNat % 1000 = 0 := by
    rw [← UInt64.toNat_inj, UInt64.toNat_mod]
    rfl
  rw [nanoseconds_timerSpecNew, hmod]
  omega

theorem nanoseconds_le (timeout : Timeout) : (timerSpecNew timeout).nanoseconds ≤ timeout.toNat * 1000000 := by
  rw [nanoseconds_timerSpecNew]
  omega

end EpollChat.Utils
