import Mathlib.Algebra.Group.Int.Defs
import Mathlib.Data.Int.Order.Basic
import Mathlib.Order.MinMax

/-! # Times and durations

The package `time`, without the monotonic clock.
-/

namespace Peerscale

abbrev Time := Int

abbrev Duration := Int

def millisecond : Duration := 1000000
def second : Duration := 1000 * millisecond
def minute : Duration := 60 * second

/-- `later.Sub(earlier)`, which stays within the range of a duration. -/
def Time.sub (later earlier : Time) : Duration :=
  max (-2 ^ 63) (min (later - earlier) (2 ^ 63 - 1))

def unixEpoch : Time := 62135596800 * second

def Time.unixMilli (time : Time) : Int := (time - unixEpoch) / millisecond

def Time.ofUnixMilli (milliseconds : Int) : Time := unixEpoch + milliseconds * millisecond

theorem Time.ofUnixMilli_unixMilli_le (time : Time) : Time.ofUnixMilli time.unixMilli ≤ time := by
  have rounded := Int.ediv_mul_le (time - unixEpoch) (by decide : millisecond ≠ 0)
  rw [ofUnixMilli, unixMilli]
  exact Int.add_le_of_le_sub_left rounded

theorem Time.unixMilli_pos (late : unixEpoch + millisecond ≤ time) : 0 < time.unixMilli := by
  have whole : 1 * millisecond ≤ time - unixEpoch := by
    rw [Int.one_mul]
    exact Int.le_sub_left_of_add_le late
  exact (Int.le_ediv_iff_mul_le (by decide)).mpr whole

theorem Time.le_ofUnixMilli (pos : 0 < milliseconds) :
    unixEpoch + millisecond ≤ Time.ofUnixMilli milliseconds := by
  have whole := Int.mul_le_mul_of_nonneg_right pos (by decide : (0 : Int) ≤ millisecond)
  rw [Int.zero_add, Int.one_mul] at whole
  exact Int.add_le_add_left whole unixEpoch

theorem Time.sub_mono {later x y : Time} (prev : x ≤ y) : Time.sub later y ≤ Time.sub later x :=
  max_le_max_left _ (min_le_min_right _ (Int.sub_le_sub_left prev later))

theorem Time.sub_le_sub (prev : time ≤ now) (seenAt : Time) :
    Time.sub time seenAt ≤ Time.sub now seenAt :=
  max_le_max_left _ (min_le_min_right _ (Int.sub_le_sub_right prev seenAt))

end Peerscale
