import Impd4e.Lib.Binary64

/-! # Timers of libev

    libev is a library the program is linked with.  The functions of its timers are
    a parameter, `Libev`, with what the documentation of libev says of them.  That
    speaks of a `repeat` value of 0 and of positive ones; what becomes of a timer
    with another value is left open. -/

open Binary64

/-- `ev_timer`: the member `repeat`, and whether the watcher is active. -/
structure EvTimer where
  period : Double
  active : Bool
  deriving DecidableEq, Repr

/-- The timer of a `repeat` value: it goes on, or is stopped where the value is 0. -/
def EvTimer.every (period : Double) : EvTimer := ⟨period, decide (period ≠ 0)⟩

/-- The timer functions of libev. -/
class Libev where
  /-- `ev_timer_start` -/
  start : EvTimer → EvTimer
  /-- `ev_timer_again` -/
  again : EvTimer → EvTimer
  /-- a timer at the moment it is due, behind its callback; `none` where there is none -/
  fire : EvTimer → Option EvTimer
  /-- a watcher that is started is active -/
  start_eq : ∀ t : EvTimer, 0 ≤ t.period → start t = { t with active := true }
  /-- a timer that repeats is started, or started over, and one that does not is stopped -/
  again_eq : ∀ t : EvTimer, 0 ≤ t.period → again t = .every t.period
  /-- only active watchers are called back -/
  fire_inactive : ∀ t : EvTimer, t.active = false → fire t = none
  /-- they are, and `repeat` is the caller's to change -/
  fire_active : ∀ t : EvTimer, t.active = true → ∃ t', fire t = some t' ∧ t'.period = t.period
  /-- a timer that repeats goes on, and one that does not stops -/
  fire_eq : ∀ t : EvTimer, t.active = true → 0 ≤ t.period → fire t = some (.every t.period)

namespace Libev.Repeating

/-- The timers as documented; any value but 0 repeats. -/
scoped instance repeating : Libev where
  start t := { t with active := true }
  again t := .every t.period
  fire t := if t.active then some (.every t.period) else none
  start_eq _ _ := rfl
  again_eq _ _ := rfl
  fire_inactive t h := by rw [h]; rfl
  fire_active t h := ⟨_, if_pos h, rfl⟩
  fire_eq t h _ := if_pos h

end Libev.Repeating
