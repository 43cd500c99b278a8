/-
The exit before our certificate expires (`app/common/server.py`,
`restart_before_expiry`).

The loop reads the clock, and exits or sleeps: until `margin` seconds before
the certificate's end, a minute at most. A sleep takes at least as long as asked,
and up to `slack` longer. `restart_inTime_iff`: from any start, on any such
clock, the process exits, and does so while its certificate is valid, exactly
when the slack is smaller than the margin.
-/
import AgentPlatform.PolicyClient
import Mathlib.Algebra.Order.Archimedean.Basic
import Mathlib.Algebra.Order.Floor.Ring
import Mathlib.Data.Rat.Floor
import Mathlib.Tactic.Linarith

namespace AgentPlatform

namespace Restart

/-- `round(x)`: to the nearest integer, ties to even. -/
def roundHalfEven (x : ℚ) : ℤ :=
  let below := ⌊x⌋
  let rest := x - below
  if 2 * rest < 1 then below
  else if 1 < 2 * rest then below + 1
  else if below % 2 = 0 then below
  else below + 1

theorem roundHalfEven_cases (x : ℚ) :
    roundHalfEven x = ⌊x⌋ ∨ (roundHalfEven x = ⌊x⌋ + 1 ∧ (⌊x⌋ : ℚ) < x) := by
  unfold roundHalfEven
  dsimp only
  split
  · exact .inl rfl
  · rename_i hhalf
    have hlt : (⌊x⌋ : ℚ) < x := by linarith
    split
    · exact .inr ⟨rfl, hlt⟩
    · split
      · exact .inl rfl
      · exact .inr ⟨rfl, hlt⟩

/-- Rounding does not pass an integer. -/
theorem roundHalfEven_le {x : ℚ} {n : ℤ} (h : x ≤ n) : roundHalfEven x ≤ n := by
  rcases roundHalfEven_cases x with heq | ⟨heq, hlt⟩
  · rw [heq]
    exact Int.floor_le_iff.2 (by linarith)
  · rw [heq]
    exact Int.add_one_le_of_lt (by exact_mod_cast hlt.trans_le h)

theorem le_roundHalfEven {x : ℚ} {n : ℤ} (h : n ≤ x) : n ≤ roundHalfEven x := by
  have hfloor : n ≤ ⌊x⌋ := Int.le_floor.2 h
  rcases roundHalfEven_cases x with heq | ⟨heq, -⟩ <;> omega

/-! ## The loop -/

/-- `restart_delay(remaining, margin)` -/
def restartDelay (remaining margin : ℚ) : ℚ := max (min (remaining - margin) 60) 0

/-- How the loop ends: the reading of the clock it exits at, and its record. -/
structure Exit where
  reading : ℕ
  record : AuditRecord

/-- `restart_before_expiry`, from a reading on, for so many readings. -/
def restartBeforeExpiry (expiresAt : ℚ) (margin : ℤ) (service : String) (clock : ℕ → ℚ) : ℕ → ℕ → Option Exit
  | 0, _ => none
  | readings + 1, n =>
    let remaining := expiresAt - clock n
    if remaining ≤ margin then
      some ⟨n, ⟨service ++ ".svid_restart", [("remaining_seconds", .int (roundHalfEven remaining))]⟩⟩
    else restartBeforeExpiry expiresAt margin service clock readings (n + 1)

/-- A clock on which every sleep of the loop takes as long as asked, and at most
`slack` longer. -/
def Sleeps (expiresAt : ℚ) (margin : ℤ) (slack : ℚ) (clock : ℕ → ℚ) : Prop :=
  ∀ n, margin < expiresAt - clock n →
    clock n + restartDelay (expiresAt - clock n) margin ≤ clock (n + 1) ∧
      clock (n + 1) ≤ clock n + restartDelay (expiresAt - clock n) margin + slack

variable {expiresAt slack : ℚ} {margin : ℤ} {service : String} {clock : ℕ → ℚ}

theorem restartDelay_of_lt {remaining m : ℚ} (h : m < remaining) : restartDelay remaining m = min (remaining - m) 60 :=
  max_eq_left (le_min (by linarith) (by norm_num))

/-- A sleep either ends the wait or takes a minute off it. -/
theorem Sleeps.next (h : Sleeps expiresAt margin slack clock) {n : ℕ} (hn : margin < expiresAt - clock n) :
    expiresAt - margin ≤ clock (n + 1) ∨ clock n + 60 ≤ clock (n + 1) := by
  have hslept := (h n hn).1
  rw [restartDelay_of_lt hn] at hslept
  rcases le_total (expiresAt - clock n - margin) 60 with hshort | hlong
  · rw [min_eq_left hshort] at hslept
    exact .inl (by linarith)
  · rw [min_eq_right hlong] at hslept
    exact .inr hslept

/-- No sleep goes further past the deadline than the slack. -/
theorem Sleeps.overshoot (h : Sleeps expiresAt margin slack clock) {n : ℕ} (hn : margin < expiresAt - clock n) :
    clock (n + 1) ≤ expiresAt - margin + slack := by
  have hslept := (h n hn).2
  rw [restartDelay_of_lt hn] at hslept
  have hmin := min_le_left (expiresAt - clock n - margin) 60
  linarith

/-- An exit is at the first reading past the deadline. -/
structure ExitsAt (expiresAt : ℚ) (margin : ℤ) (service : String) (clock : ℕ → ℚ) (start : ℕ) (x : Exit) :
    Prop where
  past : expiresAt - clock x.reading ≤ margin
  before : ∀ n, start ≤ n → n < x.reading → margin < expiresAt - clock n
  record : x.record = ⟨service ++ ".svid_restart",
    [("remaining_seconds", .int (roundHalfEven (expiresAt - clock x.reading)))]⟩

theorem exitsAt {readings n : ℕ} {x : Exit}
    (h : restartBeforeExpiry expiresAt margin service clock readings n = some x) :
    ExitsAt expiresAt margin service clock n x := by
  induction readings generalizing n with
  | zero => cases h
  | succ readings ih =>
    simp only [restartBeforeExpiry] at h
    split at h
    · rename_i hpast
      obtain rfl := Option.some.inj h
      exact ⟨hpast, fun k hk hlt => absurd hlt (not_lt.2 hk), rfl⟩
    · rename_i hwait
      have hlater := ih h
      refine ⟨hlater.past, fun k hk hlt => ?_, hlater.record⟩
      rcases hk.eq_or_lt with rfl | hk
      · exact not_le.1 hwait
      · exact hlater.before k hk hlt

/-- The loop ends: `minutes` sleeps are enough for as many minutes. -/
theorem restart_ends (h : Sleeps expiresAt margin slack clock) {minutes n : ℕ}
    (hwait : expiresAt - margin - clock n ≤ 60 * minutes) :
    ∃ x, restartBeforeExpiry expiresAt margin service clock (minutes + 1) n = some x := by
  induction minutes generalizing n with
  | zero =>
    have hpast : expiresAt - clock n ≤ margin := by
      rw [Nat.cast_zero, mul_zero] at hwait
      linarith
    exact ⟨_, by rw [restartBeforeExpiry]; exact if_pos hpast⟩
  | succ minutes ih =>
    rw [restartBeforeExpiry]
    split
    · exact ⟨_, rfl⟩
    · rename_i hlater
      refine ih ?_
      push_cast at hwait
      have hminutes : (0 : ℚ) ≤ minutes := Nat.cast_nonneg minutes
      rcases h.next (not_le.1 hlater) with hnext | hnext <;> linarith

/-! ## In time -/

/-- A process whose certificate was valid when it started exits while it still
is, and its record says how much of it was left: something, and no more than the
margin. -/
structure InTime (expiresAt : ℚ) (margin : ℤ) (service : String) (clock : ℕ → ℚ) (x : Exit) : Prop where
  valid : clock x.reading < expiresAt
  record : ∃ left : ℤ, 0 ≤ left ∧ left ≤ margin ∧
    x.record = ⟨service ++ ".svid_restart", [("remaining_seconds", .int left)]⟩

/-- The loop does its work under any start and any clock of that slack. -/
def RestartsInTime (margin : ℤ) (slack : ℚ) : Prop :=
  ∀ (expiresAt : ℚ) (service : String) (clock : ℕ → ℚ), clock 0 < expiresAt → Sleeps expiresAt margin slack clock →
    ∃ readings x, restartBeforeExpiry expiresAt margin service clock readings 0 = some x ∧
      InTime expiresAt margin service clock x

/-- The last moment before the exit was the start, or the end of a sleep that
began before the deadline. -/
theorem ExitsAt.reading_le {x : Exit} (h : ExitsAt expiresAt margin service clock 0 x)
    (hs : Sleeps expiresAt margin slack clock) :
    x.reading = 0 ∨ clock x.reading ≤ expiresAt - margin + slack := by
  cases hreading : x.reading with
  | zero => exact .inl rfl
  | succ n => exact .inr (hs.overshoot (h.before n (Nat.zero_le n) (by omega)))

theorem ExitsAt.inTime {x : Exit} (h : ExitsAt expiresAt margin service clock 0 x)
    (hs : Sleeps expiresAt margin slack clock) (hstart : clock 0 < expiresAt) (hslack : slack < margin) :
    InTime expiresAt margin service clock x := by
  have hvalid : clock x.reading < expiresAt := by
    rcases h.reading_le hs with hzero | hle
    · rw [hzero]
      exact hstart
    · linarith
  refine ⟨hvalid, _, le_roundHalfEven ?_, roundHalfEven_le h.past, h.record⟩
  rw [Int.cast_zero]
  linarith

/-- A clock whose every sleep takes `slack` longer. -/
def lateClock (expiresAt : ℚ) (margin : ℤ) (slack first : ℚ) : ℕ → ℚ
  | 0 => first
  | n + 1 =>
    let now := lateClock expiresAt margin slack first n
    now + restartDelay (expiresAt - now) margin + slack

theorem lateClock_sleeps {first : ℚ} (hslack : 0 ≤ slack) :
    Sleeps expiresAt margin slack (lateClock expiresAt margin slack first) :=
  fun _ _ => ⟨le_add_of_nonneg_right hslack, le_rfl⟩

/-- On it, a process that starts a second before the deadline exits with the
whole slack spent. -/
theorem lateClock_late {x : Exit} (hslack : 0 ≤ slack)
    (h : ExitsAt expiresAt margin service (lateClock expiresAt margin slack (expiresAt - margin - 1)) 0 x) :
    lateClock expiresAt margin slack (expiresAt - margin - 1) x.reading = expiresAt - margin + slack := by
  have hfirst : lateClock expiresAt margin slack (expiresAt - margin - 1) 0 = expiresAt - margin - 1 := rfl
  have hsecond : lateClock expiresAt margin slack (expiresAt - margin - 1) 1 = expiresAt - margin + slack := by
    have hdelay : restartDelay (expiresAt - (expiresAt - margin - 1)) margin = 1 := by
      have hsecond : expiresAt - (expiresAt - margin - 1) = margin + 1 := by ring
      rw [hsecond, restartDelay_of_lt (lt_add_one _), add_sub_cancel_left]
      norm_num
    rw [lateClock, hfirst, hdelay]
    ring
  have hreading : x.reading = 1 := by
    refine le_antisymm (not_lt.1 fun hlt => ?_) (Nat.one_le_iff_ne_zero.2 fun hzero => ?_)
    · have hwait := h.before 1 (Nat.zero_le 1) hlt
      rw [hsecond] at hwait
      linarith
    · have hpast := h.past
      rw [hzero, hfirst] at hpast
      linarith
  rw [hreading, hsecond]

/-- **The exit comes in time exactly when the margin covers the slack**: the
process then never serves an expired certificate, whenever it started. -/
theorem restart_inTime_iff (margin : ℤ) (slack : ℚ) (hslack : 0 ≤ slack) :
    RestartsInTime margin slack ↔ slack < margin := by
  constructor
  · intro h
    by_contra hlong
    by_cases hmargin : 0 ≤ margin
    · have hstart : lateClock 0 margin slack (0 - margin - 1) 0 < 0 := by
        have hcast : (0 : ℚ) ≤ margin := Int.cast_nonneg hmargin
        show 0 - (margin : ℚ) - 1 < 0
        linarith
      obtain ⟨_, x, hx, hin⟩ := h 0 "agent" _ hstart (lateClock_sleeps hslack)
      have hvalid := hin.valid
      rw [lateClock_late hslack (exitsAt hx)] at hvalid
      linarith
    · -- a negative margin lets the certificate expire first
      have hstart : lateClock 0 margin slack (-1) 0 < 0 := by
        show (-1 : ℚ) < 0
        norm_num
      obtain ⟨_, x, hx, hin⟩ := h 0 "agent" _ hstart (lateClock_sleeps hslack)
      have hnegative : (margin : ℚ) < 0 := Int.cast_lt_zero.2 (not_le.1 hmargin)
      have hpast := (exitsAt hx).past
      have hvalid := hin.valid
      linarith
  · intro hshort expiresAt service clock hstart hs
    obtain ⟨minutes, hminutes⟩ := exists_nat_ge ((expiresAt - margin - clock 0) / 60)
    have hwait : expiresAt - margin - clock 0 ≤ 60 * minutes := by linarith
    obtain ⟨x, hx⟩ := restart_ends hs hwait
    exact ⟨minutes + 1, x, hx, (exitsAt hx).inTime hs hstart hshort⟩

/-- Two minutes cover a minute. -/
theorem twoMinutes_inTime : RestartsInTime 120 60 ↔ (60 : ℚ) < (120 : ℤ) := restart_inTime_iff 120 60 (by norm_num)

end Restart

end AgentPlatform
