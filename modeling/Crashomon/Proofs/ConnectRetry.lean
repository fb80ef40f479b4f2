import Crashomon.Lib.Connect

/-! The connect loop ends: a clock that goes on by 100 ms over each sleep leaves room for ten
retries a second. -/

namespace Crashomon.Proofs.ConnectRetry
open Loop
open Lib.Config Lib.Connect

def nanoseconds (time : Timespec) : Int := time.tvSec * 1000000000 + time.tvNsec

/-- A monotone clock. Between two readings in the loop lies a sleep. -/
structure Clock where
  reading : Nat → Timespec
  normal : ∀ count, 0 ≤ (reading count).tvNsec ∧ (reading count).tvNsec < 1000000000
  starts : nanoseconds (reading 0) ≤ nanoseconds (reading 1)
  sleeps : ∀ count, nanoseconds (reading (count + 1)) + kRetryIntervalNs ≤ nanoseconds (reading (count + 2))

variable {cfg : ResolvedConfig} {connect : Nat → Outcome} {clock : Clock}

def deadline (cfg : ResolvedConfig) (clock : Clock) : Int := nanoseconds (clock.reading 0) + cfg.connectTimeoutSec * 1000000000

theorem clock_advances (clock : Clock) (count : Nat) :
    nanoseconds (clock.reading 0) + count * kRetryIntervalNs ≤ nanoseconds (clock.reading (count + 1)) := by
  induction count with
  | zero =>
    have started : nanoseconds (clock.reading 0) ≤ nanoseconds (clock.reading (0 + 1)) := clock.starts
    omega
  | succ count ih =>
    have slept : nanoseconds (clock.reading (count + 1)) + kRetryIntervalNs ≤ nanoseconds (clock.reading (count + 1 + 1)) :=
      clock.sleeps count
    unfold kRetryIntervalNs at ih slept ⊢
    omega

/-- Field by field, the comparison is the one of the times. -/
theorem past_iff (cfg : ResolvedConfig) (clock : Clock) (count : Nat) :
    Past (clock.reading count) ⟨(clock.reading 0).tvSec + cfg.connectTimeoutSec, (clock.reading 0).tvNsec⟩ ↔
      deadline cfg clock ≤ nanoseconds (clock.reading count) := by
  have first := clock.normal 0
  have now := clock.normal count
  unfold Past deadline nanoseconds
  dsimp only
  omega

/-- The progress when the loop has gone on so many times. -/
structure Waiting (cfg : ResolvedConfig) (connect : Nat → Outcome) (clock : Clock) (progress : Progress) : Prop where
  bounded : (progress.attempts : Int) ≤ 10 * cfg.connectTimeoutSec
  retried : ∀ earlier < progress.attempts, Transient (connect earlier)
  alone : progress.connected = false
  printed : progress.waitingPrinted = true ↔ 1 ≤ progress.attempts
  output : progress.output = if 1 ≤ progress.attempts then [waitingNotice cfg] else []

/-- How the loop ends: connected, given up at an error that is not transient, or at the deadline. -/
structure Ended (cfg : ResolvedConfig) (connect : Nat → Outcome) (clock : Clock) (progress : Progress) : Prop where
  some_attempt : 1 ≤ progress.attempts
  bounded : (progress.attempts : Int) ≤ 10 * cfg.connectTimeoutSec + 1
  retried : ∀ earlier, earlier + 1 < progress.attempts → Transient (connect earlier)
  verdict : progress.connected = true ↔ connect (progress.attempts - 1) = .success
  errno : ∀ errno, connect (progress.attempts - 1) = .failed errno → progress.connectErrno = errno
  gaveUp : Transient (connect (progress.attempts - 1)) → deadline cfg clock ≤ nanoseconds (clock.reading progress.attempts)
  output : progress.output = if 2 ≤ progress.attempts then [waitingNotice cfg] else []

theorem transient_iff {errno : Int} : Transient (.failed errno) ↔ ¬ (errno ≠ enoent ∧ errno ≠ econnrefused) := by
  simp only [Transient, Outcome.failed.injEq]
  omega

theorem not_transient_success : ¬ Transient .success := by
  rintro (same | same) <;> cases same

section Turns
variable {progress result : Progress}

/-- What a turn can do: it ends with the outcome of the call, or the call failed for now and there is time left. -/
theorem turn_cases (cfg : ResolvedConfig) (connect : Nat → Outcome) (clock : Clock) (progress : Progress) :
    (connect progress.attempts = .success ∧
      connectTurn cfg connect clock.reading progress = .done { progress with attempts := progress.attempts + 1, connected := true }) ∨
    ∃ errno, connect progress.attempts = .failed errno ∧
      ((Transient (connect progress.attempts) → deadline cfg clock ≤ nanoseconds (clock.reading (progress.attempts + 1))) ∧
          connectTurn cfg connect clock.reading progress =
            .done { progress with attempts := progress.attempts + 1, connectErrno := errno } ∨
        (Transient (connect progress.attempts) ∧ nanoseconds (clock.reading (progress.attempts + 1)) < deadline cfg clock) ∧
          connectTurn cfg connect clock.reading progress =
            .again ⟨progress.attempts + 1, progress.connected, true, errno, notified cfg progress⟩) := by
  unfold connectTurn
  cases outcome : connect progress.attempts with
  | success => exact Or.inl ⟨rfl, rfl⟩
  | failed errno =>
    refine Or.inr ⟨errno, rfl, ?_⟩
    rw [transient_iff, ← Int.not_le, ← past_iff]
    dsimp only
    by_cases other : errno ≠ enoent ∧ errno ≠ econnrefused
    · rw [if_pos other]
      exact Or.inl ⟨fun transient => absurd other transient, rfl⟩
    · rw [if_neg other]
      by_cases late : Past (clock.reading (progress.attempts + 1))
          ⟨(clock.reading 0).tvSec + cfg.connectTimeoutSec, (clock.reading 0).tvNsec⟩
      · rw [if_pos late]
        exact Or.inl ⟨fun _ => late, rfl⟩
      · rw [if_neg late]
        exact Or.inr ⟨⟨other, late⟩, rfl⟩

theorem notified_eq (waiting : Waiting cfg connect clock progress) : notified cfg progress = [waitingNotice cfg] := by
  unfold notified
  by_cases printed : progress.waitingPrinted = true
  · rw [if_pos printed, waiting.output, if_pos (waiting.printed.mp printed)]
  · rw [if_neg printed, waiting.output, if_neg fun tried => printed (waiting.printed.mpr tried), List.nil_append]

theorem waiting_goesOn (waiting : Waiting cfg connect clock progress) {next : Progress}
    (again : connectTurn cfg connect clock.reading progress = .again next) :
    Waiting cfg connect clock next ∧ next.attempts = progress.attempts + 1 := by
  rcases turn_cases cfg connect clock progress with ⟨_, done⟩ | ⟨errno, _, ⟨_, done⟩ | ⟨⟨transient, early⟩, taken⟩⟩
  · rw [done] at again
    cases again
  · rw [done] at again
    cases again
  rw [taken] at again
  cases again
  -- The clock is before the deadline, so that there have been fewer than ten retries a second.
  have advanced := clock_advances clock progress.attempts
  unfold deadline at early
  unfold kRetryIntervalNs at advanced
  refine ⟨⟨?_, ?_, waiting.alone, ?_, ?_⟩, rfl⟩
  · dsimp only
    omega
  · intro earlier before
    rcases Nat.lt_succ_iff_lt_or_eq.mp before with sooner | rfl
    · exact waiting.retried earlier sooner
    · exact transient
  · simp
  · rw [if_pos (Nat.le_add_left 1 _)]
    exact notified_eq waiting

theorem waiting_ends (waiting : Waiting cfg connect clock progress) (done : connectTurn cfg connect clock.reading progress = .done result) :
    Ended cfg connect clock result := by
  have bound := waiting.bounded
  have retried : ∀ earlier, earlier + 1 < progress.attempts + 1 → Transient (connect earlier) :=
    fun earlier before => waiting.retried earlier (Nat.lt_of_succ_lt_succ before)
  have output : progress.output = if 2 ≤ progress.attempts + 1 then [waitingNotice cfg] else [] := by
    rw [waiting.output]
    simp only [Nat.reduceLeDiff]
  have last : progress.attempts + 1 - 1 = progress.attempts := Nat.add_sub_cancel _ _
  rcases turn_cases cfg connect clock progress with ⟨success, taken⟩ | ⟨errno, failed, ⟨late, taken⟩ | ⟨_, taken⟩⟩
  · rw [taken] at done
    cases done
    refine ⟨Nat.le_add_left 1 _, by dsimp only; omega, retried, ?_, ?_, ?_, output⟩
    · simp [success]
    · intro errno failed
      rw [last, success] at failed
      cases failed
    · intro transient
      rw [last, success] at transient
      exact absurd transient not_transient_success
  · rw [taken] at done
    cases done
    refine ⟨Nat.le_add_left 1 _, by dsimp only; omega, retried, ?_, ?_, ?_, output⟩
    · simp [failed, waiting.alone]
    · intro other same
      rw [last, failed] at same
      exact Outcome.failed.inj same
    · intro transient
      rw [last] at transient
      exact late transient
  · rw [taken] at done
    cases done

end Turns

/-- With at most ten attempts a second and one more, the loop has ended: at the first success, at the first error that is not
transient, or at the deadline. The notice is printed once if there was a second attempt. -/
theorem connect_ends (cfg : ResolvedConfig) (connect : Nat → Outcome) (clock : Clock) (timeout : 0 ≤ cfg.connectTimeoutSec) :
    ∃ result, connectLoop cfg connect clock.reading (10 * cfg.connectTimeoutSec.toNat + 1) = some result ∧
      Ended cfg connect clock result := by
  apply run_ends (Waiting cfg connect clock) fun progress => 10 * cfg.connectTimeoutSec.toNat - progress.attempts
  · exact waiting_ends
  · intro progress next waiting again
    obtain ⟨kept, count⟩ := waiting_goesOn waiting again
    have bound := kept.bounded
    exact ⟨kept, by omega⟩
  · exact ⟨by dsimp only [start]; omega, fun earlier before => absurd before (Nat.not_lt_zero earlier), rfl, by decide, rfl⟩
  · exact Nat.lt_succ_of_le (Nat.sub_le _ _)

/-- A clock on which every sleep takes 100 ms and nothing else takes time. -/
def steady : Clock where
  reading count := ⟨((count - 1 : Nat) / 10 : Nat), ((count - 1) % 10 : Nat) * 100000000⟩
  normal count := by
    dsimp only
    omega
  starts := by decide
  sleeps count := by
    unfold nanoseconds kRetryIntervalNs
    dsimp only
    omega

def oneSecond : ResolvedConfig := ⟨ascii "/var/crashomon", ascii "/s.sock", 1⟩

def thirdSucceeds (attempt : Nat) : Outcome := if attempt = 2 then .success else .failed enoent

/-- The daemon comes up for the third attempt. -/
theorem third_attempt_connects :
    0 ≤ oneSecond.connectTimeoutSec ∧ Ended oneSecond thirdSucceeds steady ⟨3, true, true, enoent, [waitingNotice oneSecond]⟩ := by
  obtain ⟨result, ended, facts⟩ := connect_ends oneSecond thirdSucceeds steady (by decide)
  have here : connectLoop oneSecond thirdSucceeds steady.reading (10 * oneSecond.connectTimeoutSec.toNat + 1) =
      some ⟨3, true, true, enoent, [waitingNotice oneSecond]⟩ := by decide +kernel
  rw [here] at ended
  cases ended
  exact ⟨by decide, facts⟩

end Crashomon.Proofs.ConnectRetry
