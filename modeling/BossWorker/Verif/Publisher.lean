import BossWorker.Python.Publisher
import Mathlib.Tactic.Linarith

/-!
# How long the publisher waits

Every call of `get` has the whole timeout again, so each result for somebody else that
arrives during the wait puts the end off. The wait ends in time exactly when the result is
there in time or the queue stays quiet.
-/

namespace BossWorker.Python

section Steps

variable {timeout now opened : ℚ} {assignmentId : String}
  {results : Arrivals ℚ AssignmentResult opened} {next : Nat}

/-- Without a next result in time, the wait is given up. -/
theorem awaitResult_empty (calls : Nat)
    (late : ∀ arrival, results.nth next = some arrival → now + timeout < arrival.time) :
    awaitResult timeout assignmentId results (calls + 1) now next =
      some ⟨none, now + timeout⟩ := by
  rw [awaitResult, queueGet]
  cases there : results.nth next with
  | none => rfl
  | some arrival => simp only [not_le.mpr (late arrival there), if_false]

variable {arrival : Arrival ℚ AssignmentResult}

/-- A result for the request is accepted. -/
theorem awaitResult_accept (calls : Nat) (there : results.nth next = some arrival)
    (inTime : arrival.time ≤ now + timeout) (own : arrival.item.assignmentId = assignmentId) :
    awaitResult timeout assignmentId results (calls + 1) now next =
      some ⟨some arrival.item, max now arrival.time⟩ := by
  simp only [awaitResult, queueGet, there, inTime, if_true, own, ne_eq, not_true_eq_false,
    if_false]

/-- A result for another request is ignored, and the next call has the whole timeout. -/
theorem awaitResult_ignore (calls : Nat) (there : results.nth next = some arrival)
    (inTime : arrival.time ≤ now + timeout) (other : arrival.item.assignmentId ≠ assignmentId) :
    awaitResult timeout assignmentId results (calls + 1) now next =
      awaitResult timeout assignmentId results calls (max now arrival.time) (next + 1) := by
  simp only [awaitResult, queueGet, there, inTime, if_true, other, ne_eq, not_false_eq_true]

end Steps

/-- The wait ends by its deadline, with the first result for the request that is there by
then, or timed out if none is. -/
def EndsInTime (timeout opened : ℚ) (assignmentId : String)
    (results : Arrivals ℚ AssignmentResult opened) : Prop :=
  ∃ calls ending, awaitResult timeout assignmentId results calls opened 0 = some ending ∧
    ending.time ≤ opened + timeout ∧
    (∀ result, ending.result = some result →
      results.FirstBy (fun result => result.assignmentId = assignmentId) (opened + timeout)
        result) ∧
    (ending.result = none →
      results.NoneBy (fun result => result.assignmentId = assignmentId) (opened + timeout))

section Runs

variable {timeout opened : ℚ} {assignmentId : String}
  {results : Arrivals ℚ AssignmentResult opened}

/-- If the result for the request is there in time, it is accepted in time. -/
theorem awaitResult_of_there {arrival : Arrival ℚ AssignmentResult} {n : Nat}
    (there : results.nth n = some arrival) (own : arrival.item.assignmentId = assignmentId)
    (inTime : arrival.time ≤ opened + timeout)
    (first : ∀ m < n, ∀ earlier, results.nth m = some earlier →
      earlier.item.assignmentId ≠ assignmentId)
    {ahead next : Nat} (count : next + ahead = n) {now : ℚ} (entered : opened ≤ now)
    (early : now ≤ opened + timeout) :
    ∃ ending, awaitResult timeout assignmentId results (ahead + 1) now next = some ending ∧
      ending.result = some arrival.item ∧ ending.time ≤ opened + timeout := by
  induction ahead generalizing next now with
  | zero =>
    obtain rfl : next = n := count
    have open_still : arrival.time ≤ now + timeout := by linarith
    exact ⟨_, awaitResult_accept 0 there open_still own, rfl, max_le early inTime⟩
  | succ ahead ih =>
    cases listed : results.nth next with
    | none =>
      rw [results.nth_eq_none listed (by omega)] at there
      contradiction
    | some earlier =>
      have before : earlier.time ≤ arrival.time := results.time_le (by omega) listed there
      have open_still : earlier.time ≤ now + timeout := by linarith
      have other := first next (by omega) earlier listed
      rw [awaitResult_ignore (ahead + 1) listed open_still other]
      exact ih (by omega) (entered.trans (le_max_left now _))
        (max_le early (before.trans inTime))

/-- If the queue stays quiet with only results for others waiting, the wait is given up at the
deadline. -/
theorem awaitResult_of_quiet
    (quiet : results.QuietUntil (opened + timeout))
    (nobody : results.NoneBy (fun result => result.assignmentId = assignmentId)
      (opened + timeout)) {waiting ahead next : Nat}
    (emptied : ∀ arrival, results.nth waiting = some arrival → opened < arrival.time)
    (count : next + ahead = waiting) :
    ∃ calls, awaitResult timeout assignmentId results calls opened next =
      some ⟨none, opened + timeout⟩ := by
  have late (n : Nat) (arrival : Arrival ℚ AssignmentResult)
      (there : results.nth n = some arrival) (after : opened < arrival.time) :
      opened + timeout < arrival.time := by
    apply not_le.mp
    intro inTime
    exact absurd (quiet n arrival there inTime) (not_le.mpr after)
  induction ahead generalizing next with
  | zero =>
    obtain rfl : next = waiting := count
    exact ⟨1, awaitResult_empty 0 fun arrival there =>
      late next arrival there (emptied arrival there)⟩
  | succ ahead ih =>
    cases there : results.nth next with
    | none =>
      refine ⟨1, awaitResult_empty 0 fun arrival found => ?_⟩
      rw [there] at found
      contradiction
    | some arrival =>
      by_cases inTime : arrival.time ≤ opened + timeout
      · have before := quiet next arrival there inTime
        have other := nobody next arrival there inTime
        obtain ⟨calls, rest⟩ := @ih (next + 1) (by omega)
        refine ⟨calls + 1, ?_⟩
        rw [awaitResult_ignore calls there inTime other, max_eq_left before, rest]
      · refine ⟨1, awaitResult_empty 0 fun found same => ?_⟩
        rw [there] at same
        rw [← Option.some.inj same]
        exact not_le.mp inTime

/-- If no result for the request is there in time, the wait ends late once a result for
somebody else has restarted it after the opening, or is still to do so. -/
theorem awaitResult_late
    (nobody : results.NoneBy (fun result => result.assignmentId = assignmentId)
      (opened + timeout)) {calls next : Nat} {now : ℚ} (entered : opened ≤ now)
    (restarted : opened < now ∨ ∃ n arrival, next ≤ n ∧ results.nth n = some arrival ∧
      opened < arrival.time ∧ arrival.time ≤ opened + timeout) {ending : WaitEnd}
    (ended : awaitResult timeout assignmentId results calls now next = some ending) :
    opened + timeout < ending.time := by
  induction calls generalizing now next with
  | zero => contradiction
  | succ calls ih =>
    by_cases reached : ∃ arrival, results.nth next = some arrival ∧
        arrival.time ≤ now + timeout
    · obtain ⟨arrival, there, inTime⟩ := reached
      by_cases own : arrival.item.assignmentId = assignmentId
      · rw [awaitResult_accept calls there inTime own] at ended
        rw [← Option.some.inj ended]
        have late : opened + timeout < arrival.time := by
          apply not_le.mp
          exact fun early => nobody next arrival there early own
        exact late.trans_le (le_max_right now arrival.time)
      · rw [awaitResult_ignore calls there inTime own] at ended
        refine ih (entered.trans (le_max_left now arrival.time)) ?_ ended
        cases restarted with
        | inl before => exact Or.inl (before.trans_le (le_max_left now arrival.time))
        | inr coming =>
          obtain ⟨n, other, ahead, listed, after, soon⟩ := coming
          by_cases same : next = n
          · subst same
            rw [there] at listed
            obtain rfl := Option.some.inj listed
            exact Or.inl (after.trans_le (le_max_right now arrival.time))
          · exact Or.inr ⟨n, other, by omega, listed, after, soon⟩
    · have late : ∀ arrival, results.nth next = some arrival → now + timeout < arrival.time :=
        fun arrival there => not_le.mp fun inTime => reached ⟨arrival, there, inTime⟩
      rw [awaitResult_empty calls late] at ended
      rw [← Option.some.inj ended]
      cases restarted with
      | inl before => exact add_lt_add_of_lt_of_le before (le_refl timeout)
      | inr coming =>
        obtain ⟨n, other, ahead, listed, _, soon⟩ := coming
        cases there : results.nth next with
        | none =>
          rw [results.nth_eq_none there ahead] at listed
          contradiction
        | some arrival =>
          have before := results.time_le ahead there listed
          have after := late arrival there
          linarith

/-- As long as results for somebody else keep coming within the timeout, the wait goes on. -/
theorem awaitResult_endless {arrivals : Nat → Arrival ℚ AssignmentResult}
    (there : ∀ n, results.nth n = some (arrivals n))
    (others : ∀ n, (arrivals n).item.assignmentId ≠ assignmentId)
    (close : ∀ n, (arrivals (n + 1)).time ≤ (arrivals n).time + timeout) {next : Nat} {now : ℚ}
    (first : (arrivals next).time ≤ now + timeout) (calls : Nat) :
    awaitResult timeout assignmentId results calls now next = none := by
  induction calls generalizing now next with
  | zero => rfl
  | succ calls ih =>
    rw [awaitResult_ignore calls (there next) first (others next)]
    apply ih
    have gap := close next
    have reached := le_max_right now (arrivals next).time
    linarith

end Runs

/-- For every request, timeout and sequence of results, the wait ends by its deadline with the
first result for the request, or timed out if there is none, exactly when such a result is
there by the deadline or no result at all arrives between the opening and the deadline. -/
theorem ends_in_time_iff (timeout opened : ℚ) (positive : 0 < timeout) (assignmentId : String)
    (results : Arrivals ℚ AssignmentResult opened) :
    EndsInTime timeout opened assignmentId results ↔
      (∃ n arrival, results.nth n = some arrival ∧
        arrival.item.assignmentId = assignmentId ∧ arrival.time ≤ opened + timeout) ∨
      results.QuietUntil (opened + timeout) := by
  by_cases nobody : results.NoneBy (fun result => result.assignmentId = assignmentId)
      (opened + timeout)
  · constructor
    · intro inTime
      obtain ⟨calls, ending, ended, early, _⟩ := inTime
      right
      intro n arrival there soon
      apply not_lt.mp
      intro after
      have late := awaitResult_late nobody (le_refl opened)
        (Or.inr ⟨n, arrival, Nat.zero_le n, there, after, soon⟩) ended
      exact absurd early (not_le.mpr late)
    · intro condition
      cases condition with
      | inl answered =>
        obtain ⟨n, arrival, there, own, soon⟩ := answered
        exact absurd own (nobody n arrival there soon)
      | inr quiet =>
        obtain ⟨waiting, emptied⟩ := results.finite
        obtain ⟨calls, ended⟩ := awaitResult_of_quiet quiet nobody emptied (Nat.zero_add waiting)
        refine ⟨calls, _, ended, le_refl _, fun result same => ?_, fun _ => nobody⟩
        contradiction
  · have answered := results.exists_firstBy _ nobody
    obtain ⟨result, n, arrival, there, rfl, own, soon, first⟩ := answered
    refine iff_of_true ?_ (Or.inl ⟨n, arrival, there, own, soon⟩)
    have start : opened ≤ opened + timeout := by linarith
    obtain ⟨ending, ended, accepted, early⟩ :=
      awaitResult_of_there there own soon first (Nat.zero_add n) (le_refl opened) start
    refine ⟨_, ending, ended, early, fun result same => ?_, fun nothing => ?_⟩
    · rw [accepted] at same
      rw [← Option.some.inj same]
      exact ⟨n, arrival, there, rfl, own, soon, first⟩
    · rw [accepted] at nothing
      contradiction

/-- A result for somebody else comes in front of the one for the request. -/
def secondResult : Arrivals ℚ AssignmentResult 0 where
  nth
    | 0 => some ⟨1, { assignmentId := "assignment-2" }⟩
    | 1 => some ⟨2, { assignmentId := "assignment-1" }⟩
    | _ => none
  closed n absent := by
    match n, absent with
    | _ + 2, _ => rfl
  ordered n first second one other := by
    match n, one, other with
    | 0, one, other =>
      rw [← Option.some.inj one, ← Option.some.inj other]
      exact one_le_two
  finite := ⟨2, fun arrival there => by contradiction⟩

/-- The equivalence for the second of two results. -/
theorem ends_in_time_iff_second :
    EndsInTime 10 0 "assignment-1" secondResult ↔
      (∃ n arrival, secondResult.nth n = some arrival ∧
        arrival.item.assignmentId = "assignment-1" ∧ arrival.time ≤ 0 + 10) ∨
      secondResult.QuietUntil (0 + 10) :=
  ends_in_time_iff 10 0 (by decide) "assignment-1" secondResult

/-- A result for somebody else every second, without end. -/
def chatter : Arrivals ℚ AssignmentResult 0 where
  nth n := some ⟨n + 1, { assignmentId := "assignment-2" }⟩
  closed n absent := by contradiction
  ordered n first second one other := by
    rw [← Option.some.inj one, ← Option.some.inj other]
    have later : (n : ℚ) ≤ (n + 1 : Nat) := Nat.cast_le.mpr (Nat.le_succ n)
    exact add_le_add later (le_refl 1)
  finite := ⟨0, fun arrival there => by
    rw [← Option.some.inj there]
    exact Nat.cast_add_one_pos 0⟩

/-- With a timeout of ten seconds, the wait among results for somebody else never ends. -/
theorem wait_not_in_time :
    ¬ ∀ timeout opened : ℚ, 0 < timeout → ∀ (assignmentId : String)
      (results : Arrivals ℚ AssignmentResult opened),
        EndsInTime timeout opened assignmentId results := by
  intro inTime
  obtain ⟨calls, ending, ended, _⟩ := inTime 10 0 (by decide) "assignment-1" chatter
  have close (n : Nat) : ((n + 1 : Nat) : ℚ) + 1 ≤ ((n : ℚ) + 1) + 10 := by
    rw [Nat.cast_succ]
    linarith
  have other : "assignment-2" ≠ "assignment-1" := by decide
  have endless : awaitResult 10 "assignment-1" chatter calls 0 0 = none :=
    awaitResult_endless (fun _ => rfl) (fun _ => other) close (by norm_num) calls
  rw [endless] at ended
  contradiction

end BossWorker.Python
