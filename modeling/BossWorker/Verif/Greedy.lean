import BossWorker.Verif.Filter

/-!
# What the Python filter decides

The filter splits the chores by position: a chore is accepted exactly when its minutes fit
onto those accepted before it, the reported minutes are the exact sum, and no rejected chore
fits into what remains. With more minutes available no fewer are used, though other chores
may be chosen.
-/

namespace BossWorker.Verif

/-- A result that splits the chores by flags, greedily in their order. -/
structure GreedyDecision (available : Nat) (chores : List Chore) (flags : List Bool)
    (result : ChoreFilterResult) : Prop where
  /-- There is one flag for every chore. -/
  complete : flags.length = chores.length
  /-- The flagged chores are accepted, in order. -/
  accepted : result.acceptedChores = kept flags chores
  /-- The others are rejected, in order. -/
  rejected : result.rejectedChores = kept (flags.map not) chores
  /-- A chore is flagged when it fits onto the chores accepted before it. -/
  greedy : ∀ front chore back, chores = front ++ chore :: back →
    (flags[front.length]? = some true ↔
      ((kept flags front).map minutes).sum + minutes chore ≤ available)
  /-- The used minutes are those of the accepted chores. -/
  used : result.usedMinutes.toNat = (result.acceptedChores.map minutes).sum
  /-- They are available. -/
  within : result.usedMinutes.toNat ≤ available
  /-- The remaining minutes are all others. -/
  remaining : result.usedMinutes.toNat + result.remainingMinutes.toNat = available
  /-- No rejected chore fits into the remaining minutes. -/
  left_out : ∀ chore ∈ result.rejectedChores, result.remainingMinutes.toNat < minutes chore

section Loop

variable (available : UInt32) (chores : List Chore)

/-- Which chores the loop accepts. -/
def acceptance : List Bool := admitted available.toNat 0 (chores.map minutes)

/-- Every chore is decided on. -/
theorem length_acceptance : (acceptance available chores).length = chores.length := by
  rw [acceptance, length_admitted, List.length_map]

/-- The last chore is accepted when it fits onto the minutes packed. -/
theorem acceptance_concat (chore : Chore) : acceptance available (chores ++ [chore]) =
    acceptance available chores ++
      [decide (packedMinutes available chores + minutes chore ≤ available.toNat)] := by
  rw [acceptance, List.map_append, List.map_singleton, admitted_concat]
  rfl

/-- The minutes of the accepted chores are those packed. -/
theorem sum_minutes_acceptance :
    ((kept (acceptance available chores) chores).map minutes).sum =
      packedMinutes available chores := by
  rw [map_kept, acceptance, sum_kept_admitted, packedMinutes]

/-- The loop splits the chores by acceptance. -/
theorem python_lists :
    (Python.FilterLoop.start.run available.toNat chores).acceptedChores =
        kept (acceptance available chores) chores ∧
      (Python.FilterLoop.start.run available.toNat chores).rejectedChores =
        kept ((acceptance available chores).map not) chores := by
  induction chores using List.reverseRecOn with
  | nil => exact ⟨rfl, rfl⟩
  | append_singleton chores chore ih =>
    have same := length_acceptance available chores
    have also : ((acceptance available chores).map not).length = chores.length := by
      rw [List.length_map, same]
    have used := python_usedMinutes available chores
    rw [acceptance_concat, List.map_append, List.map_singleton, kept_append same,
      kept_append also, kept_singleton, kept_singleton, ← ih.1, ← ih.2, ← used,
      Python.FilterLoop.run_append, Python.FilterLoop.run_cons, Python.FilterLoop.run_nil]
    unfold Python.FilterLoop.step minutes
    by_cases room : (Python.FilterLoop.start.run available.toNat chores).usedMinutes +
        chore.estimatedMinutes.toNat ≤ available.toNat
    · simp [room]
    · simp [room]

/-- A chore between others is accepted when it fits onto those accepted before it. -/
theorem acceptance_at (front : List Chore) (chore : Chore) (back : List Chore) :
    (acceptance available (front ++ chore :: back))[front.length]? = some true ↔
      ((kept (acceptance available (front ++ chore :: back)) front).map minutes).sum +
        minutes chore ≤ available.toNat := by
  have same := length_acceptance available front
  have split : acceptance available (front ++ chore :: back) = acceptance available front ++
      admitted available.toNat (packedMinutes available front)
        (minutes chore :: back.map minutes) := by
    rw [acceptance, List.map_append, List.map_cons, admitted_append]
    rfl
  rw [split, kept_append_left same, sum_minutes_acceptance, ← same,
    List.getElem?_append_right (Nat.le_refl _), Nat.sub_self, admitted, List.getElem?_cons_zero,
    Option.some.injEq, decide_eq_true_eq]

/-- A result with the chores of the loop and its minutes is a greedy decision. -/
theorem greedyDecision_of_loop {result : ChoreFilterResult}
    (accepted : result.acceptedChores =
      (Python.FilterLoop.start.run available.toNat chores).acceptedChores)
    (rejected : result.rejectedChores =
      (Python.FilterLoop.start.run available.toNat chores).rejectedChores)
    (used : result.usedMinutes.toNat = packedMinutes available chores)
    (left : result.remainingMinutes.toNat = available.toNat - packedMinutes available chores) :
    GreedyDecision available.toNat chores (acceptance available chores) result where
  complete := length_acceptance available chores
  accepted := accepted.trans (python_lists available chores).1
  rejected := rejected.trans (python_lists available chores).2
  greedy front chore back split := by
    rw [split]
    exact acceptance_at available front chore back
  used := by rw [used, accepted, (python_lists available chores).1, sum_minutes_acceptance]
  within := used.trans_le (packed_le _ _)
  remaining := by
    rw [used, left]
    exact Nat.add_sub_cancel' (packed_le _ _)
  left_out chore member := by
    rw [rejected, (python_lists available chores).2] at member
    have listed : minutes chore ∈ kept ((acceptance available chores).map not)
        (chores.map minutes) := by
      rw [← map_kept]
      exact List.mem_map_of_mem member
    have tooLong := lt_packed_add_of_not_admitted available.toNat (chores.map minutes) _ listed
    have booked := packed_le available.toNat (chores.map minutes)
    rw [left, packedMinutes]
    omega

end Loop

/-- For every request the Python filter returns, with a greedy decision: accepted and
rejected chores split the list by position, each chore is accepted exactly when its minutes
and those accepted before it are available, and no rejected chore fits into the rest. -/
theorem process_chore_filter_request_greedy (request : ChoreFilterRequest) :
    ∃ result flags, Python.processChoreFilterRequest request = .ok result ∧
      GreedyDecision (request.person.getD {}).availableMinutes.toNat
        (request.chores.getD {}).chores flags result := by
  obtain ⟨result, returned, accepted, rejected, used, left⟩ := python_returns request
  exact ⟨result, _, returned, greedyDecision_of_loop _ _ accepted rejected used left⟩

/-- Where no fewer minutes are available for the same chores, no fewer are used. -/
theorem used_minutes_le {less more : ChoreFilterRequest}
    (chores : (less.chores.getD {}).chores = (more.chores.getD {}).chores)
    (ordered : (less.person.getD {}).availableMinutes ≤ (more.person.getD {}).availableMinutes)
    {small large : ChoreFilterResult} (first : Python.processChoreFilterRequest less = .ok small)
    (second : Python.processChoreFilterRequest more = .ok large) :
    small.usedMinutes ≤ large.usedMinutes := by
  obtain ⟨answer, returned, _, _, used, _⟩ := python_returns less
  obtain ⟨other, also, _, _, booked, _⟩ := python_returns more
  have here : answer = small := Except.ok.inj (returned.symm.trans first)
  have there : other = large := Except.ok.inj (also.symm.trans second)
  rw [← here, ← there, UInt32.le_iff_toNat_le, used, booked, packedMinutes, packedMinutes, chores]
  exact packed_mono (UInt32.le_iff_toNat_le.mp ordered) _

/-- One long chore ahead of two short ones: sixty minutes are enough for it, fifty are not. -/
def longFirst (availableMinutes : UInt32) : ChoreFilterRequest :=
  fullRequest "weekly-amy"
    { choresId := "weekly"
      chores := [{ choreId := "paint", estimatedMinutes := 60 },
        { choreId := "sweep", estimatedMinutes := 20 },
        { choreId := "dust", estimatedMinutes := 30 }] }
    { personId := "amy", availableMinutes := availableMinutes } none

/-- With the same chores and no fewer minutes available, the Python filter uses no fewer
minutes; yet chores it accepts with fewer minutes may be rejected with more. -/
theorem used_minutes_monotone :
    (∀ less more : ChoreFilterRequest,
      (less.chores.getD {}).chores = (more.chores.getD {}).chores →
      (less.person.getD {}).availableMinutes ≤ (more.person.getD {}).availableMinutes →
      ∃ small large, Python.processChoreFilterRequest less = .ok small ∧
        Python.processChoreFilterRequest more = .ok large ∧
        small.usedMinutes ≤ large.usedMinutes) ∧
    ∃ less more small large, (less.chores.getD {}).chores = (more.chores.getD {}).chores ∧
      (less.person.getD {}).availableMinutes ≤ (more.person.getD {}).availableMinutes ∧
      Python.processChoreFilterRequest less = .ok small ∧
      Python.processChoreFilterRequest more = .ok large ∧
      ¬ small.acceptedChores ⊆ large.acceptedChores := by
  constructor
  · intro less more chores ordered
    obtain ⟨small, first, _⟩ := python_returns less
    obtain ⟨large, second, _⟩ := python_returns more
    exact ⟨small, large, first, second, used_minutes_le chores ordered first second⟩
  · refine ⟨longFirst 50, longFirst 60, ?_⟩
    obtain ⟨small, first, accepted, _⟩ := python_returns (longFirst 50)
    obtain ⟨large, second, also, _⟩ := python_returns (longFirst 60)
    refine ⟨small, large, rfl, by decide, first, second, ?_⟩
    rw [accepted, also]
    decide

/-- The filter uses fifty minutes of fifty and sixty of sixty. -/
theorem used_minutes_monotone_longFirst :
    ∃ small large, Python.processChoreFilterRequest (longFirst 50) = .ok small ∧
      Python.processChoreFilterRequest (longFirst 60) = .ok large ∧
      small.usedMinutes ≤ large.usedMinutes :=
  used_minutes_monotone.1 (longFirst 50) (longFirst 60) rfl (by decide)

end BossWorker.Verif
