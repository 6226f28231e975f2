import BossWorker.Base.Packing
import BossWorker.Python.Processor
import BossWorker.Rust.Processor
import Mathlib.Algebra.Group.Nat.Defs

/-!
# The chore filters against each other

The Python loop packs minutes exactly. The Rust loop adds machine words, so it follows the
Python loop as long as no sum reaches 2^32. At the first chore where one does, Python
rejects the chore and Rust, which sees a sum smaller than what is already used, accepts it;
what Python still accepts later is too short to be that chore.
-/

namespace BossWorker.Verif

/-- Minutes of a chore as a number. -/
def minutes (chore : Chore) : Nat := chore.estimatedMinutes.toNat

/-- Minutes that an exact greedy packing takes from a list of chores. -/
def packedMinutes (available : UInt32) (chores : List Chore) : Nat :=
  packed available.toNat (chores.map minutes)

/-- No chore's minutes, added exactly to those packed before it, reach 2^32. -/
def NeverWraps (available : UInt32) (chores : List Chore) : Prop :=
  ∀ front chore back, chores = front ++ chore :: back →
    packedMinutes available front + minutes chore < 2 ^ 32

/-- Two results with the same chores taken and left and the same minutes. -/
structure SameDecision (left right : ChoreFilterResult) : Prop where
  accepted : left.acceptedChores = right.acceptedChores
  rejected : left.rejectedChores = right.rejectedChores
  used : left.usedMinutes = right.usedMinutes
  remaining : left.remainingMinutes = right.remainingMinutes

/-- Loops with the same variables. -/
structure SameLoop (rust : Rust.FilterLoop) (python : Python.FilterLoop) : Prop where
  used : rust.usedMinutes.toNat = python.usedMinutes
  accepted : rust.acceptedChores = python.acceptedChores
  rejected : rust.rejectedChores = python.rejectedChores

/-- Chores that never wrap have a front part that never wraps. -/
theorem NeverWraps.front {available : UInt32} {front back : List Chore}
    (small : NeverWraps available (front ++ back)) : NeverWraps available front := by
  intro before chore after split
  exact small before chore (after ++ back) (by rw [split, List.append_assoc, List.cons_append])

/-- Where the chores wrap, there is a first chore that does. -/
theorem exists_first_wrap {available : UInt32} {chores : List Chore}
    (wraps : ¬ NeverWraps available chores) :
    ∃ front chore back, chores = front ++ chore :: back ∧ NeverWraps available front ∧
      2 ^ 32 ≤ packedMinutes available front + minutes chore := by
  induction chores using List.reverseRecOn with
  | nil =>
    refine absurd (fun front chore back split => ?_) wraps
    exact absurd split.symm (List.append_ne_nil_of_right_ne_nil _ (List.cons_ne_nil _ _))
  | append_singleton chores last ih =>
    by_cases small : NeverWraps available chores
    · by_cases sum : packedMinutes available chores + minutes last < 2 ^ 32
      · refine absurd (fun front chore back split => ?_) wraps
        rcases List.eq_nil_or_concat back with rfl | ⟨back, other, rfl⟩
        · obtain ⟨rfl, same⟩ := List.append_inj' split rfl
          exact List.singleton_inj.mp same ▸ sum
        · rw [List.concat_eq_append, ← List.cons_append, ← List.append_assoc] at split
          exact small front chore back (List.append_inj' split rfl).1
      · exact ⟨chores, last, [], rfl, small, not_lt.mp sum⟩
    · obtain ⟨front, chore, back, split, quiet, sum⟩ := ih small
      exact ⟨front, chore, back ++ [last], by rw [split, List.append_assoc, List.cons_append],
        quiet, sum⟩

section Loops

variable (available : UInt32) (chores : List Chore)

/-- The last chore is packed onto the others. -/
theorem packedMinutes_concat (chore : Chore) : packedMinutes available (chores ++ [chore]) =
    pack available.toNat (packedMinutes available chores) (minutes chore) := by
  rw [packedMinutes, List.map_append, List.map_singleton, packed_concat, packedMinutes]

/-- The Python loop packs exactly. -/
theorem python_usedMinutes :
    (Python.FilterLoop.start.run available.toNat chores).usedMinutes =
      packedMinutes available chores := by
  induction chores using List.reverseRecOn with
  | nil => rfl
  | append_singleton chores chore ih =>
    rw [packedMinutes_concat, ← ih, Python.FilterLoop.run_append, Python.FilterLoop.run_cons,
      Python.FilterLoop.run_nil]
    unfold Python.FilterLoop.step pack minutes
    by_cases room : (Python.FilterLoop.start.run available.toNat chores).usedMinutes +
        chore.estimatedMinutes.toNat ≤ available.toNat
    · rw [if_pos room, if_pos room]
    · rw [if_neg room, if_neg room]

/-- What the Python loop accepts later fits onto what it has used. -/
theorem python_accepted (loop : Python.FilterLoop) :
    ∃ more, (loop.run available.toNat chores).acceptedChores = loop.acceptedChores ++ more ∧
      ∀ chore ∈ more, loop.usedMinutes + minutes chore ≤ available.toNat := by
  induction chores generalizing loop with
  | nil => exact ⟨[], (List.append_nil _).symm, nofun⟩
  | cons chore chores ih =>
    rw [Python.FilterLoop.run_cons]
    obtain ⟨more, accepted, fit⟩ := ih (loop.step available.toNat chore)
    by_cases room : loop.usedMinutes + chore.estimatedMinutes.toNat ≤ available.toNat
    · simp only [Python.FilterLoop.step, room, if_true] at accepted fit
      refine ⟨chore :: more, ?_, ?_⟩
      · simp only [Python.FilterLoop.step, room, if_true, accepted, List.append_assoc,
          List.singleton_append]
      · intro other member
        rcases List.mem_cons.mp member with rfl | later
        · exact room
        · have bound := fit other later
          omega
    · simp only [Python.FilterLoop.step, room, if_false] at accepted fit
      refine ⟨more, ?_, fit⟩
      simp only [Python.FilterLoop.step, room, if_false, accepted]

/-- The Rust loop never takes an accepted chore back. -/
theorem rust_accepted (loop : Rust.FilterLoop) :
    ∃ more, (loop.run available chores).acceptedChores = loop.acceptedChores ++ more := by
  induction chores generalizing loop with
  | nil => exact ⟨[], (List.append_nil _).symm⟩
  | cons chore chores ih =>
    obtain ⟨more, accepted⟩ := ih (loop.step available chore)
    rw [Rust.FilterLoop.run_cons, accepted, Rust.FilterLoop.step]
    split
    · exact ⟨chore :: more, by rw [List.append_assoc, List.singleton_append]⟩
    · exact ⟨more, rfl⟩

end Loops

/-- A sum that stays below 2^32 keeps the loops together. -/
theorem SameLoop.step {rust : Rust.FilterLoop} {python : Python.FilterLoop}
    (same : SameLoop rust python) (available : UInt32) {chore : Chore}
    (small : python.usedMinutes + minutes chore < 2 ^ 32) :
    SameLoop (rust.step available chore) (python.step available.toNat chore) := by
  have sum : (rust.usedMinutes + chore.estimatedMinutes).toNat =
      python.usedMinutes + chore.estimatedMinutes.toNat := by
    rw [UInt32.toNat_add, same.used]
    exact Nat.mod_eq_of_lt small
  have test : rust.usedMinutes + chore.estimatedMinutes ≤ available ↔
      python.usedMinutes + chore.estimatedMinutes.toNat ≤ available.toNat := by
    rw [UInt32.le_iff_toNat_le, sum]
  by_cases room : python.usedMinutes + chore.estimatedMinutes.toNat ≤ available.toNat
  · rw [Rust.FilterLoop.step, Python.FilterLoop.step, if_pos (test.mpr room), if_pos room]
    exact ⟨sum, congrArg (· ++ [chore]) same.accepted, same.rejected⟩
  · rw [Rust.FilterLoop.step, Python.FilterLoop.step, if_neg (mt test.mp room), if_neg room]
    exact ⟨same.used, same.accepted, congrArg (· ++ [chore]) same.rejected⟩

/-- Chores that never wrap keep the loops together. -/
theorem run_sameLoop {available : UInt32} {chores : List Chore}
    (small : NeverWraps available chores) :
    SameLoop (Rust.FilterLoop.start.run available chores)
      (Python.FilterLoop.start.run available.toNat chores) := by
  induction chores using List.reverseRecOn with
  | nil => exact ⟨rfl, rfl, rfl⟩
  | append_singleton chores chore ih =>
    have last := small chores chore [] rfl
    rw [← python_usedMinutes] at last
    have next := (ih small.front).step available last
    simpa only [Rust.FilterLoop.run_append, Rust.FilterLoop.run_cons, Rust.FilterLoop.run_nil,
      Python.FilterLoop.run_append, Python.FilterLoop.run_cons, Python.FilterLoop.run_nil]
      using next

/-- At a sum that reaches 2^32 the Rust loop accepts the chore. -/
theorem rust_step_of_wrap {loop : Rust.FilterLoop} {available : UInt32} {chore : Chore}
    (booked : loop.usedMinutes ≤ available)
    (wraps : 2 ^ 32 ≤ loop.usedMinutes.toNat + minutes chore) :
    (loop.step available chore).acceptedChores = loop.acceptedChores ++ [chore] := by
  have bound := chore.estimatedMinutes.toNat_lt
  have room : loop.usedMinutes + chore.estimatedMinutes ≤ available := by
    rw [UInt32.le_iff_toNat_le] at booked ⊢
    rw [UInt32.toNat_add]
    unfold minutes at wraps
    have wrapped : (loop.usedMinutes.toNat + chore.estimatedMinutes.toNat) % 2 ^ 32 =
        loop.usedMinutes.toNat + chore.estimatedMinutes.toNat - 2 ^ 32 := by
      have used := loop.usedMinutes.toNat_lt
      omega
    omega
  rw [Rust.FilterLoop.step, if_pos room]

/-- Chores that wrap somewhere are accepted differently. -/
theorem accepted_ne_of_wraps {available : UInt32} {chores : List Chore}
    (wraps : ¬ NeverWraps available chores) :
    (Rust.FilterLoop.start.run available chores).acceptedChores ≠
      (Python.FilterLoop.start.run available.toNat chores).acceptedChores := by
  obtain ⟨front, chore, back, rfl, small, sum⟩ := exists_first_wrap wraps
  have together := run_sameLoop small
  have used := python_usedMinutes available front
  have booked : (Rust.FilterLoop.start.run available front).usedMinutes ≤ available := by
    rw [UInt32.le_iff_toNat_le, together.used, used]
    exact packed_le _ _
  have taken := rust_step_of_wrap booked (by rw [together.used, used]; exact sum)
  obtain ⟨rustMore, rustAccepted⟩ := rust_accepted available back
    ((Rust.FilterLoop.start.run available front).step available chore)
  obtain ⟨pythonMore, pythonAccepted, fit⟩ := python_accepted available (chore :: back)
    (Python.FilterLoop.start.run available.toNat front)
  intro same
  rw [Rust.FilterLoop.run_append, Rust.FilterLoop.run_cons, rustAccepted, taken,
    together.accepted, Python.FilterLoop.run_append, pythonAccepted, List.append_assoc] at same
  -- the wrapped chore would have to be one that Python accepts later
  have later : chore ∈ pythonMore := by
    rw [← List.append_cancel_left same]
    exact List.mem_cons_self
  have room := fit chore later
  rw [used] at room
  have bound := available.toNat_lt
  omega

/-- A request that carries a person and chores. -/
def fullRequest (filterId : String) (chores : Chores) (person : PersonAvailability)
    (context : Option RequestContext) : ChoreFilterRequest where
  filterId := filterId
  chores := some chores
  person := some person
  context := context

/-- The three functions answer a request, and with the same decision. -/
def FiltersAgree (request : ChoreFilterRequest) (workerName : String) : Prop :=
  ∃ rust python worker, Rust.processChoreFilterRequest request = some rust ∧
    Python.processChoreFilterRequest request = .ok python ∧
    Python.Worker.processChoreFilterRequest request workerName = .ok worker ∧
    SameDecision rust python ∧ SameDecision rust worker

/-- What Python answers: its minutes are in range, so no field raises. -/
theorem python_returns (request : ChoreFilterRequest) :
    let available := (request.person.getD {}).availableMinutes
    let chores := (request.chores.getD {}).chores
    ∃ python, Python.processChoreFilterRequest request = .ok python ∧
      python.acceptedChores =
        (Python.FilterLoop.start.run available.toNat chores).acceptedChores ∧
      python.rejectedChores =
        (Python.FilterLoop.start.run available.toNat chores).rejectedChores ∧
      python.usedMinutes.toNat = packedMinutes available chores ∧
      python.remainingMinutes.toNat = available.toNat - packedMinutes available chores := by
  intro available chores
  have used := python_usedMinutes available chores
  have booked : packedMinutes available chores ≤ available.toNat := packed_le _ _
  have bound := available.toNat_lt
  have left : max ((available.toNat : ℤ) - (packedMinutes available chores : ℤ)) 0 =
      ((available.toNat - packedMinutes available chores : Nat) : ℤ) := by
    omega
  have fits := Nat.lt_of_le_of_lt booked bound
  have rest := Nat.lt_of_le_of_lt (Nat.sub_le _ (packedMinutes available chores)) bound
  simp only [Python.processChoreFilterRequest]
  rw [used, left, Python.uint32_natCast fits, Python.uint32_natCast rest]
  exact ⟨_, rfl, rfl, rfl, UInt32.toNat_ofNat_of_lt' fits, UInt32.toNat_ofNat_of_lt' rest⟩

section Request

variable (filterId : String) (chores : Chores) (person : PersonAvailability)
  (context : Option RequestContext)

/-- What Python answers to a request with a person and chores. -/
theorem python_answers :
    ∃ python, Python.processChoreFilterRequest (fullRequest filterId chores person context) =
        .ok python ∧
      python.acceptedChores = (Python.FilterLoop.start.run person.availableMinutes.toNat
        chores.chores).acceptedChores ∧
      python.rejectedChores = (Python.FilterLoop.start.run person.availableMinutes.toNat
        chores.chores).rejectedChores ∧
      python.usedMinutes.toNat = packedMinutes person.availableMinutes chores.chores ∧
      python.remainingMinutes.toNat = person.availableMinutes.toNat -
        packedMinutes person.availableMinutes chores.chores :=
  python_returns (fullRequest filterId chores person context)

/-- The Rust filter and the two Python filters come to the same decision on a request with a
person and chores exactly when no chore's minutes, added to those packed before it, reach
2^32. -/
theorem filters_agree_iff (workerName : String) :
    FiltersAgree (fullRequest filterId chores person context) workerName ↔
      NeverWraps person.availableMinutes chores.chores := by
  obtain ⟨python, answered, accepted, rejected, used, left⟩ :=
    python_answers filterId chores person context
  constructor
  · rintro ⟨rust, other, worker, done, same, _, decision, _⟩
    by_contra wraps
    obtain rfl : python = other := Except.ok.inj (answered.symm.trans same)
    have differ := accepted_ne_of_wraps wraps
    have chosen := decision.accepted
    rw [accepted] at chosen
    cases done
    exact differ chosen
  · intro small
    have together := run_sameLoop small
    have exact_used : (Rust.FilterLoop.start.run person.availableMinutes
        chores.chores).usedMinutes.toNat =
        packedMinutes person.availableMinutes chores.chores :=
      together.used.trans (python_usedMinutes _ _)
    have booked : (Rust.FilterLoop.start.run person.availableMinutes
        chores.chores).usedMinutes ≤ person.availableMinutes := by
      rw [UInt32.le_iff_toNat_le, exact_used]
      exact packed_le _ _
    refine ⟨_, python, python, rfl, answered, answered, ?_⟩
    rw [and_self]
    refine ⟨?_, ?_, ?_, ?_⟩
    · exact together.accepted.trans accepted.symm
    · exact together.rejected.trans rejected.symm
    · exact UInt32.toNat_inj.mp (exact_used.trans used.symm)
    · apply UInt32.toNat_inj.mp
      rw [left, ← exact_used]
      simp only [Rust.saturatingSub, booked, if_true]
      exact UInt32.toNat_sub_of_le _ _ booked

end Request

/-- A request on which the second chore makes the sum of machine words wrap. -/
def overbooking : ChoreFilterRequest :=
  fullRequest "weekly-amy"
    { choresId := "weekly"
      chores := [{ choreId := "sweep", estimatedMinutes := 50 },
        { choreId := "paint", estimatedMinutes := 4294967286 }] }
    { personId := "amy", availableMinutes := 100 } none

/-- Fifty minutes are used when a chore of 2^32 - 10 minutes comes: Rust sees a sum of forty
and books the chore. -/
theorem filters_diverge : ¬ FiltersAgree overbooking "worker-1" := by
  rintro ⟨rust, python, _, rustDone, pythonDone, _, decision, _⟩
  have rustUsed : (Rust.processChoreFilterRequest overbooking).map
      ChoreFilterResult.usedMinutes = some 40 := by decide
  have pythonUsed : (Python.processChoreFilterRequest overbooking).map
      ChoreFilterResult.usedMinutes = .ok 50 := by decide
  rw [rustDone, Option.map_some, Option.some.injEq, decision.used] at rustUsed
  rw [pythonDone] at pythonUsed
  have booked : python.usedMinutes = 50 := Except.ok.inj pythonUsed
  exact absurd (rustUsed.symm.trans booked) (by decide)

end BossWorker.Verif
