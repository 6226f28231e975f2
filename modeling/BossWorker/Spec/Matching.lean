import BossWorker.Base.Matching
import BossWorker.Proto.Assignment

/-!
# Matchings of an assignment input

What the solvers are for, stated on positions: an edge is a worker and a job whose ids have
a cost, a matching is a list of edges that uses no position twice, and the value of a
matching counts the cost of each edge and a bonus for making it at all. A permutation or an
injection makes a matching of the edges it meets.
-/

namespace BossWorker.Spec

/-- Ids and cost of a worker position and a job position, if there is a cost for them. -/
def edge (input : AssignmentInput) (pair : Nat × Nat) : Option (String × String × UInt32) := do
  let worker ← input.workers[pair.1]?
  let job ← input.jobs[pair.2]?
  let cost ← input.costs.get? (worker, job)
  return (worker, job, cost)

/-- What each edge of a matching counts besides its cost. -/
def bonus : Nat := 1000000000

/-- What a pair adds to the value of a matching. -/
def gain (input : AssignmentInput) (worker job : Nat) : Nat :=
  match edge input (worker, job) with
  | some found => found.2.2.toNat + bonus
  | none => 0

/-- A list of edges in which no worker and no job occurs twice. -/
structure IsMatching (input : AssignmentInput) (pairs : List (Nat × Nat)) : Prop where
  edges : ∀ pair ∈ pairs, (edge input pair).isSome
  workers : (pairs.map Prod.fst).Nodup
  jobs : (pairs.map Prod.snd).Nodup

/-- The sum of cost and bonus over a list of pairs. -/
def value (input : AssignmentInput) (pairs : List (Nat × Nat)) : Nat :=
  (pairs.map fun pair => gain input pair.1 pair.2).sum

/-- What a pair adds to the total cost. -/
def cost (input : AssignmentInput) (pair : Nat × Nat) : Nat :=
  (edge input pair).elim 0 fun found => found.2.2.toNat

/-- The exact sum of the costs of a list of pairs. -/
def total (input : AssignmentInput) (pairs : List (Nat × Nat)) : Nat :=
  (pairs.map (cost input)).sum

/-- A matching that gives every worker a job. -/
structure IsComplete (input : AssignmentInput) (pairs : List (Nat × Nat)) : Prop
    extends IsMatching input pairs where
  all : ∀ worker < input.workers.length, worker ∈ pairs.map Prod.fst

variable {input : AssignmentInput}

/-- An edge joins positions in range. -/
theorem lt_of_edge {pair : Nat × Nat} (present : (edge input pair).isSome) :
    pair.1 < input.workers.length ∧ pair.2 < input.jobs.length := by
  obtain ⟨found, same⟩ := Option.isSome_iff_exists.mp present
  simp only [edge, Option.bind_eq_bind, Option.bind_eq_some_iff] at same
  obtain ⟨worker, listed, job, offered, _⟩ := same
  exact ⟨(List.getElem?_eq_some_iff.mp listed).1, (List.getElem?_eq_some_iff.mp offered).1⟩

/-- An edge carries the ids at its positions. -/
theorem ids_of_edge {pair : Nat × Nat} {found : String × String × UInt32}
    (present : edge input pair = some found) :
    found.1 = input.workers.getD pair.1 "" ∧ found.2.1 = input.jobs.getD pair.2 "" := by
  simp only [edge, Option.bind_eq_bind, Option.bind_eq_some_iff] at present
  obtain ⟨worker, listed, job, offered, _, _, same⟩ := present
  cases same
  simp only [List.getD_eq_getElem?_getD, listed, offered, Option.getD_some, and_self]

/-- Only an edge gains anything. -/
theorem gain_pos_iff (worker job : Nat) :
    0 < gain input worker job ↔ (edge input (worker, job)).isSome := by
  unfold gain
  cases edge input (worker, job) with
  | none => exact iff_of_false (Nat.lt_irrefl 0) (by simp)
  | some found =>
    have positive : 0 < bonus := by decide
    exact iff_of_true (Nat.add_pos_right _ positive) rfl

/-- An edge gains its cost and the bonus. -/
theorem gain_of_edge {pair : Nat × Nat} (present : (edge input pair).isSome) :
    gain input pair.1 pair.2 = cost input pair + bonus := by
  obtain ⟨found, same⟩ := Option.isSome_iff_exists.mp present
  rw [gain, cost, same]
  rfl

/-- The value of a list of edges is its total and a bonus for each. -/
theorem value_eq_total {pairs : List (Nat × Nat)}
    (edges : ∀ pair ∈ pairs, (edge input pair).isSome) :
    value input pairs = total input pairs + bonus * pairs.length := by
  induction pairs with
  | nil => rfl
  | cons pair pairs ih =>
    have rest := ih fun later member => edges later (List.mem_cons_of_mem pair member)
    have head := gain_of_edge (edges pair List.mem_cons_self)
    rw [value, total] at rest ⊢
    rw [List.map_cons, List.sum_cons, List.map_cons, List.sum_cons, rest, head,
      List.length_cons, Nat.mul_succ]
    omega

/-- The positions of a matching fit into any square that holds all workers and jobs. -/
theorem IsMatching.bounded {pairs : List (Nat × Nat)} (matching : IsMatching input pairs)
    {size : Nat} (workers : input.workers.length ≤ size) (jobs : input.jobs.length ≤ size) :
    ∀ pair ∈ pairs, pair.1 < size ∧ pair.2 < size := by
  intro pair member
  have inside := lt_of_edge (matching.edges pair member)
  omega

/-- A matching names no worker id more often than the input does. -/
theorem IsMatching.workers_subperm {pairs : List (Nat × Nat)}
    (matching : IsMatching input pairs) :
    (pairs.map fun pair => input.workers.getD pair.1 "").Subperm input.workers := by
  have inside : ∀ worker ∈ pairs.map Prod.fst, worker < input.workers.length := by
    intro worker member
    obtain ⟨pair, listed, rfl⟩ := List.mem_map.mp member
    exact (lt_of_edge (matching.edges pair listed)).1
  have named := map_getD_subperm input.workers "" matching.workers inside
  rwa [List.map_map] at named

/-- A matching names no job id more often than the input does. -/
theorem IsMatching.jobs_subperm {pairs : List (Nat × Nat)}
    (matching : IsMatching input pairs) :
    (pairs.map fun pair => input.jobs.getD pair.2 "").Subperm input.jobs := by
  have inside : ∀ job ∈ pairs.map Prod.snd, job < input.jobs.length := by
    intro job member
    obtain ⟨pair, listed, rfl⟩ := List.mem_map.mp member
    exact (lt_of_edge (matching.edges pair listed)).2
  have named := map_getD_subperm input.jobs "" matching.jobs inside
  rwa [List.map_map] at named

/-- Without workers a matching has no pairs. -/
theorem IsMatching.eq_nil_of_idle {pairs : List (Nat × Nat)}
    (matching : IsMatching input pairs) (idle : input.workers = []) : pairs = [] := by
  rw [List.eq_nil_iff_forall_not_mem]
  intro pair member
  have inside := (lt_of_edge (matching.edges pair member)).1
  rw [idle] at inside
  exact Nat.not_lt_zero _ inside

/-- A matching is worth no more than some permutation, even with one more worker's gain. -/
theorem IsMatching.exists_perm {pairs : List (Nat × Nat)} (matching : IsMatching input pairs)
    {size : Nat} (workers : input.workers.length ≤ size) (jobs : input.jobs.length ≤ size) :
    ∃ σ : Equiv.Perm (Fin size), value input pairs ≤ ∑ i : Fin size, gain input i (σ i) ∧
      ∀ i : Fin size, i.val ∉ pairs.map Prod.fst →
        value input pairs + gain input i (σ i) ≤ ∑ i : Fin size, gain input i (σ i) := by
  have bounded := matching.bounded workers jobs
  obtain ⟨σ, extending⟩ := exists_perm_extending matching.workers matching.jobs bounded
  have along : ∀ pair ∈ pairs, ∃ inside : pair.1 < size,
      (σ ⟨pair.1, inside⟩ : Nat) = pair.2 :=
    fun pair member => ⟨(bounded pair member).1, extending pair member _⟩
  refine ⟨σ, sum_pairs_le_sum_perm (gain input) matching.workers σ along, fun i outside => ?_⟩
  have distinct : (((i.val, (σ i).val) :: pairs).map Prod.fst).Nodup := by
    rw [List.map_cons]
    exact List.nodup_cons.mpr ⟨outside, matching.workers⟩
  have both : ∀ pair ∈ (i.val, (σ i).val) :: pairs, ∃ inside : pair.1 < size,
      (σ ⟨pair.1, inside⟩ : Nat) = pair.2 := by
    intro pair member
    rcases List.mem_cons.mp member with rfl | later
    · exact ⟨i.isLt, rfl⟩
    · exact along pair later
  have more := sum_pairs_le_sum_perm (gain input) distinct σ both
  rw [List.map_cons, List.sum_cons, Nat.add_comm] at more
  exact more

section Made

variable {size : Nat}

/-- The edges that a map of positions meets, in the order of the workers. -/
def made (input : AssignmentInput) (image : Fin size → Nat) : List (Nat × Nat) :=
  (List.ofFn fun i => (i.val, image i)).filter fun pair => (edge input pair).isSome

/-- A worker is served when the worker's image makes an edge. -/
theorem mem_map_fst_made (image : Fin size → Nat) (i : Fin size) :
    i.val ∈ (made input image).map Prod.fst ↔ (edge input (i.val, image i)).isSome := by
  simp only [made, List.mem_map, List.mem_filter, List.mem_ofFn]
  constructor
  · rintro ⟨_, ⟨⟨j, rfl⟩, present⟩, same⟩
    rwa [Fin.ext same] at present
  · exact fun present => ⟨(i.val, image i), ⟨⟨i, rfl⟩, present⟩, rfl⟩

/-- The edges come in the order of the workers. -/
theorem made_ordered (image : Fin size → Nat) :
    ((made input image).map Prod.fst).Pairwise (· < ·) := by
  have all : ((List.ofFn fun i => (i.val, image i)).map Prod.fst).Pairwise (· < ·) := by
    rw [List.map_ofFn, List.pairwise_ofFn]
    exact fun _ _ before => before
  exact all.sublist (List.filter_sublist.map Prod.fst)

/-- The edges that an injection meets are a matching. -/
theorem made_isMatching {image : Fin size → Nat} (injective : Function.Injective image) :
    IsMatching input (made input image) where
  edges pair member := (List.mem_filter.mp member).2
  workers := (made_ordered image).imp Nat.ne_of_lt
  jobs := by
    have all : ((List.ofFn fun i => (i.val, image i)).map Prod.snd).Nodup := by
      rw [List.map_ofFn]
      exact List.nodup_ofFn.mpr injective
    exact all.sublist (List.filter_sublist.map Prod.snd)

/-- The value of the edges met is the sum of all gains. -/
theorem value_made (image : Fin size → Nat) :
    value input (made input image) = ∑ i : Fin size, gain input i (image i) := by
  have kept (pairs : List (Nat × Nat)) :
      value input (pairs.filter fun pair => (edge input pair).isSome) = value input pairs := by
    induction pairs with
    | nil => rfl
    | cons pair pairs ih =>
      by_cases present : (edge input pair).isSome
      · simp only [List.filter_cons, present, if_true]
        exact congrArg (gain input pair.1 pair.2 + ·) ih
      · have nothing : gain input pair.1 pair.2 = 0 :=
          Nat.eq_zero_of_not_pos (mt (gain_pos_iff pair.1 pair.2).mp present)
        simp only [List.filter_cons, present, Bool.false_eq_true, if_false, ih]
        rw [value, value, List.map_cons, List.sum_cons, nothing, Nat.zero_add]
  rw [made, kept, value, List.map_ofFn, List.sum_ofFn]
  rfl

/-- Where every image makes an edge, all pairs are met. -/
theorem made_of_edges {image : Fin size → Nat}
    (edges : ∀ i : Fin size, (edge input (i.val, image i)).isSome) :
    made input image = List.ofFn fun i => (i.val, image i) := by
  rw [made, List.filter_eq_self, List.forall_mem_ofFn_iff]
  exact edges

/-- An injection that gives every worker an edge is a complete matching. -/
theorem isComplete_made {image : Fin input.workers.length → Nat}
    (injective : Function.Injective image)
    (edges : ∀ i : Fin input.workers.length, (edge input (i.val, image i)).isSome) :
    IsComplete input (made input image) where
  toIsMatching := made_isMatching injective
  all worker inside := (mem_map_fst_made _ ⟨worker, inside⟩).mpr (edges ⟨worker, inside⟩)

end Made

/-- Positions past the last worker gain nothing. -/
theorem sum_gain_castLE {size : Nat} (fits : input.workers.length ≤ size)
    (image : Fin size → Nat) :
    ∑ i : Fin size, gain input i (image i) =
      ∑ i : Fin input.workers.length, gain input i (image (Fin.castLE fits i)) := by
  have along : ∑ i : Fin input.workers.length, gain input i (image (Fin.castLE fits i)) =
      ∑ i ∈ Finset.univ.map (Fin.castLEEmb fits), gain input i (image i) := by
    rw [Finset.sum_map]
    rfl
  rw [along]
  symm
  apply Finset.sum_subset (Finset.subset_univ _)
  intro i _ beyond
  by_contra gained
  have present := (gain_pos_iff i.val (image i)).mp (Nat.pos_of_ne_zero gained)
  have inside : i.val < input.workers.length := (lt_of_edge present).1
  exact beyond (Finset.mem_map.mpr ⟨⟨i.val, inside⟩, Finset.mem_univ _, rfl⟩)

section Complete

variable {pairs other : List (Nat × Nat)}

/-- The workers of a complete matching are all positions. -/
theorem IsComplete.workers_perm (complete : IsComplete input pairs) :
    (pairs.map Prod.fst).Perm (List.range input.workers.length) := by
  rw [List.perm_ext_iff_of_nodup complete.workers List.nodup_range]
  intro worker
  rw [List.mem_range]
  constructor
  · intro member
    obtain ⟨pair, inside, rfl⟩ := List.mem_map.mp member
    exact (lt_of_edge (complete.edges pair inside)).1
  · exact complete.all worker

/-- A complete matching has an edge for every worker. -/
theorem IsComplete.length_eq (complete : IsComplete input pairs) :
    pairs.length = input.workers.length := by
  have size := complete.workers_perm.length_eq
  rwa [List.length_map, List.length_range] at size

/-- Complete matchings compare by value as they compare by total. -/
theorem IsComplete.value_le_iff (complete : IsComplete input pairs)
    (rival : IsComplete input other) :
    value input other ≤ value input pairs ↔ total input other ≤ total input pairs := by
  rw [value_eq_total complete.edges, value_eq_total rival.edges, complete.length_eq,
    rival.length_eq]
  omega

/-- Without workers the empty list is the only complete matching. -/
theorem IsComplete.eq_nil (complete : IsComplete input pairs) (idle : input.workers = []) :
    pairs = [] := by
  have size := complete.length_eq
  rw [idle] at size
  exact List.eq_nil_of_length_eq_zero size

end Complete

/-- A complete matching lists every worker with the worker's job. -/
theorem IsComplete.exists_listing {pairs : List (Nat × Nat)}
    (complete : IsComplete input pairs) :
    ∃ f : Fin input.workers.length ↪ Fin input.jobs.length,
      (List.ofFn fun i => (i.val, (f i).val)).Perm pairs := by
  have job (i : Fin input.workers.length) : ∃ j : Fin input.jobs.length,
      (i.val, j.val) ∈ pairs := by
    obtain ⟨⟨worker, job⟩, member, same⟩ := List.mem_map.mp (complete.all i i.isLt)
    obtain rfl : worker = i.val := same
    exact ⟨⟨job, (lt_of_edge (complete.edges _ member)).2⟩, member⟩
  choose f made using job
  have injective : Function.Injective f := by
    intro i j same
    have both := List.inj_on_of_nodup_map complete.jobs (made i) (made j)
      (congrArg Fin.val same)
    exact Fin.ext (congrArg Prod.fst both)
  refine ⟨⟨f, injective⟩, ?_⟩
  have workers : (List.ofFn fun i => (i.val, (f i).val)).Nodup :=
    List.nodup_ofFn.mpr fun i j same => Fin.ext (congrArg Prod.fst same)
  refine (List.perm_ext_iff_of_nodup workers complete.workers.of_map).mpr ?_
  intro pair
  rw [List.mem_ofFn]
  constructor
  · rintro ⟨i, rfl⟩
    exact made i
  · intro member
    have inside := (lt_of_edge (complete.edges pair member)).1
    refine ⟨⟨pair.1, inside⟩, ?_⟩
    exact List.inj_on_of_nodup_map complete.workers (made ⟨pair.1, inside⟩) member rfl

/-- The workers of a complete matching, each with the worker's job. -/
theorem IsComplete.exists_embedding {pairs : List (Nat × Nat)}
    (complete : IsComplete input pairs) :
    ∃ f : Fin input.workers.length ↪ Fin input.jobs.length,
      value input pairs = ∑ i : Fin input.workers.length, gain input i (f i) := by
  obtain ⟨f, listed⟩ := complete.exists_listing
  refine ⟨f, ?_⟩
  rw [value, ← (listed.map _).sum_eq, List.map_ofFn, List.sum_ofFn]
  rfl

/-- A complete matching needs a job for every worker. -/
theorem IsComplete.fits {pairs : List (Nat × Nat)} (complete : IsComplete input pairs) :
    input.workers.length ≤ input.jobs.length := by
  obtain ⟨f, _⟩ := complete.exists_embedding
  have cards := Fintype.card_le_of_embedding f
  rwa [Fintype.card_fin, Fintype.card_fin] at cards

end BossWorker.Spec
