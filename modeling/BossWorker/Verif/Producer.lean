import BossWorker.Base.Positions
import BossWorker.Python.BatchRunner
import BossWorker.Python.Producer

/-!
# What the producer sends

The messages sent are the front of a sequence of whole cycles, wherever the transport stops
the producer. Every id carries the number of its cycle, so no two chores messages, chores or
announcements of a person share one, and the filter ids that an orchestrator makes of them
tell the chores message and the person.
-/

namespace BossWorker.Python

/-- The messages of cycles numbered from one. -/
def cycles (draws : List (Int64 × Enumeration String)) : List ProducerMessage :=
  draws.zipIdx.flatMap fun draw => cycleMessages (draw.2 + 1) draw.1.1 draw.1.2

/-- The messages that a run sends, in order. -/
def sentMessages (events : List ProducerEvent) : List ProducerMessage :=
  (Producer.machine.outputs .new events).flatMap Option.toList

/-- The chores message among two kinds of messages. -/
def ProducerMessage.chores? : ProducerMessage → Option Chores
  | .chores message => some message
  | .person _ => none

/-- The person message among two kinds of messages. -/
def ProducerMessage.person? : ProducerMessage → Option PersonAvailability
  | .chores _ => none
  | .person message => some message

/-- The chores messages among others. -/
def choresMessages (messages : List ProducerMessage) : List Chores :=
  messages.filterMap ProducerMessage.chores?

/-- The person messages among others. -/
def personMessages (messages : List ProducerMessage) : List PersonAvailability :=
  messages.filterMap ProducerMessage.person?

/-- A cycle that begins follows those before it. -/
theorem cycles_concat (draws : List (Int64 × Enumeration String))
    (draw : Int64 × Enumeration String) : cycles (draws ++ [draw]) =
      cycles draws ++ cycleMessages (draws.length + 1) draw.1 draw.2 := by
  rw [cycles, List.zipIdx_append, List.flatMap_append, cycles, List.zipIdx_singleton,
    List.flatMap_singleton, Nat.zero_add]

/-- What a step of the producer does. -/
inductive ProducerStep (producer : Producer) :
    ProducerEvent → Producer × Option ProducerMessage → Prop where
  /-- The step is not due. -/
  | idle (event : ProducerEvent) : ProducerStep producer event (producer, none)
  /-- The next cycle begins. -/
  | begun (createdAtUnixMs : Int64) (sample : Enumeration String)
      (done : producer.unsent = []) :
      ProducerStep producer (.cycle createdAtUnixMs sample)
        ({ producer with
            cycleNumber := producer.cycleNumber + 1
            unsent := cycleMessages producer.cycleNumber createdAtUnixMs sample }, none)
  /-- The next message is sent. -/
  | sent (message : ProducerMessage) (rest : List ProducerMessage)
      (next : producer.unsent = message :: rest) :
      ProducerStep producer (.put true) ({ producer with unsent := rest }, some message)
  /-- The transport raises. -/
  | stopped : ProducerStep producer (.put false) ({ producer with ended := true }, none)

/-- Every step is one of these. -/
theorem producerStep (producer : Producer) (event : ProducerEvent) :
    ProducerStep producer event (Producer.machine.step producer event) := by
  cases producer with
  | mk cycleNumber unsent ended =>
    cases event with
    | cycle createdAtUnixMs sample =>
      cases ended with
      | true => exact .idle _
      | false =>
        cases unsent with
        | nil => exact .begun createdAtUnixMs sample rfl
        | cons message rest => exact .idle _
    | put taken =>
      cases ended with
      | true => exact .idle _
      | false =>
        cases unsent with
        | nil => exact .idle _
        | cons message rest =>
          cases taken with
          | true => exact .sent message rest rfl
          | false => exact .stopped

/-- What has been sent and what is left of the current cycle are whole cycles. -/
theorem run_cycles (events : List ProducerEvent) :
    ∃ draws, (Producer.machine.run .new events).cycleNumber = draws.length + 1 ∧
      sentMessages events ++ (Producer.machine.run .new events).unsent = cycles draws := by
  induction events using List.reverseRecOn with
  | nil => exact ⟨[], rfl, rfl⟩
  | append_singleton events event ih =>
    obtain ⟨draws, number, whole⟩ := ih
    have step := producerStep (Producer.machine.run .new events) event
    unfold sentMessages at whole ⊢
    rw [Machine.run_concat, Machine.outputs_concat, List.flatMap_append, List.flatMap_singleton]
    generalize Producer.machine.run .new events = producer at *
    generalize (Producer.machine.outputs .new events).flatMap Option.toList = sent at *
    generalize Producer.machine.step producer event = result at step ⊢
    cases step with
    | idle event =>
      rw [Option.toList_none, List.append_nil]
      exact ⟨draws, number, whole⟩
    | stopped =>
      rw [Option.toList_none, List.append_nil]
      exact ⟨draws, number, whole⟩
    | sent message rest next =>
      refine ⟨draws, number, ?_⟩
      rw [Option.toList_some, List.append_assoc, List.singleton_append, ← next]
      exact whole
    | begun createdAtUnixMs sample done =>
      rw [Option.toList_none, List.append_nil]
      rw [done, List.append_nil] at whole
      refine ⟨draws ++ [(createdAtUnixMs, sample)], ?_, ?_⟩
      · rw [List.length_append, List.length_singleton]
        show producer.cycleNumber + 1 = _
        rw [number]
      · rw [cycles_concat, ← whole, ← number]

/-- The people of a cycle, in the order of their messages. -/
def selectedPersonIds (sample : Enumeration String) : List String :=
  (sample.arrange staticPeople.keys).take personMessagesPerBatch

/-- Everyone is drawn once. -/
theorem selectedPersonIds_perm (sample : Enumeration String) :
    (selectedPersonIds sample).Perm staticPeople.keys := by
  have whole := sample.complete staticPeople.keys
  have count : (sample.arrange staticPeople.keys).length = personMessagesPerBatch := by
    rw [whole.length_eq]
    decide
  rw [selectedPersonIds, ← count, List.take_length]
  exact whole

section Cycle

variable (cycleNumber : Nat) (createdAtUnixMs : Int64) (sample : Enumeration String)

/-- The chores message of a cycle. -/
theorem choresMessages_cycle :
    choresMessages (cycleMessages cycleNumber createdAtUnixMs sample) =
      [buildChores (cycleId cycleNumber) (cycleContext cycleNumber createdAtUnixMs)] := by
  have people (personIds : List String) : (personIds.map fun personId => ProducerMessage.person
      (personMessage (cycleId cycleNumber) personId
        (cycleContext cycleNumber createdAtUnixMs))).filterMap ProducerMessage.chores? = [] := by
    rw [List.filterMap_map, List.filterMap_eq_nil_iff]
    exact fun _ _ => rfl
  rw [choresMessages, cycleMessages, List.filterMap_cons, people]
  rfl

/-- The person messages of a cycle. -/
theorem personMessages_cycle :
    personMessages (cycleMessages cycleNumber createdAtUnixMs sample) =
      (selectedPersonIds sample).map fun personId => personMessage (cycleId cycleNumber) personId
        (cycleContext cycleNumber createdAtUnixMs) := by
  rw [personMessages, cycleMessages, List.filterMap_cons_none rfl, List.filterMap_map,
    ← List.filterMap_eq_map]
  rfl

end Cycle

section Cycles

variable (draws : List (Int64 × Enumeration String))

/-- The chores messages of cycles. -/
theorem choresMessages_cycles : choresMessages (cycles draws) = draws.zipIdx.map fun draw =>
    buildChores (cycleId (draw.2 + 1)) (cycleContext (draw.2 + 1) draw.1.1) := by
  rw [choresMessages, cycles, List.filterMap_flatMap, List.map_eq_flatMap]
  congr 1
  funext draw
  exact choresMessages_cycle (draw.2 + 1) draw.1.1 draw.1.2

/-- The person messages of cycles. -/
theorem personMessages_cycles : personMessages (cycles draws) =
    draws.zipIdx.flatMap fun draw => (selectedPersonIds draw.1.2).map fun personId =>
      personMessage (cycleId (draw.2 + 1)) personId (cycleContext (draw.2 + 1) draw.1.1) := by
  rw [personMessages, cycles, List.filterMap_flatMap]
  congr 1
  funext draw
  exact personMessages_cycle (draw.2 + 1) draw.1.1 draw.1.2

end Cycles

section Ids

/-- The id of a cycle tells its number. -/
theorem cycleId_injective : Function.Injective cycleId := by
  intro first second same
  apply zeroPadded_injective 4
  have lists := congrArg String.toList same
  rw [cycleId, cycleId, String.toList_append, String.toList_append] at lists
  exact String.toList_injective (List.append_cancel_left lists)

/-- The id of a chore tells its cycle and its number. -/
theorem choreId_inj {cycle other chore number : Nat}
    (same : cycleId cycle ++ "-chore-" ++ toString chore =
      cycleId other ++ "-chore-" ++ toString number) : cycle = other ∧ chore = number := by
  have lists := congrArg String.toList same
  simp only [cycleId, String.toList_append, List.append_assoc] at lists
  have labels := List.append_cancel_left lists
  have mark : "-chore-".toList = '-' :: "chore-".toList := rfl
  rw [mark, List.cons_append, List.cons_append, numbered_label_inj 4 rfl] at labels
  refine ⟨labels.1, ?_⟩
  have digits := congrArg (Nat.ofDigitChars 10 · 0) (List.append_cancel_left labels.2)
  simpa only [Nat.toString_eq_ofList_toDigits, String.toList_ofList,
    Nat.ofDigitChars_ten_toDigits] using digits

/-- A filter id made of a chores message of the producer tells its cycle and the person. -/
theorem filterId_inj {cycle other : Nat} {context since : RequestContext}
    {person someone : PersonAvailability}
    (same : BatchRunner.filterId (buildChores (cycleId cycle) context) person =
      BatchRunner.filterId (buildChores (cycleId other) since) someone) :
    cycle = other ∧ person.personId = someone.personId := by
  have lists := congrArg String.toList same
  simp only [BatchRunner.filterId, buildChores, cycleId, String.toList_append,
    List.append_assoc] at lists
  have labels := List.append_cancel_left (List.append_cancel_left lists)
  have mark : "-".toList = ['-'] := rfl
  rw [mark, List.singleton_append, List.singleton_append, numbered_label_inj 4 rfl] at labels
  exact ⟨labels.1, String.toList_injective labels.2⟩

end Ids

section Distinct

variable (draws : List (Int64 × Enumeration String))

/-- No chores id of the cycles is used twice. -/
theorem choresIds_nodup :
    ((choresMessages (cycles draws)).map Chores.choresId).Nodup := by
  have numbers : (draws.zipIdx.map Prod.snd).Nodup := by
    rw [List.zipIdx_map_snd]
    exact List.nodup_range'
  have apart := numbers.map fun (first second : Nat)
    (same : "chores-" ++ cycleId (first + 1) = "chores-" ++ cycleId (second + 1)) => by
      have lists := congrArg String.toList same
      rw [String.toList_append, String.toList_append] at lists
      have cycles := String.toList_injective (List.append_cancel_left lists)
      exact Nat.succ_inj.mp (cycleId_injective cycles)
  rw [choresMessages_cycles, List.map_map]
  rw [List.map_map] at apart
  exact apart

/-- No chore id of the cycles is used twice. -/
theorem choreIds_nodup :
    ((choresMessages (cycles draws)).flatMap fun chores => chores.chores.map Chore.choreId).Nodup
    := by
  have numbers : ∀ draw ∈ draws, ((List.range' 1 10).map id).Nodup := by
    intro draw _
    rw [List.map_id]
    exact List.nodup_range'
  have pairs := nodup_map_flatMap_zipIdx (fun _ => List.range' 1 10) id numbers
  have apart := pairs.map fun (first second : Nat × Nat)
    (same : cycleId (first.1 + 1) ++ "-chore-" ++ toString first.2 =
      cycleId (second.1 + 1) ++ "-chore-" ++ toString second.2) => by
      have both := choreId_inj same
      exact Prod.ext (Nat.succ_inj.mp both.1) both.2
  rw [choresMessages_cycles, List.flatMap_map]
  rw [List.map_flatMap, List.map_flatMap] at apart
  exact apart

/-- Nobody is announced twice in a cycle. -/
theorem announcements_nodup : ((personMessages (cycles draws)).map fun person =>
    (person.cycleId, person.personId)).Nodup := by
  have everyone : ∀ draw ∈ draws, ((selectedPersonIds draw.2).map id).Nodup := by
    intro draw _
    rw [List.map_id, (selectedPersonIds_perm draw.2).nodup_iff]
    decide
  have pairs := nodup_map_flatMap_zipIdx
    (fun draw : Int64 × Enumeration String => selectedPersonIds draw.2) id everyone
  have apart := pairs.map fun (first second : Nat × String)
    (same : (cycleId (first.1 + 1), first.2) = (cycleId (second.1 + 1), second.2)) => by
      have both := Prod.mk.inj same
      exact Prod.ext (Nat.succ_inj.mp (cycleId_injective both.1)) both.2
  rw [personMessages_cycles, List.map_flatMap]
  rw [List.map_flatMap, List.map_flatMap] at apart
  simp only [List.map_map] at apart ⊢
  exact apart

end Distinct

/-- Whoever is announced in whole cycles is announced behind the chores of the cycle. -/
theorem chores_before_person {draws : List (Int64 × Enumeration String)}
    {before behind : List ProducerMessage} {person : PersonAvailability}
    (split : cycles draws = before ++ .person person :: behind) :
    ∃ chores ∈ choresMessages before, chores.choresId = "chores-" ++ person.cycleId := by
  induction draws using List.reverseRecOn generalizing behind with
  | nil => exact absurd split.symm (List.append_ne_nil_of_right_ne_nil _ (List.cons_ne_nil _ _))
  | append_singleton draws draw ih =>
    rw [cycles_concat] at split
    cases List.append_eq_append_iff.mp split with
    | inl last =>
      obtain ⟨start, whole, rest⟩ := last
      rw [cycleMessages] at rest
      cases start with
      | nil => exact absurd (List.cons.inj rest).1 ProducerMessage.noConfusion
      | cons message start =>
        rw [List.cons_append] at rest
        have parts := List.cons.inj rest
        have member : ProducerMessage.person person ∈ start ++ .person person :: behind :=
          List.mem_append_right _ List.mem_cons_self
        rw [← parts.2] at member
        obtain ⟨personId, _, same⟩ := List.mem_map.mp member
        refine ⟨buildChores (cycleId (draws.length + 1))
          (cycleContext (draws.length + 1) draw.1), ?_, ?_⟩
        · rw [whole, ← parts.1, choresMessages, List.filterMap_append]
          exact List.mem_append_right _ List.mem_cons_self
        · rw [← ProducerMessage.person.inj same]
          rfl
    | inr earlier =>
      obtain ⟨rest, whole, tail⟩ := earlier
      cases rest with
      | nil =>
        exact absurd (List.cons.inj tail).1 ProducerMessage.noConfusion
      | cons message rest =>
        rw [← (List.cons.inj tail).1] at whole
        exact ih whole

section Announced

/-- The people announced in a cycle. -/
def announced (messages : List ProducerMessage) (cycleNumber : Nat) : List String :=
  ((personMessages messages).filter (·.cycleId == cycleId cycleNumber)).map
    PersonAvailability.personId

/-- One more cycle announces the people of that cycle only. -/
theorem announced_concat (draws : List (Int64 × Enumeration String))
    (draw : Int64 × Enumeration String) (cycleNumber : Nat) :
    announced (cycles (draws ++ [draw])) cycleNumber =
      announced (cycles draws) cycleNumber ++
        if cycleNumber = draws.length + 1 then selectedPersonIds draw.2 else [] := by
  rw [announced, cycles_concat, personMessages, List.filterMap_append, List.filter_append,
    List.map_append]
  have last := personMessages_cycle (draws.length + 1) draw.1 draw.2
  rw [personMessages] at last
  rw [last, List.filter_map, List.map_map]
  congr 1
  by_cases same : cycleNumber = draws.length + 1
  · rw [if_pos same, List.filter_eq_self.mpr]
    · exact List.map_id _
    · intro personId _
      rw [same]
      exact beq_self_eq_true _
  · rw [if_neg same, List.filter_eq_nil_iff.mpr]
    · rfl
    · intro personId _ equal
      exact same (cycleId_injective (eq_of_beq equal)).symm

/-- Whole cycles announce everyone once each. -/
theorem announced_perm (draws : List (Int64 × Enumeration String)) (cycleNumber : Nat) :
    (announced (cycles draws) cycleNumber).Perm
      (if 1 ≤ cycleNumber ∧ cycleNumber ≤ draws.length then staticPeople.keys else []) := by
  induction draws using List.reverseRecOn with
  | nil =>
    rw [if_neg (by rw [List.length_nil]; omega)]
    exact List.Perm.refl _
  | append_singleton draws draw ih =>
    rw [announced_concat, List.length_append, List.length_singleton]
    by_cases same : cycleNumber = draws.length + 1
    · rw [if_neg (by omega)] at ih
      rw [if_pos same, if_pos (by omega), ih.eq_nil, List.nil_append]
      exact selectedPersonIds_perm draw.2
    · rw [if_neg same, List.append_nil]
      have bounds : (1 ≤ cycleNumber ∧ cycleNumber ≤ draws.length + 1) =
          (1 ≤ cycleNumber ∧ cycleNumber ≤ draws.length) := propext (by omega)
      simpa only [bounds] using ih

end Announced

/-- Messages that their ids tell apart. -/
structure ToldApart (messages : List ProducerMessage) : Prop where
  /-- No two chores messages share an id. -/
  choresIds : ((choresMessages messages).map Chores.choresId).Nodup
  /-- No two chores share an id, in whatever messages they are. -/
  choreIds :
    ((choresMessages messages).flatMap fun chores => chores.chores.map Chore.choreId).Nodup
  /-- Nobody is announced twice in a cycle. -/
  people : ((personMessages messages).map fun person =>
    (person.cycleId, person.personId)).Nodup
  /-- The filter id of a batch item tells the chores message and the person. -/
  filterIds : ∀ chores ∈ choresMessages messages, ∀ other ∈ choresMessages messages,
    ∀ person someone : PersonAvailability,
      BatchRunner.filterId chores person = BatchRunner.filterId other someone →
        chores = other ∧ person.personId = someone.personId
  /-- The chores of a cycle go before its people. -/
  choresFirst : ∀ before person behind, messages = before ++ .person person :: behind →
    ∃ chores ∈ choresMessages before, chores.choresId = "chores-" ++ person.cycleId

/-- The front of whole cycles is told apart. -/
theorem toldApart_of_cycles {draws : List (Int64 × Enumeration String)}
    {messages unsent : List ProducerMessage} (whole : messages ++ unsent = cycles draws) :
    ToldApart messages := by
  have chores := choresIds_nodup draws
  have front : choresMessages (cycles draws) = choresMessages messages ++ choresMessages unsent :=
    by rw [← whole, choresMessages, List.filterMap_append]; rfl
  have people := announcements_nodup draws
  rw [← whole, personMessages, List.filterMap_append, List.map_append] at people
  have items := choreIds_nodup draws
  rw [front, List.flatMap_append] at items
  refine ⟨?_, items.of_append_left, people.of_append_left, ?_, ?_⟩
  · rw [front, List.map_append] at chores
    exact chores.of_append_left
  · intro first found second listed person someone same
    have built (message : Chores) (member : message ∈ choresMessages messages) :
        ∃ number context, message = buildChores (cycleId number) context := by
      have inside := List.mem_append_left (choresMessages unsent) member
      rw [← front, choresMessages_cycles] at inside
      obtain ⟨draw, _, equal⟩ := List.mem_map.mp inside
      exact ⟨_, _, equal.symm⟩
    obtain ⟨cycle, context, one⟩ := built first found
    obtain ⟨other, since, two⟩ := built second listed
    have parts : cycle = other ∧ person.personId = someone.personId := by
      rw [one, two] at same
      exact filterId_inj same
    refine ⟨List.inj_on_of_nodup_map chores ?_ ?_ ?_, parts.2⟩
    · rw [front]
      exact List.mem_append_left _ found
    · rw [front]
      exact List.mem_append_left _ listed
    · rw [one, two, parts.1]
      rfl
  · intro before person behind split
    rw [split, List.append_assoc, List.cons_append] at whole
    exact chores_before_person whole.symm

/-- Wherever the transport stops the producer, the messages that it has sent are told apart by
their ids, and between two cycles everyone has been announced once in each cycle so far. -/
theorem producer_messages_told_apart (events : List ProducerEvent) :
    ToldApart (sentMessages events) ∧
      ((Producer.machine.run .new events).unsent = [] → ∀ cycleNumber, 1 ≤ cycleNumber →
        cycleNumber < (Producer.machine.run .new events).cycleNumber →
        (announced (sentMessages events) cycleNumber).Perm staticPeople.keys) := by
  obtain ⟨draws, number, whole⟩ := run_cycles events
  refine ⟨toldApart_of_cycles whole, ?_⟩
  intro done cycleNumber first before
  rw [done, List.append_nil] at whole
  have everyone := announced_perm draws cycleNumber
  rw [if_pos (by omega), ← whole] at everyone
  exact everyone

end BossWorker.Python
