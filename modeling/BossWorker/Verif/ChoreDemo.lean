import BossWorker.System.Chores
import BossWorker.Verif.Producer
import BossWorker.Verif.Progress
import BossWorker.Verif.PythonSources
import BossWorker.Verif.Sources
import BossWorker.Verif.TrueSummaries

/-!
# What the consumers of the demo are told

An orchestrator of the demo has only received what producers have put, so its windows consist
of messages of some cycles. These are small: no minutes of them wrap and no totals overflow.
So the summaries of either language are true of chores and people that have been announced,
whatever Zenoh does with the payloads.
-/

namespace BossWorker

open BossWorker.Python (Producer ProducerMessage cycleMessages)
open BossWorker.Verif

/-- What a run shows, in order. -/
def choreLog (setup : ChoreDemo) (producers : Nat) (orchestrators : List OrchestratorSettings)
    (events : List ChoreEvent) : List ChoreObservation :=
  ((choreSystem setup).outputs (.start producers orchestrators) events).flatten

/-- The chores messages that producers have put. -/
def sentChores (shown : List ChoreObservation) : List Chores :=
  shown.filterMap fun
    | .sent _ (.chores message) => some message
    | _ => none

/-- The person messages that producers have put. -/
def sentPeople (shown : List ChoreObservation) : List PersonAvailability :=
  shown.filterMap fun
    | .sent _ (.person message) => some message
    | _ => none

/-- Reading a payload gives back a message that is related to the one put. -/
def GivesBack {α : Type} (related : α → α → Prop) (put : α) (outcome : Except String α) : Prop :=
  ∃ read, outcome = .ok read ∧ related put read

/-- A reflexive relation holds between an optional value and itself. -/
theorem rel_refl {α : Type} {related : α → α → Prop} (reflexive : ∀ item, related item item)
    (item : Option α) : Option.Rel related item item := by
  cases item with
  | none => exact .none
  | some item => exact .some (reflexive item)

section Reading

variable (same : RequestContext → RequestContext → Prop)

/-- Chores are read as they were put, with a context that is the same. -/
def Chores.ReadAs (put read : Chores) : Prop :=
  ∃ context, Option.Rel same put.context context ∧ read = { put with context := context }

/-- A person is read as it was put, with a context that is the same. -/
def PersonAvailability.ReadAs (put read : PersonAvailability) : Prop :=
  ∃ context, Option.Rel same put.context context ∧ read = { put with context := context }

/-- A result is read as it was put, with contexts that are the same. -/
def ChoreFilterResult.ReadAs (put read : ChoreFilterResult) : Prop :=
  ∃ person context, Option.Rel (PersonAvailability.ReadAs same) put.person person ∧
    Option.Rel same put.context context ∧
    read = { put with person := person, context := context }

/-- A summary is read as it was put, with contexts that are the same. -/
def ChoreFilterSummary.ReadAs (put read : ChoreFilterSummary) : Prop :=
  ∃ results context, List.Forall₂ (ChoreFilterResult.ReadAs same) put.results results ∧
    Option.Rel same put.context context ∧
    read = { put with results := results, context := context }

/-- Both ends of a payload mean the same message, up to what is the same context: the tags of
one have no order. -/
def ChoreDemo.Carries (setup : ChoreDemo) : ChoreObservation → Prop
  | .sent _ (.chores message) =>
    GivesBack (Chores.ReadAs same) message
        (setup.decoders.chores (setup.serializeChores message)) ∧
      GivesBack (Chores.ReadAs same) message
        (setup.parsers.chores (setup.serializeChores message))
  | .sent _ (.person message) =>
    GivesBack (PersonAvailability.ReadAs same) message
        (setup.decoders.person (setup.serializePerson message)) ∧
      GivesBack (PersonAvailability.ReadAs same) message
        (setup.parsers.person (setup.serializePerson message))
  | .logged _ summary _ =>
    GivesBack (ChoreFilterSummary.ReadAs same) summary
        (setup.parseSummary (setup.encodeSummary summary)) ∧
      GivesBack (ChoreFilterSummary.ReadAs same) summary
        (setup.parseSummary (setup.serializeSummary summary))

variable {same}

/-- The line of a result shows no contexts. -/
theorem resultLine_of_readAs {put read : ChoreFilterResult} (reads : put.ReadAs same read) :
    Python.Consumer.resultLine read = Python.Consumer.resultLine put := by
  obtain ⟨person, context, people, _, rfl⟩ := reads
  unfold Python.Consumer.resultLine
  generalize put.person = asked at people ⊢
  cases people with
  | none => rfl
  | some reads =>
    obtain ⟨context, _, rfl⟩ := reads
    rfl

/-- A consumer shows no contexts. -/
theorem summaryLines_of_readAs {put read : ChoreFilterSummary} (reads : put.ReadAs same read) :
    Python.Consumer.summaryLines read = Python.Consumer.summaryLines put := by
  obtain ⟨results, context, answers, _, rfl⟩ := reads
  have lines : results.map Python.Consumer.resultLine =
      put.results.map Python.Consumer.resultLine := by
    generalize put.results = before at answers ⊢
    induction answers with
    | nil => rfl
    | cons reads rest ih => rw [List.map_cons, List.map_cons, ih, resultLine_of_readAs reads]
  rw [Python.Consumer.summaryLines, Python.Consumer.summaryLines, lines]

section Refl

variable (reflexive : ∀ context, same context context)
include reflexive

/-- A person may be read as it is. -/
theorem PersonAvailability.readAs_refl (person : PersonAvailability) :
    person.ReadAs same person :=
  ⟨person.context, rel_refl reflexive person.context, rfl⟩

/-- A result may be read as it is. -/
theorem ChoreFilterResult.readAs_refl (result : ChoreFilterResult) : result.ReadAs same result :=
  ⟨result.person, result.context,
    rel_refl (PersonAvailability.readAs_refl reflexive) result.person,
    rel_refl reflexive result.context, rfl⟩

/-- A summary may be read as it is. -/
theorem ChoreFilterSummary.readAs_refl (summary : ChoreFilterSummary) :
    summary.ReadAs same summary := by
  refine ⟨summary.results, summary.context, ?_, rel_refl reflexive summary.context, rfl⟩
  rw [List.forall₂_same]
  exact fun result _ => ChoreFilterResult.readAs_refl reflexive result

end Refl

end Reading

/-- What a step of the demo can do. -/
inductive ChoreStep (setup : ChoreDemo) (self : ChoreSystem) :
    ChoreEvent → ChoreSystem × List ChoreObservation → Prop where
  /-- Nothing is due. -/
  | idle (event : ChoreEvent) : ChoreStep setup self event (self, [])
  /-- A producer puts nothing. -/
  | produced {producer : Nat} {event : Python.ProducerEvent} {party next : Producer}
      (found : self.producers[producer]? = some party)
      (step : Producer.machine.step party event = (next, none)) :
      ChoreStep setup self (.produce producer event)
        ({ self with producers := self.producers.set producer next }, [])
  /-- A producer puts a message. -/
  | sent {producer : Nat} {event : Python.ProducerEvent} {party next : Producer}
      {message : ProducerMessage} (found : self.producers[producer]? = some party)
      (step : Producer.machine.step party event = (next, some message)) :
      ChoreStep setup self (.produce producer event)
        ({ self with producers := self.producers.set producer next }.put setup message,
          [.sent producer message])
  /-- A Rust orchestrator goes on. -/
  | rust {orchestrator : Nat} {event : Rust.ProcessEvent} {config : Rust.OrchestratorConfig}
      {mode : Rust.JobSubmissionMode} {threads : Nat} {process : Rust.Process}
      (found : self.orchestrators[orchestrator]? = some (.rust config mode threads process))
      (carried : event.carried self = true) :
      ChoreStep setup self (.rust orchestrator event)
        ({ self with orchestrators := self.orchestrators.set orchestrator (.rust config mode
            threads ((Rust.process config mode setup.decoders threads).step process event).1) },
          [])
  /-- A Python orchestrator goes on. -/
  | python {orchestrator : Nat} {event : Python.ProcessEvent}
      {config : Python.OrchestratorConfig} {mode : Python.JobSubmissionMode}
      {process : Python.Process}
      (found : self.orchestrators[orchestrator]? = some (.python config mode process))
      (carried : event.carried self = true) :
      ChoreStep setup self (.python orchestrator event)
        ({ self with orchestrators := self.orchestrators.set orchestrator (.python config mode
            ((Python.process config mode setup.parsers).step process event).1) }, [])
  /-- A consumer is brought a summary. -/
  | logged {orchestrator position : Nat} {party : ChoreOrchestrator}
      {summary : ChoreFilterSummary} (found : self.orchestrators[orchestrator]? = some party)
      (there : party.published[position]? = some summary) :
      ChoreStep setup self (.consume orchestrator position)
        (self, [.logged orchestrator summary
          (Python.Consumer.onSummary setup.parseSummary (party.payload setup summary))])

/-- Every step is one of these. -/
theorem choreStep (setup : ChoreDemo) (self : ChoreSystem) (event : ChoreEvent) :
    ChoreStep setup self event ((choreSystem setup).step self event) := by
  cases event with
  | produce producer event =>
    show ChoreStep setup self _ (self.produced setup producer event)
    unfold ChoreSystem.produced
    cases found : self.producers[producer]? with
    | none => exact .idle _
    | some party =>
      rcases step : Producer.machine.step party event with ⟨next, put⟩
      simp only [step]
      cases put with
      | none => exact .produced found step
      | some message => exact .sent found step
  | rust orchestrator event =>
    show ChoreStep setup self _ (self.rustStepped setup orchestrator event, [])
    unfold ChoreSystem.rustStepped
    cases found : self.orchestrators[orchestrator]? with
    | none => exact .idle _
    | some party =>
      cases party with
      | python config mode process => exact .idle _
      | rust config mode threads process =>
        by_cases carried : event.carried self = true
        · simp only [carried, if_true]
          exact .rust found carried
        · simp only [carried, Bool.false_eq_true, if_false]
          exact .idle _
  | python orchestrator event =>
    show ChoreStep setup self _ (self.pythonStepped setup orchestrator event, [])
    unfold ChoreSystem.pythonStepped
    cases found : self.orchestrators[orchestrator]? with
    | none => exact .idle _
    | some party =>
      cases party with
      | rust config mode threads process => exact .idle _
      | python config mode process =>
        by_cases carried : event.carried self = true
        · simp only [carried, if_true]
          exact .python found carried
        · simp only [carried, Bool.false_eq_true, if_false]
          exact .idle _
  | consume orchestrator position =>
    show ChoreStep setup self _ (self, self.consumed setup orchestrator position)
    unfold ChoreSystem.consumed
    cases found : self.orchestrators[orchestrator]? with
    | none => exact .idle _
    | some party =>
      cases there : party.published[position]? with
      | none =>
        simp only [there]
        exact .idle _
      | some summary =>
        simp only [there]
        exact .logged found there

section Cycles

/-- A message that some cycle consists of. -/
def OfCycle (message : ProducerMessage) : Prop :=
  ∃ cycleNumber createdAtUnixMs sample,
    message ∈ cycleMessages cycleNumber createdAtUnixMs sample

/-- A producer sends messages of its cycles. -/
theorem ofCycle_step {producer next : Producer} {event : Python.ProducerEvent}
    {put : Option ProducerMessage} (made : ∀ message ∈ producer.unsent, OfCycle message)
    (step : Producer.machine.step producer event = (next, put)) :
    (∀ message ∈ next.unsent, OfCycle message) ∧ ∀ message ∈ put, OfCycle message := by
  have steps := Python.producerStep producer event
  rw [step] at steps
  cases steps with
  | idle event => exact ⟨made, fun _ absent => by contradiction⟩
  | stopped => exact ⟨made, fun _ absent => by contradiction⟩
  | begun createdAtUnixMs sample done =>
    exact ⟨fun message member => ⟨_, _, _, member⟩, fun _ absent => by contradiction⟩
  | sent message rest unsent =>
    rw [unsent, List.forall_mem_cons] at made
    refine ⟨made.2, ?_⟩
    intro other same
    rw [← Option.some.inj same]
    exact made.1

/-- Chores of a cycle take 105 minutes. -/
theorem sum_minutes_of_cycle {chores : Chores} (made : OfCycle (.chores chores)) :
    (chores.chores.map minutes).sum = 105 ∧ chores.chores.length = 10 := by
  obtain ⟨cycleNumber, createdAtUnixMs, sample, member⟩ := made
  have built : chores ∈ Python.choresMessages (cycleMessages cycleNumber createdAtUnixMs sample) :=
    List.mem_filterMap.mpr ⟨_, member, rfl⟩
  rw [Python.choresMessages_cycle, List.mem_singleton] at built
  rw [built]
  exact ⟨rfl, rfl⟩

/-- People of a cycle are known. -/
theorem known_of_cycle {person : PersonAvailability} (made : OfCycle (.person person)) :
    person.personId ∈ Python.staticPeople.keys := by
  obtain ⟨cycleNumber, createdAtUnixMs, sample, member⟩ := made
  have built : person ∈ Python.personMessages (cycleMessages cycleNumber createdAtUnixMs sample) :=
    List.mem_filterMap.mpr ⟨_, member, rfl⟩
  rw [Python.personMessages_cycle] at built
  obtain ⟨personId, drawn, rfl⟩ := List.mem_map.mp built
  exact (Python.selectedPersonIds_perm sample).subset drawn

/-- Nobody is known besides the ten people. -/
theorem length_le_of_known {people : List PersonAvailability}
    (known : ∀ person ∈ people, person.personId ∈ Python.staticPeople.keys)
    (distinct : (people.map PersonAvailability.personId).Nodup) : people.length ≤ 10 := by
  have listed : people.map PersonAvailability.personId ⊆ Python.staticPeople.keys := by
    intro personId member
    obtain ⟨person, inside, rfl⟩ := List.mem_map.mp member
    exact known person inside
  have fewer := (distinct.subperm listed).length_le
  have ten : Python.staticPeople.keys.length = 10 := by decide
  rw [List.length_map] at fewer
  omega

end Cycles

/-- Something is known of a message. -/
def Sources.Has (sources : Sources) : ProducerMessage → Prop
  | .chores message => sources.chores message
  | .person message => sources.person message

section Sources

variable (same : RequestContext → RequestContext → Prop)

/-- What is known of messages as they are read. -/
def Sources.read (sources : Sources) : Sources where
  chores message := ∃ put, sources.chores put ∧ put.ReadAs same message
  person message := ∃ put, sources.person put ∧ put.ReadAs same message

/-- Payloads of known messages are read as these messages. -/
structure Sources.Carried (sources : Sources) (setup : ChoreDemo) : Prop where
  chores : ∀ message, sources.chores message →
    GivesBack (Chores.ReadAs same) message
        (setup.decoders.chores (setup.serializeChores message)) ∧
      GivesBack (Chores.ReadAs same) message
        (setup.parsers.chores (setup.serializeChores message))
  person : ∀ message, sources.person message →
    GivesBack (PersonAvailability.ReadAs same) message
        (setup.decoders.person (setup.serializePerson message)) ∧
      GivesBack (PersonAvailability.ReadAs same) message
        (setup.parsers.person (setup.serializePerson message))

end Sources

/-- An orchestrator that has come this far by samples of the sources. -/
def ChoreOrchestrator.Fed (setup : ChoreDemo) (sources : Sources) : ChoreOrchestrator → Prop
  | .rust config mode threads process => ∃ events,
    process = (Rust.process config mode setup.decoders threads).run .start events ∧
      ∀ event ∈ events, event.FedBy sources setup.decoders
  | .python config mode process => ∃ events,
    process = (Python.process config mode setup.parsers).run .start events ∧
      ∀ event ∈ events, event.FedBy sources setup.parsers

/-- The payloads and the orchestrators hold what is known of the messages put. -/
structure Informed (same : RequestContext → RequestContext → Prop) (setup : ChoreDemo)
    (sources : Sources) (state : ChoreSystem) : Prop where
  chores : ∀ bytes ∈ state.choresPayloads, ∃ message,
    sources.chores message ∧ bytes = setup.serializeChores message
  people : ∀ bytes ∈ state.personPayloads, ∃ message,
    sources.person message ∧ bytes = setup.serializePerson message
  orchestrators : ∀ party ∈ state.orchestrators, party.Fed setup (sources.read same)

section Informed

variable {same : RequestContext → RequestContext → Prop} {setup : ChoreDemo}
  {sources : Sources} {self : ChoreSystem}

/-- At first nothing has been put. -/
theorem informed_start (producers : Nat) (orchestrators : List OrchestratorSettings) :
    Informed same setup sources (.start producers orchestrators) where
  chores _ absent := absurd absent List.not_mem_nil
  people _ absent := absurd absent List.not_mem_nil
  orchestrators party member := by
    obtain ⟨settings, _, rfl⟩ := List.mem_map.mp member
    cases settings with
    | rust config mode threads => exact ⟨[], rfl, fun _ absent => absurd absent List.not_mem_nil⟩
    | python config mode => exact ⟨[], rfl, fun _ absent => absurd absent List.not_mem_nil⟩

/-- A message that is put. -/
theorem Informed.put (informed : Informed same setup sources self) {message : ProducerMessage}
    (known : sources.Has message) : Informed same setup sources (self.put setup message) := by
  cases message with
  | chores message =>
    refine ⟨?_, informed.people, informed.orchestrators⟩
    intro bytes member
    cases List.mem_append.mp member with
    | inl old => exact informed.chores bytes old
    | inr new => exact ⟨message, known, List.mem_singleton.mp new⟩
  | person message =>
    refine ⟨informed.chores, ?_, informed.orchestrators⟩
    intro bytes member
    cases List.mem_append.mp member with
    | inl old => exact informed.people bytes old
    | inr new => exact ⟨message, known, List.mem_singleton.mp new⟩

/-- A carried sample of a Rust orchestrator comes from the sources. -/
theorem Informed.rust_fed (informed : Informed same setup sources self)
    (carries : sources.Carried same setup) {event : Rust.ProcessEvent}
    (carried : event.carried self = true) : event.FedBy (sources.read same) setup.decoders := by
  cases event with
  | choresSample bytes now =>
    intro other decoded
    obtain ⟨message, known, rfl⟩ := informed.chores bytes (of_decide_eq_true carried)
    obtain ⟨read, given, reads⟩ := (carries.chores message known).1
    rw [given] at decoded
    rw [← Except.ok.inj decoded]
    exact ⟨message, known, reads⟩
  | personSample bytes now =>
    intro other decoded
    obtain ⟨message, known, rfl⟩ := informed.people bytes (of_decide_eq_true carried)
    obtain ⟨read, given, reads⟩ := (carries.person message known).1
    rw [given] at decoded
    rw [← Except.ok.inj decoded]
    exact ⟨message, known, reads⟩
  | _ => trivial

/-- A carried sample of a Python orchestrator comes from the sources. -/
theorem Informed.python_fed (informed : Informed same setup sources self)
    (carries : sources.Carried same setup) {event : Python.ProcessEvent}
    (carried : event.carried self = true) : event.FedBy (sources.read same) setup.parsers := by
  cases event with
  | choresSample bytes now =>
    intro other parsed
    obtain ⟨message, known, rfl⟩ := informed.chores bytes (of_decide_eq_true carried)
    obtain ⟨read, given, reads⟩ := (carries.chores message known).2
    rw [given] at parsed
    rw [← Except.ok.inj parsed]
    exact ⟨message, known, reads⟩
  | personSample bytes now started =>
    intro other parsed
    obtain ⟨message, known, rfl⟩ := informed.people bytes (of_decide_eq_true carried)
    obtain ⟨read, given, reads⟩ := (carries.person message known).2
    rw [given] at parsed
    rw [← Except.ok.inj parsed]
    exact ⟨message, known, reads⟩
  | _ => trivial

/-- A step that puts only known messages. -/
theorem Informed.step (informed : Informed same setup sources self)
    (carries : sources.Carried same setup) {event : ChoreEvent} {after : ChoreSystem × List ChoreObservation}
    (step : ChoreStep setup self event after)
    (known : ∀ producer message, .sent producer message ∈ after.2 → sources.Has message) :
    Informed same setup sources after.1 := by
  cases step with
  | idle event => exact informed
  | logged found there => exact informed
  | produced found step => exact ⟨informed.chores, informed.people, informed.orchestrators⟩
  | @sent producer event party next message found step =>
    have moved : Informed same setup sources
        { self with producers := self.producers.set producer next } :=
      ⟨informed.chores, informed.people, informed.orchestrators⟩
    exact moved.put (known producer message List.mem_cons_self)
  | @rust orchestrator event config mode threads process found carried =>
    refine ⟨informed.chores, informed.people, ?_⟩
    obtain ⟨events, reached, fed⟩ := informed.orchestrators _ (List.mem_of_getElem? found)
    refine forall_mem_set informed.orchestrators ⟨events ++ [event], ?_, ?_⟩
    · rw [Machine.run_concat, ← reached]
    · rw [List.forall_mem_append, List.forall_mem_singleton]
      exact ⟨fed, informed.rust_fed carries carried⟩
  | @python orchestrator event config mode process found carried =>
    refine ⟨informed.chores, informed.people, ?_⟩
    obtain ⟨events, reached, fed⟩ := informed.orchestrators _ (List.mem_of_getElem? found)
    refine forall_mem_set informed.orchestrators ⟨events ++ [event], ?_, ?_⟩
    · rw [Machine.run_concat, ← reached]
    · rw [List.forall_mem_append, List.forall_mem_singleton]
      exact ⟨fed, informed.python_fed carries carried⟩

end Informed

section Truth

variable {same : RequestContext → RequestContext → Prop} {setup : ChoreDemo} {sources : Sources}

/-- A summary of chores and people of the sources. -/
def TrueOf (sources : Sources) (summary : ChoreFilterSummary) : Prop :=
  ∃ chores people, sources.chores chores ∧ (∀ person ∈ people, sources.person person) ∧
    (people.map PersonAvailability.personId).Nodup ∧ TrueSummary chores people summary

/-- Orchestrators that are fed messages of cycles, as they are read, publish true summaries. -/
theorem ChoreOrchestrator.Fed.trueOf {party : ChoreOrchestrator}
    (fed : party.Fed setup (sources.read same))
    (made : ∀ message, sources.Has message → OfCycle message) {summary : ChoreFilterSummary}
    (member : summary ∈ party.published) : TrueOf (sources.read same) summary := by
  cases party with
  | rust config mode threads process =>
    obtain ⟨events, rfl, known⟩ := fed
    obtain ⟨entry, put, rfl⟩ := List.mem_map.mp member
    obtain ⟨submission, task, found, spawned, built⟩ :=
      Rust.exists_task_of_published config mode setup.decoders threads events put
    have origin := Rust.process_submissions_from config mode setup.decoders threads known
      submission (List.mem_of_getElem? found)
    have within := Rust.people_sublist_of_mem_submitWindow spawned
    have people (person : PersonAvailability) (listed : person ∈ task.people) :
        (sources.read same).person person := origin.people person (within.subset listed)
    have distinct : (task.people.map PersonAvailability.personId).Nodup :=
      origin.distinct.sublist (within.map _)
    refine ⟨submission.chores, task.people, origin.chores, people, distinct, ?_⟩
    rw [built, rustSummary_true_iff]
    obtain ⟨put, announced, reads⟩ := origin.chores
    have chores : submission.chores.chores = put.chores := by
      obtain ⟨context, _, read⟩ := reads
      rw [read]
    have size := sum_minutes_of_cycle (made (.chores put) announced)
    rw [← chores] at size
    have known_ids (person : PersonAvailability) (listed : person ∈ task.people) :
        person.personId ∈ Python.staticPeople.keys := by
      obtain ⟨sent, announced, context, _, rfl⟩ := people person listed
      have drawn : sent.personId ∈ Python.staticPeople.keys :=
        known_of_cycle (made (.person sent) announced)
      exact drawn
    have few := length_le_of_known known_ids distinct
    have total := acceptedCount_le submission.chores task.people
    rw [size.2] at total
    refine ⟨fun person _ => neverWraps_of_sum _ ?_, ?_, ?_⟩
    · rw [size.1]
      decide
    · omega
    · omega
  | python config mode process =>
    obtain ⟨events, rfl, known⟩ := fed
    obtain ⟨entry, put, rfl⟩ := List.mem_map.mp member
    obtain ⟨attempt, people, found, within, built⟩ :=
      Python.exists_windowSummary_of_published config mode setup.parsers events put
    have origin := Python.process_attempts_from config mode setup.parsers known attempt
      (List.mem_of_getElem? found)
    exact ⟨attempt.submission.chores, people, origin.chores,
      fun person listed => origin.people person (within.subset listed),
      origin.distinct.sublist (within.map _), windowSummary_true built⟩

end Truth

section Runs

variable (setup : ChoreDemo) (producers : Nat) (orchestrators : List OrchestratorSettings)
  (events : List ChoreEvent)

/-- One more step shows what it shows. -/
theorem choreLog_concat (event : ChoreEvent) :
    choreLog setup producers orchestrators (events ++ [event]) =
      choreLog setup producers orchestrators events ++ ((choreSystem setup).step
        ((choreSystem setup).run (.start producers orchestrators) events) event).2 := by
  rw [choreLog, Machine.outputs_concat, List.flatten_append, List.flatten_singleton]
  rfl

/-- Producers put messages of cycles only. -/
theorem run_ofCycle :
    (∀ party ∈ ((choreSystem setup).run (.start producers orchestrators) events).producers,
      ∀ message ∈ party.unsent, OfCycle message) ∧
    ∀ producer message, .sent producer message ∈ choreLog setup producers orchestrators events →
      OfCycle message := by
  induction events using List.reverseRecOn with
  | nil =>
    refine ⟨?_, fun _ _ absent => absurd absent List.not_mem_nil⟩
    intro party member message absent
    rw [List.eq_of_mem_replicate member] at absent
    exact absurd absent List.not_mem_nil
  | append_singleton events event ih =>
    have step := choreStep setup
      ((choreSystem setup).run (.start producers orchestrators) events) event
    rw [Machine.run_concat, choreLog_concat]
    generalize (choreSystem setup).run (.start producers orchestrators) events = self at *
    generalize (choreSystem setup).step self event = after at step ⊢
    generalize choreLog setup producers orchestrators events = shown at *
    have kept : ∀ {later : List ChoreObservation}, (∀ producer message,
        ChoreObservation.sent producer message ∈ later → OfCycle message) →
        ∀ producer message, .sent producer message ∈ shown ++ later → OfCycle message := by
      intro later fresh producer message member
      cases List.mem_append.mp member with
      | inl old => exact ih.2 producer message old
      | inr new => exact fresh producer message new
    cases step with
    | idle event => exact ⟨ih.1, kept fun _ _ absent => absurd absent List.not_mem_nil⟩
    | rust found carried => exact ⟨ih.1, kept fun _ _ absent => absurd absent List.not_mem_nil⟩
    | python found carried => exact ⟨ih.1, kept fun _ _ absent => absurd absent List.not_mem_nil⟩
    | logged found there =>
      refine ⟨ih.1, kept ?_⟩
      intro producer message member
      exact absurd (List.mem_singleton.mp member) ChoreObservation.noConfusion
    | produced found step =>
      have next := ofCycle_step (ih.1 _ (List.mem_of_getElem? found)) step
      refine ⟨forall_mem_set ih.1 next.1, kept ?_⟩
      exact fun _ _ absent => absurd absent List.not_mem_nil
    | @sent producer event party next message found step =>
      have next_made := ofCycle_step (ih.1 _ (List.mem_of_getElem? found)) step
      have parties : (ChoreSystem.put setup
          { self with producers := self.producers.set producer next } message).producers =
            self.producers.set producer next := by
        cases message <;> rfl
      refine ⟨?_, kept ?_⟩
      · rw [parties]
        exact forall_mem_set ih.1 next_made.1
      · intro other put member
        have same := List.mem_singleton.mp member
        rw [(ChoreObservation.sent.inj same).2]
        exact next_made.2 message rfl

variable {same : RequestContext → RequestContext → Prop} {sources : Sources}

/-- If everything that is put is known, so is everything that is held. -/
theorem run_informed (carries : sources.Carried same setup)
    (known : ∀ producer message,
      .sent producer message ∈ choreLog setup producers orchestrators events →
        sources.Has message) :
    Informed same setup sources
      ((choreSystem setup).run (.start producers orchestrators) events) := by
  induction events using List.reverseRecOn with
  | nil => exact informed_start producers orchestrators
  | append_singleton events event ih =>
    rw [choreLog_concat] at known
    rw [Machine.run_concat]
    have before := ih fun producer message member =>
      known producer message (List.mem_append_left _ member)
    exact before.step carries (choreStep setup _ event) fun producer message member =>
      known producer message (List.mem_append_right _ member)

/-- What is logged is a summary that some orchestrator of the run has put. -/
theorem logged_of_published (carries : sources.Carried same setup)
    (known : ∀ producer message,
      .sent producer message ∈ choreLog setup producers orchestrators events →
        sources.Has message) {orchestrator : Nat} {summary : ChoreFilterSummary}
    {lines : List Python.ConsumerLine}
    (member : .logged orchestrator summary lines ∈
      choreLog setup producers orchestrators events) :
    ∃ party : ChoreOrchestrator, party.Fed setup (sources.read same) ∧ summary ∈ party.published ∧
      lines = Python.Consumer.onSummary setup.parseSummary (party.payload setup summary) := by
  induction events using List.reverseRecOn with
  | nil => exact absurd member List.not_mem_nil
  | append_singleton events event ih =>
    rw [choreLog_concat] at known member
    have before : ∀ producer message,
        .sent producer message ∈ choreLog setup producers orchestrators events →
          sources.Has message :=
      fun producer message member => known producer message (List.mem_append_left _ member)
    cases List.mem_append.mp member with
    | inl old => exact ih before old
    | inr new =>
      have informed := run_informed setup producers orchestrators events carries before
      have step := choreStep setup
        ((choreSystem setup).run (.start producers orchestrators) events) event
      generalize (choreSystem setup).run (.start producers orchestrators) events = self at *
      generalize (choreSystem setup).step self event = after at step new
      cases step with
      | @logged origin position party shown found there =>
        have same := ChoreObservation.logged.inj (List.mem_singleton.mp new)
        refine ⟨party, informed.orchestrators party (List.mem_of_getElem? found), ?_, ?_⟩
        · rw [same.2.1]
          exact List.mem_of_getElem? there
        · rw [same.2.2, same.2.1]
      | sent found step =>
        exact absurd (List.mem_singleton.mp new) ChoreObservation.noConfusion
      | _ => exact absurd new List.not_mem_nil

end Runs

/-- The messages that have been put. -/
def logSources (shown : List ChoreObservation) : Sources where
  chores message := message ∈ sentChores shown
  person message := message ∈ sentPeople shown

/-- A message is among those that have been put if some producer has put it. -/
theorem has_logSources_iff (shown : List ChoreObservation) (message : ProducerMessage) :
    (logSources shown).Has message ↔ ∃ producer, .sent producer message ∈ shown := by
  constructor
  · intro put
    cases message with
    | chores message =>
      obtain ⟨entry, listed, same⟩ := List.mem_filterMap.mp put
      cases entry with
      | logged orchestrator summary lines => contradiction
      | sent producer other =>
        cases other with
        | chores other =>
          rw [Option.some.inj same] at listed
          exact ⟨producer, listed⟩
        | person other => contradiction
    | person message =>
      obtain ⟨entry, listed, same⟩ := List.mem_filterMap.mp put
      cases entry with
      | logged orchestrator summary lines => contradiction
      | sent producer other =>
        cases other with
        | chores other => contradiction
        | person other =>
          rw [Option.some.inj same] at listed
          exact ⟨producer, listed⟩
  · intro put
    obtain ⟨producer, listed⟩ := put
    cases message with
    | chores message => exact List.mem_filterMap.mpr ⟨_, listed, rfl⟩
    | person message => exact List.mem_filterMap.mpr ⟨_, listed, rfl⟩

/-- If payloads mean the same message at both ends, up to what is the same context, then
whatever Zenoh delivers, late, twice or never, consumers log summaries that are true of chores
that have been announced and of distinct people that have been announced, as they were read. -/
theorem consumers_log_true_summaries (same : RequestContext → RequestContext → Prop)
    (setup : ChoreDemo) (producers : Nat) (orchestrators : List OrchestratorSettings)
    (events : List ChoreEvent)
    (faithful : ∀ entry ∈ choreLog setup producers orchestrators events,
      setup.Carries same entry) :
    ∀ orchestrator summary lines,
      .logged orchestrator summary lines ∈ choreLog setup producers orchestrators events →
      lines = Python.Consumer.summaryLines summary ∧
        ∃ chores people,
          (∃ put ∈ sentChores (choreLog setup producers orchestrators events),
            put.ReadAs same chores) ∧
          (∀ person ∈ people,
            ∃ put ∈ sentPeople (choreLog setup producers orchestrators events),
              put.ReadAs same person) ∧
          (people.map PersonAvailability.personId).Nodup ∧
            TrueSummary chores people summary := by
  intro orchestrator summary lines member
  have known := has_logSources_iff (choreLog setup producers orchestrators events)
  have carries :
      (logSources (choreLog setup producers orchestrators events)).Carried same setup := by
    constructor
    · intro message put
      obtain ⟨producer, shown⟩ := (known (.chores message)).mp put
      exact faithful _ shown
    · intro message put
      obtain ⟨producer, shown⟩ := (known (.person message)).mp put
      exact faithful _ shown
  have made : ∀ message, (logSources (choreLog setup producers orchestrators events)).Has message →
      OfCycle message := by
    intro message put
    obtain ⟨producer, shown⟩ := (known message).mp put
    exact (run_ofCycle setup producers orchestrators events).2 producer message shown
  obtain ⟨party, fed, listed, logged⟩ := logged_of_published setup producers orchestrators events
    carries (fun producer message shown => (known message).mpr ⟨producer, shown⟩) member
  obtain ⟨chores, people, announced, within, distinct, right⟩ := fed.trueOf made listed
  refine ⟨?_, chores, people, announced, within, distinct, right⟩
  obtain ⟨⟨first, decoded, firstReads⟩, second, parsed, secondReads⟩ := faithful _ member
  rw [logged, Python.Consumer.onSummary]
  cases party with
  | rust config mode threads process =>
    simp only [ChoreOrchestrator.payload, decoded]
    exact summaryLines_of_readAs firstReads
  | python config mode process =>
    simp only [ChoreOrchestrator.payload, parsed]
    exact summaryLines_of_readAs secondReads

section FirstRun

/-- The same context, but for the order of its tags. -/
structure SameButTags (put read : RequestContext) : Prop where
  requestId : put.requestId = read.requestId
  createdAtUnixMs : put.createdAtUnixMs = read.createdAtUnixMs
  source : put.source = read.source
  tags : ∀ key, put.tags.get? key = read.tags.get? key

/-- A context is the same as itself. -/
theorem SameButTags.refl (context : RequestContext) : SameButTags context context :=
  ⟨rfl, rfl, rfl, fun _ => rfl⟩

/-- The context of the first cycle. -/
def firstContext : RequestContext := Python.cycleContext 1 0

/-- The context of the first cycle with its tags the other way round. -/
def turnedContext : RequestContext :=
  { firstContext with
    tags := ((Dict.empty.insert "mode" "chores-and-people").insert "transport" "zenoh").insert
      "env" "demo" }

/-- The two are the same but for the order. -/
theorem firstContext_same : SameButTags firstContext turnedContext where
  requestId := rfl
  createdAtUnixMs := rfl
  source := rfl
  tags key := by
    simp only [firstContext, turnedContext, Python.cycleContext, Dict.get?_insert]
    grind

/-- The chores of the first cycle. -/
def firstChores : Chores := Python.buildChores (Python.cycleId 1) firstContext

/-- The first person of the first cycle. -/
def firstPerson : PersonAvailability :=
  Python.personMessage (Python.cycleId 1) "person-1" firstContext

/-- The chores as the orchestrator reads them. -/
def readChores : Chores := { firstChores with context := some turnedContext }

/-- The person as the orchestrator reads it. -/
def readPerson : PersonAvailability := { firstPerson with context := some turnedContext }

/-- The report of the Rust orchestrator on them. -/
def firstSummary : ChoreFilterSummary :=
  Rust.BatchRunner.buildSummary readChores.choresId readChores.context
    [Rust.jobResult readChores readPerson]

/-- The bytes of an id. -/
def idBytes (id : String) : List UInt8 := id.toList.map fun letter => letter.toUInt8

/-- A reader that knows one message by its bytes. -/
def readOne {α : Type} (bytes : List UInt8) (message : α) (payload : List UInt8) :
    Except String α :=
  if payload = bytes then .ok message else .error "Error parsing message"

/-- Codecs that write the ids of messages and know the first messages by them. -/
def firstCodecs : ChoreDemo where
  serializeChores message := idBytes message.choresId
  serializePerson message := idBytes message.personId
  decoders := ⟨readOne (idBytes firstChores.choresId) readChores,
    readOne (idBytes firstPerson.personId) readPerson⟩
  parsers := ⟨readOne (idBytes firstChores.choresId) readChores,
    readOne (idBytes firstPerson.personId) readPerson⟩
  encodeSummary summary := idBytes summary.choresId
  serializeSummary summary := idBytes summary.choresId
  parseSummary := readOne (idBytes firstSummary.choresId) firstSummary

/-- A Rust orchestrator with a pool of one thread that gathers for a second. -/
def firstSettings : List OrchestratorSettings :=
  [.rust Rust.oneSecond .perPerson 1]

/-- The chores and the first person come to the orchestrator and its summary to a consumer. -/
def firstRun : List ChoreEvent :=
  [.produce 0 (.cycle 0 (.stored String)), .produce 0 (.put true), .produce 0 (.put true),
    .rust 0 (.choresSample (idBytes firstChores.choresId) 0),
    .rust 0 (.personSample (idBytes firstPerson.personId) 0),
    .rust 0 (.tick 2 (.stored Rust.PendingPerson)), .rust 0 (.dispatch 0), .rust 0 (.start 0),
    .rust 0 (.compute 0), .rust 0 (.publish 0 true), .consume 0 0]

/-- In this run every message is read as it was put, but for the order of tags. -/
theorem firstRun_carried :
    ∀ entry ∈ choreLog firstCodecs 1 firstSettings firstRun,
      firstCodecs.Carries SameButTags entry := by
  have log : choreLog firstCodecs 1 firstSettings firstRun =
      [.sent 0 (.chores firstChores), .sent 0 (.person firstPerson),
        .logged 0 firstSummary (Python.Consumer.summaryLines firstSummary)] := by
    decide +kernel
  have chores : firstChores.ReadAs SameButTags readChores :=
    ⟨some turnedContext, .some firstContext_same, rfl⟩
  have person : firstPerson.ReadAs SameButTags readPerson :=
    ⟨some turnedContext, .some firstContext_same, rfl⟩
  have summary := firstSummary.readAs_refl SameButTags.refl
  rw [log]
  simp only [List.forall_mem_cons, List.not_mem_nil, false_imp_iff, implies_true, and_true]
  exact ⟨⟨⟨_, by decide +kernel, chores⟩, _, by decide +kernel, chores⟩,
    ⟨⟨_, by decide +kernel, person⟩, _, by decide +kernel, person⟩,
    ⟨_, by decide +kernel, summary⟩, _, by decide +kernel, summary⟩

/-- The summary of this run is true. -/
theorem consumers_log_true_summaries_first :
    ∃ chores people,
      (∃ put ∈ sentChores (choreLog firstCodecs 1 firstSettings firstRun),
        put.ReadAs SameButTags chores) ∧
      (∀ person ∈ people,
        ∃ put ∈ sentPeople (choreLog firstCodecs 1 firstSettings firstRun),
          put.ReadAs SameButTags person) ∧
      (people.map PersonAvailability.personId).Nodup ∧
        TrueSummary chores people firstSummary :=
  (consumers_log_true_summaries SameButTags firstCodecs 1 firstSettings firstRun
    firstRun_carried 0 firstSummary (Python.Consumer.summaryLines firstSummary)
    (by decide +kernel)).2

end FirstRun

end BossWorker
