import BossWorker.Verif.Coordinator
import BossWorker.Verif.PythonCoordinator

/-!
# Whom a flush selects

In a reachable window the entries are distinct and so are their keys, whatever the hash map
does, so a selection is determined: it holds the smallest entries, in increasing order.
-/

namespace BossWorker

namespace Python

section Keys

variable {window : PersonWindow}

/-- No entry is pending twice. -/
theorem PersonWindow.Keyed.values_nodup (keyed : window.Keyed) :
    window.pendingPeople.values.Nodup :=
  Dict.nodup_values_of_keyed (fun pending => pending.message.personId) keyed

/-- Pending entries with one message are one entry. -/
theorem PersonWindow.Keyed.message_injective (keyed : window.Keyed) :
    ∀ a ∈ window.pendingPeople.values, ∀ b ∈ window.pendingPeople.values,
      a.message = b.message → a = b := by
  intro a inside b other same
  have unique := Dict.eq_of_keyed (fun pending : PendingPerson => pending.message.personId)
    (show ∀ entry ∈ window.pendingPeople.entries, _ from keyed)
  exact unique a inside b other (congrArg PersonAvailability.personId same)

/-- Pending entries with one key are one entry. -/
theorem BatchCoordinator.rank_injective (self : BatchCoordinator) (numbered : window.Numbered) :
    ∀ a ∈ window.pendingPeople.values, ∀ b ∈ window.pendingPeople.values,
      self.rank a = self.rank b → a = b := by
  intro a inside b other same
  have numbers : a.sequenceNumber = b.sequenceNumber :=
    congrArg Prod.snd (toLex.injective same)
  exact numbered.eq_of_stamp_eq a inside b other numbers

end Keys

end Python

namespace Rust

section Keys

variable {window : PersonWindow}

/-- No entry is pending twice. -/
theorem PersonWindow.WellFormed.values_nodup (formed : window.WellFormed) :
    window.pendingPeople.values.Nodup :=
  Dict.nodup_values_of_keyed (fun pending => pending.message.personId) formed.keyed

/-- Pending entries with one message are one entry. -/
theorem PersonWindow.WellFormed.message_injective (formed : window.WellFormed) :
    ∀ a ∈ window.pendingPeople.values, ∀ b ∈ window.pendingPeople.values,
      a.message = b.message → a = b := by
  intro a inside b other same
  have unique := Dict.eq_of_keyed (fun pending : PendingPerson => pending.message.personId)
    formed.keyed
  exact unique a inside b other (congrArg PersonAvailability.personId same)

/-- Pending entries with one key are one entry. -/
theorem BatchCoordinator.rank_injective (self : BatchCoordinator)
    (formed : window.WellFormed) :
    ∀ a ∈ window.pendingPeople.values, ∀ b ∈ window.pendingPeople.values,
      self.rank a = self.rank b → a = b := by
  intro a inside b other same
  have numbers : a.sequenceNumber = b.sequenceNumber :=
    congrArg Prod.snd (toLex.injective same)
  exact formed.values_distinct inside other numbers

end Keys

/-- In every reachable state with an open window, `choose_people_to_run` returns one list
for all orders in which the entries of the window may come: as many entries as fit, those
smallest by last selection and sequence number, in strictly increasing order. -/
theorem choose_people_order_free (config : OrchestratorConfig) (events : List Event)
    (window : PersonWindow)
    (opened : ((coordinator config).run .new events).currentWindow = some window) :
    let self := (coordinator config).run .new events
    ∃ chosen, IsSmallest self.rank config.maxPeoplePerWindow window.pendingPeople.values chosen ∧
      ∀ people : List PendingPerson, people.Perm window.pendingPeople.values →
        self.choosePeopleToRun people config.maxPeoplePerWindow = chosen := by
  intro self
  have formed := (run_wellFormed config events window opened).1
  have distinct := self.rank_injective formed
  refine ⟨_, take_sortByKey_isSmallest self.rank config.maxPeoplePerWindow formed.values_nodup
    distinct, fun people arranged => ?_⟩
  have sorted := sortByKey_eq_of_perm self.rank arranged.symm distinct
  rw [BatchCoordinator.choosePeopleToRun, ← sorted]

/-- Amy is first to join a window and joins it again after Bob. -/
def rejoined : List Event :=
  [.person { personId := "amy" } 1, .person { personId := "bob" } 2,
    .person { personId := "amy" } 3]

/-- The window then open, with Amy where she was and her latest number. -/
def rejoinedWindow : PersonWindow where
  openedAt := 1
  pendingPeople := ⟨[("amy", ⟨{ personId := "amy" }, 3⟩), ("bob", ⟨{ personId := "bob" }, 2⟩)],
    by decide⟩
  sequenceNumber := 3

/-- With one place the window of Amy and Bob has one selection, in either order. -/
theorem choose_people_order_free_rejoined :
    let self := (coordinator ⟨1, 5, 60, by decide, by decide⟩).run .new rejoined
    ∃ chosen, IsSmallest self.rank 1 rejoinedWindow.pendingPeople.values chosen ∧
      ∀ people : List PendingPerson, people.Perm rejoinedWindow.pendingPeople.values →
        self.choosePeopleToRun people 1 = chosen :=
  choose_people_order_free ⟨1, 5, 60, by decide, by decide⟩ rejoined rejoinedWindow
    (by decide +kernel)

end Rust

end BossWorker
