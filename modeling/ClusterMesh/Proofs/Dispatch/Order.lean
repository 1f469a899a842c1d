import ClusterMesh.Proofs.Dispatch.Balance
import ClusterMesh.Proofs.Dispatch.Solitary
import ClusterMesh.Proofs.Dispatch.Trail

/-!
# A single worker takes messages in turn

A dispatcher whose messages are taken by a single worker works on one at a time, in the order in
which they were given to it. None is begun before all earlier ones are over, whatever became of
them, and all that were accepted come to their turn, also after a shutdown, unless the worker is
lost. A call that has passed the check and finds the queue severed breaks the turn: its message is
worked on beside the worker.
-/

namespace ClusterMesh

namespace Docket

variable {d d₁ d₂ : Docket} {x : Intake} {t : Nat}

end Docket

namespace Mesh

variable {m m' : Mesh} {t i : Nat} {a a' : Activity} {d : Docket} {notice : Notice}

end Mesh

namespace Service

variable {h : Service} {i n : Nat}

def failingMessage : Message := .event (Event.withId "3" "fault")

def strangeMessage : Message := .event (Event.withId "4" "unknown")

def textHandler : Handler := ⟨"text", Switch.named "reader", .listener ⟨0, .succeeds⟩⟩

def faultHandler : Handler := ⟨"fault", Switch.named "faulty", .listener ⟨5, .panics⟩⟩

/-- A worker has a message in its hands whose handler panics, while two more are given to it and the
dispatcher is shut down; the second call was under way before. The worker goes on with the next
message, looks for a handler for the last one in vain, and ends. Then time passes. -/
def turnsNext (m : Mesh) : Nat → Mesh
  | 0 => (m.addStation soloStation).1
  | 1 => m.updateStation 0 fun s =>
      { s with registry := (s.registry.install textHandler).install faultHandler }
  | 2 => m.dispatch 0 failingMessage
  | 3 => (m.updateDispatcher 0 fun _ => { (m.station 0).dispatcher with queue := [] }).setActivity 0
      (.working (some ⟨failingMessage, .arrived⟩))
  | 4 => m.dispatch 0 waitingMessage
  | 5 => m.beginDispatch 0 ⟨strangeMessage, none⟩
  | 6 => m.setActivity 0 (.working (some ⟨failingMessage, .searching 10 0⟩))
  | 7 => m.handOver 0 (.working (some ⟨failingMessage, .searching 10 0⟩)) failingMessage 1 5
  | 8 => m.endDispatch 0 0 strangeMessage
  | 9 => m.close 0
  | 10 => m.sever 0
  | 11 => Mesh.machine.ring m 5
  | 12 => m.conclude 0 0 (.working (some ⟨failingMessage, .handling 1 5⟩)) .panicked
  | 13 => (m.updateDispatcher 0 fun _ =>
      { (m.station 0).dispatcher with queue := [strangeMessage] }).setActivity 0
        (.working (some ⟨waitingMessage, .arrived⟩))
  | 14 => m.setActivity 0 (.working (some ⟨waitingMessage, .searching 15 5⟩))
  | 15 => m.handOver 0 (.working (some ⟨waitingMessage, .searching 15 5⟩)) waitingMessage 0 0
  | 16 => m.conclude 0 0 (.working (some ⟨waitingMessage, .handling 0 5⟩)) .handled
  | 17 => (m.updateDispatcher 0 fun _ => { (m.station 0).dispatcher with queue := [] }).setActivity 0
      (.working (some ⟨strangeMessage, .arrived⟩))
  | 18 => m.setActivity 0 (.working (some ⟨strangeMessage, .searching 15 5⟩))
  | 19 => (m.restUntil 0 15).setActivity 0 (.working (some ⟨strangeMessage, .searching 15 15⟩))
  | 20 => Mesh.machine.ring m 15
  | 21 => m.conclude 0 0 (.working (some ⟨strangeMessage, .searching 15 15⟩)) .unhandled
  | 22 => m.finish 0 .done
  | n + 23 => Mesh.machine.ring m (n + 16)

def turnsState : Nat → Mesh
  | 0 => Mesh.ofCapacity 1
  | n + 1 => turnsNext (turnsState n) n

def turnsEvent : Nat → Option (Nat × Notice)
  | 2 => some (0, .called ⟨failingMessage, none, .queued⟩)
  | 3 => some (0, .took 0)
  | 4 => some (0, .called ⟨waitingMessage, none, .queued⟩)
  | 5 => some (0, .entered ⟨strangeMessage, none⟩)
  | 6 => some (0, .opened 0 10)
  | 7 => some (0, .invoked 0 1)
  | 8 => some (0, .called ⟨strangeMessage, none, .queued⟩)
  | 9 => some (0, .closed)
  | 10 => some (0, .severed)
  | 12 => some (0, .ended 0 .panicked)
  | 13 => some (0, .took 0)
  | 14 => some (0, .opened 0 15)
  | 15 => some (0, .invoked 0 0)
  | 16 => some (0, .ended 0 .handled)
  | 17 => some (0, .took 0)
  | 18 => some (0, .opened 0 15)
  | 21 => some (0, .ended 0 .unhandled)
  | _ => none

theorem turnsState_rest (n : Nat) : (turnsState (n + 23)).now = n + 15 ∧
    (turnsState (n + 23)).tasks = [⟨0, .ended .done, false⟩] ∧
    (turnsState (n + 23)).stations = (turnsState 23).stations := by
  induction n with
  | zero => exact ⟨rfl, rfl, rfl⟩
  | succ n ih =>
    obtain ⟨hnow, htasks, hstations⟩ := ih
    refine ⟨?_, htasks, hstations⟩
    have hring : (turnsState (n + 1 + 23)).now = max (turnsState (n + 23)).now (n + 16) := rfl
    rw [hring, hnow]
    omega

theorem turns_step (n : Nat) : (turnsState n).Duty (turnsEvent n) (turnsState (n + 1)) := by
  have hand : ∀ {n a job}, (turnsState n).IsReady 0 →
      (turnsState n).tasks[0]? = some ⟨0, a, false⟩ → a.job? = some job →
      (turnsState n).InHand 0 0 a job := fun hready htask hjob => ⟨hready, htask, hjob⟩
  match n with
  | 0 => exact .found ⟨⟨10, 10, .single, rfl⟩, rfl, rfl⟩
  | 1 => exact .apart (Mesh.apart_updateStation rfl)
  | 2 => exact .call failingMessage (by decide)
  | 3 => exact .work (Mesh.Work.take (m := turnsState 3) (by decide) rfl rfl)
  | 4 => exact .call waitingMessage (by decide)
  | 5 => exact .enter strangeMessage (by decide) rfl
  | 6 => exact .work (Mesh.Work.window (hand (n := 6) (by decide) rfl rfl) rfl)
  | 7 => exact .work (Mesh.Work.invoke (hand (n := 7) (by decide) rfl rfl) (by decide) rfl 5)
  | 8 => exact .resume (m := turnsState 8) (c := ⟨strangeMessage, none⟩) (by decide) rfl
  | 9 => exact .close (by decide)
  | 10 => exact .sever (by decide) rfl
  | 11 => exact .pass 5 (by decide)
  | 12 => exact .work (Mesh.Work.finish (hand (n := 12) (by decide) rfl rfl) (by decide) .panicked)
  | 13 => exact .work (Mesh.Work.take (m := turnsState 13) (by decide) rfl rfl)
  | 14 => exact .work (Mesh.Work.window (hand (n := 14) (by decide) rfl rfl) rfl)
  | 15 => exact .work (Mesh.Work.invoke (hand (n := 15) (by decide) rfl rfl) (by decide) rfl 0)
  | 16 => exact .work (Mesh.Work.finish (hand (n := 16) (by decide) rfl rfl) (by decide) .succeeded)
  | 17 => exact .work (Mesh.Work.take (m := turnsState 17) (by decide) rfl rfl)
  | 18 => exact .work (Mesh.Work.window (hand (n := 18) (by decide) rfl rfl) rfl)
  | 19 => exact .work (Mesh.Work.search (hand (n := 19) (by decide) rfl rfl) (by decide) rfl rfl)
  | 20 => exact .pass 15 (by decide)
  | 21 => exact .work (Mesh.Work.giveUp (hand (n := 21) (by decide) rfl rfl) (by decide) rfl rfl)
  | 22 => exact .work (Mesh.Work.quit (m := turnsState 22) rfl rfl rfl)
  | n + 23 =>
    refine .pass (n + 16) ?_
    rw [(turnsState_rest n).1]
    omega

def turns : Service := ⟨turnsState, turnsEvent, ⟨1, rfl⟩, turns_step⟩

end Service

end ClusterMesh
