import ClusterMesh.Mesh.Calling
import ClusterMesh.Mesh.Dispatching

/-!
# Running a mesh

What each task does when it runs, and how a mesh goes on in time. Tasks that can run at the
same instant run in the order in which they were woken.
-/

namespace ClusterMesh.Mesh

def runHandling (m : Mesh) (t i : Nat) (id : HandlerId) (message : Message) (due : Option Nat) :
    Mesh :=
  let instant := due.getD (m.now + m.waitOf i id message)
  if m.now < instant then
    let m := m.setActivity t (.handling id message (some instant))
    if due.isNone then m.setAlarm instant t else m
  else
    let after := m.handle i id message
    after.1.finish t (.handled after.2)

/-- End a task that was aborted: a loop leaves the bus, and a call waits no longer. -/
def drop (m : Mesh) (t i : Nat) (a : Activity) : Mesh :=
  let m :=
    match a with
    | .receiving (some subscriber) => { m with bus := (m.bus.unsubscribe subscriber).leave t }
    | .executing _ (.sending ticket _ _) | .executing _ (.waiting ticket _ _) =>
      m.updateStore i (fun s => s.update ticket Pending.abandon)
    | _ => m
  m.finish t .cancelled

def run (m : Mesh) (t : Nat) : Mesh :=
  match m.tasks[t]? with
  | none => m
  | some ⟨i, activity, aborted⟩ =>
    match activity with
    | .ended _ => m
    | activity =>
      if aborted then m.drop t i activity
      else
        match activity with
        | .receiving subscriber => m.runLoop t i subscriber
        | .dispatching job => m.runDispatch t i job
        | .working job => m.runWorker t i job
        | .reaping ticket delay due => m.runReaper t i ticket delay due
        | .executing c stage => m.runCall t i c stage
        | .handling id message due => m.runHandling t i id message due
        | .ended _ => m

def machine : Machine Mesh := ⟨agenda, fun m a => { m with agenda := a }, run⟩

def settle (m : Mesh) : Mesh := machine.settle m

def advance (m : Mesh) (duration : Nat) : Mesh := machine.advance m duration

def await (m : Mesh) (t : Nat) : Mesh :=
  if m.hasEnded t then m else machine.await (fun m => m.hasEnded t) m

def perform (m : Mesh) (i : Nat) (a : Activity) : Mesh × Nat :=
  let t := m.tasks.length
  ((run { m with tasks := m.tasks ++ [⟨i, a, false⟩] } t).await t, t)

end ClusterMesh.Mesh
