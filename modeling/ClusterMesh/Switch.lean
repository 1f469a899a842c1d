import ClusterMesh.Text.Blank

/-!
# Switches

A switch is on or off. Producers, consumers and handlers each have one.
-/

namespace ClusterMesh

inductive SwitchStatus
  | on
  | off
deriving DecidableEq, Repr, Inhabited

namespace SwitchStatus

def isOn (s : SwitchStatus) : Bool := s == .on

def ofBool (b : Bool) : SwitchStatus := if b then .on else .off

@[simp] theorem isOn_ofBool (b : Bool) : (ofBool b).isOn = b := by
  cases b <;> rfl

@[simp] theorem ofBool_isOn (s : SwitchStatus) : ofBool s.isOn = s := by
  cases s <;> rfl

def text : SwitchStatus → String
  | on => "ON"
  | off => "OFF"

/-- Read a status: `on`, `off`, `true` or `false`, blanks at the ends and the case of ASCII
letters aside. -/
def parse (value : String) : Option SwitchStatus :=
  let word := String.ofList ((Text.trim value).toList.map Char.toLower)
  if word = "on" ∨ word = "true" then some .on
  else if word = "off" ∨ word = "false" then some .off
  else none

end SwitchStatus

structure Switch where
  name : String
  status : SwitchStatus
deriving DecidableEq, Repr, Inhabited

namespace Switch

def named (name : String) : Switch := ⟨name, .on⟩

def isOn (s : Switch) : Bool := s.status.isOn

def set (s : Switch) (status : SwitchStatus) : Switch := { s with status }

end Switch

end ClusterMesh
