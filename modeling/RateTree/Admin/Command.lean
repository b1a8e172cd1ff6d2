/-!
# Admin commands

The commands a rate limiter gives to the firmware.
-/

namespace RateTree

/-- A command to the firmware: reset the limiter, or add, update or delete one contract. -/
inductive AdminCommand where
  | init
  | add
  | update
  | delete
deriving DecidableEq

namespace AdminCommand

/-- The number of a command in a message. -/
def id : AdminCommand → UInt8
  | .init => 0x0F
  | .add => 0x10
  | .update => 0x11
  | .delete => 0x12

/-- The command of a number; any other number has none. -/
def ofId? (id : UInt8) : Option AdminCommand :=
  if id = 0x0F then some .init
  else if id = 0x10 then some .add
  else if id = 0x11 then some .update
  else if id = 0x12 then some .delete
  else none

theorem ofId?_id (command : AdminCommand) : ofId? command.id = some command := by
  cases command <;> rfl

/-- How errors speak of a command. -/
def title : AdminCommand → String
  | .init => "RL init"
  | .add => "add SLA"
  | .update => "update SLA"
  | .delete => "delete SLA"

end AdminCommand

end RateTree
