/-!
Commands to a worker pool, and their words.
-/

namespace SolidTrace

inductive CommandKind
  | update | render | exit
deriving DecidableEq, Repr

namespace CommandKind

def name : CommandKind → String
  | update => "update"
  | render => "render"
  | exit => "exit"

def code : CommandKind → UInt32
  | update => 1
  | render => 2
  | exit => 3

/-- The kind with a code; unknown codes mean `exit`. -/
def ofCode (code : UInt32) : CommandKind :=
  if code = 1 then update else if code = 2 then render else exit

end CommandKind

structure Command where
  kind : CommandKind
  phase : UInt16
deriving DecidableEq, Repr

namespace Command

def update (phase : UInt16) : Command := ⟨.update, phase⟩

def render (phase : UInt16) : Command := ⟨.render, phase⟩

def exit : Command := ⟨.exit, 0⟩

/-- The word of a command: the kind in the high half, the phase in the low one. -/
def pack (c : Command) : UInt32 := c.kind.code <<< 16 ||| c.phase.toUInt32

def unpack (word : UInt32) : Command := ⟨.ofCode (word >>> 16), word.toUInt16⟩

end Command

end SolidTrace
