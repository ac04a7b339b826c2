import CallStacks.Setting

/-!
Settings of the freezer.
-/

namespace CallStacks.Frozen

structure Settings where
  /-- Keep floors, so that collections pass over chains that refer to older generations only. -/
  aging : Bool := true
  /-- Outgoing argument bytes copied with every frame, whether its callee takes them or not. -/
  minArgBytes : UInt32 := 0
  deriving DecidableEq, Repr

namespace Settings

def agingVariable : String := "OTTER_TASKLET_AGING"

def ofEnvironment (environment : Environment) : Settings :=
  { aging := Setting.read environment agingVariable Setting.flag true }

/-- The same settings without floors: every collection looks at every chain. -/
def withoutAging (settings : Settings) : Settings := { settings with aging := false }

end Settings
end CallStacks.Frozen
