import CallStacks.Setting

/-!
Sizes of the segments of green stacks.
-/

namespace CallStacks.Green

structure Settings where
  /-- The least usable size of a segment that is added when a stack grows. -/
  minSegment : Word := 8 * 1024
  /-- Bytes kept free below the usable part of every segment. -/
  redZone : Word := 4 * 1024
  /-- The least usable size of the first segment. -/
  initialSegment : Word := 256 * 1024
  deriving DecidableEq, Repr

namespace Settings

def segmentVariable : String := "OTTER_GREEN_STACK_SEGMENT"

def initialVariable : String := "OTTER_GREEN_STACK_INITIAL"

def ofEnvironment (environment : Environment) : Settings :=
  let fallback : Settings := {}
  { fallback with
    minSegment :=
      Setting.read environment segmentVariable Setting.byteCount fallback.minSegment
    initialSegment :=
      Setting.read environment initialVariable Setting.byteCount fallback.initialSegment }

end Settings
end CallStacks.Green
