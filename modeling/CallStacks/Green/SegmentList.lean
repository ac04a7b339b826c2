import CallStacks.Green.Segment

/-!
The segments of one green thread, oldest first, with a cursor on the one in use. Segments past the
cursor are kept for reuse. Where new blocks come to lie is for the surroundings to say: they give
an address for each allocation by its number.
-/

namespace CallStacks.Green

structure SegmentList where
  segments : List Segment := []
  cursor : Option Nat := none
  /-- The number of allocations ever made. -/
  allocated : Nat := 0
  deriving DecidableEq, Repr

/-- An operation on a segment list; a refusal comes with the list as it then is. -/
abbrev SegmentM := EStateM Refusal SegmentList

namespace SegmentList

def current? (list : SegmentList) : Option Segment := list.cursor.bind (list.segments[·]?)

/-- The place after the cursor. -/
def next (list : SegmentList) : Nat :=
  match list.cursor with
  | some index => index + 1
  | none => 0

/-- The segment after the cursor, if it has room for `size` bytes. -/
def reusable? (list : SegmentList) (size : Word) : Option Segment :=
  list.segments[list.next]?.filter (size ≤ ·.size)

end SegmentList

namespace SegmentM

/-- Move the cursor on to a segment with room for `size` bytes: the one after it if that is large
enough, or else a new one put in between. -/
def advance (place : Nat → Word) (size redZone : Word) : SegmentM Segment := do
  let list ← get
  match list.reusable? size with
  | some segment =>
    set { list with cursor := some list.next }
    return segment
  | none =>
    match Segment.make (place list.allocated) size redZone with
    | .error refusal => throw refusal
    | .ok segment =>
      set ({ segments := list.segments.insertIdx list.next segment
             cursor := some list.next
             allocated := list.allocated + 1 } : SegmentList)
      return segment

def retreat : SegmentM Segment := do
  let list ← get
  match list.cursor with
  | some (index + 1) =>
    match list.segments[index]? with
    | some segment =>
      set { list with cursor := some index }
      return segment
    | none => throw .underflow
  | _ => throw .underflow

def clear : SegmentM Unit := modify ({ · with segments := [], cursor := none })

end SegmentM
end CallStacks.Green
