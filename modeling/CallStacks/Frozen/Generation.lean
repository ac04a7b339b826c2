import CallStacks.Frozen.Failure

/-!
Heap generations, numbered from the youngest up, and the floors that frozen frames carry. A floor
is a lower bound on the generation of everything its frame refers to, or negative while the frame
belongs to a stack that runs.
-/

namespace CallStacks.Frozen

abbrev Generation := Int

namespace Generation

/-- The floor of a frame that belongs to a running stack. -/
def active : Generation := -1

/-- The nursery. -/
def youngest : Generation := 0

/-- The last number that a generation may take. -/
def last : Generation := 0x7fffffff

def isActive (floor : Generation) : Bool := floor < 0

/-- The floor one collection later, no higher than `oldest`. An active floor stays; a floor at the
last number cannot be counted on. -/
def aged (floor oldest : Generation) : Except Fault Generation :=
  if floor.isActive then .ok floor
  else if floor = last then .error .overflow
  else .ok (min (floor + 1) oldest)

/-- The generation of an object for the purposes of a floor: between the youngest and `oldest`. -/
def bounded (generation oldest : Generation) : Except Fault Generation :=
  if oldest < youngest then .error .invertedBounds else .ok (min (max youngest generation) oldest)

theorem aged_of_active {floor : Generation} (active : floor.isActive) (oldest : Generation) :
    floor.aged oldest = .ok floor := by simp [aged, active]

end Generation
end CallStacks.Frozen
