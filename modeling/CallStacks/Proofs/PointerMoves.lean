import CallStacks.Proofs.Readiness

/-! Frames whose pointers have followed several moves. While a chain is resumed frame by frame, the frames
that are left follow each move in turn. -/

namespace CallStacks.Frozen

variable {shift : Shift} {shifts : List Shift} {original current swept after : FrozenFrame}

def FrozenFrame.Owns (frame : FrozenFrame) (addr : Word) : Prop :=
  frame.buffer.base.toNat ≤ addr.toNat ∧ addr.toNat < frame.buffer.base.toNat + frame.buffer.size

instance {frame : FrozenFrame} {addr : Word} : Decidable (frame.Owns addr) := inferInstanceAs (Decidable (_ ∧ _))

theorem FrozenFrame.covers_shiftTo {frame : FrozenFrame} {sp addr : Word} (small : frame.buffer.size < UInt64.size) :
    (frame.shiftTo sp).covers addr = true ↔ frame.Owns addr := by
  rw [Shift.covers_iff]
  simp only [shiftTo, Shift.between, UInt64.toNat_ofNat', Nat.mod_eq_of_lt small, Owns]
  omega

/-- Where a pointer gets that follows some moves, one after another. -/
def Shift.advance (shifts : List Shift) (word : Word) : Word :=
  shifts.foldl (fun word shift => (shift.move? word).getD word) word

/-- The frame has followed some moves: each of its pointers by itself, and nothing else has changed. -/
structure Advanced (shifts : List Shift) (original current : FrozenFrame) : Prop where
  layout : current.layout = original.layout
  base : current.buffer.base = original.buffer.base
  size : current.buffer.size = original.buffer.size
  slots : ∀ slot ∈ original.places, ∃ word, original.buffer.read slot = .ok word ∧
    current.buffer.read slot = .ok (Shift.advance shifts word)
  rest : ∀ index, (∀ slot ∈ original.places, ¬ Buffer.Covered slot index) →
    current.buffer.bytes[index]? = original.buffer.bytes[index]?

theorem Advanced.start (readable : ∀ slot ∈ original.places, ∃ word, original.buffer.read slot = .ok word) :
    Advanced [] original original := by
  refine ⟨rfl, rfl, rfl, fun slot within => ?_, fun _ _ => rfl⟩
  obtain ⟨word, read⟩ := readable slot within
  exact ⟨word, read, read⟩

theorem Advanced.congr (advanced : Advanced shifts original current) (same : after.content = current.content) :
    Advanced shifts original after := by
  have buffer : after.buffer = current.buffer := congrArg Prod.fst same
  have layout : after.layout = current.layout := congrArg (·.2.1) same
  obtain ⟨layout', base, size, slots, rest⟩ := advanced
  exact ⟨layout.trans layout', buffer ▸ base, buffer ▸ size, buffer ▸ slots, buffer ▸ rest⟩

theorem Advanced.shiftTo (advanced : Advanced shifts original current) (sp : Word) :
    current.shiftTo sp = original.shiftTo sp := by
  rw [FrozenFrame.shiftTo, FrozenFrame.destination, advanced.layout, advanced.base, advanced.size]
  rfl

theorem Advanced.places_eq (advanced : Advanced shifts original current) : current.places = original.places := by
  rw [FrozenFrame.places, advanced.layout, FrozenFrame.places]

theorem Advanced.ready (advanced : Advanced shifts original current) (whole : original.layout.unrecorded = 0) :
    current.Ready := by
  refine ⟨advanced.layout ▸ whole, fun slot within => ?_⟩
  rw [advanced.places_eq] at within
  obtain ⟨word, _, now⟩ := advanced.slots slot within
  exact ((Buffer.read_eq_ok_iff _ _ _).mp now).1

theorem FrozenFrame.sweep_spec (whole : current.layout.unrecorded = 0)
    (done : current.sweep shift = .ok swept) :
    (∃ left, Buffer.relocateAll shift current.places current.buffer = .ok (left, swept.buffer)) ∧
      swept = { current with buffer := swept.buffer } := by
  have each : ∀ (slots : List InteriorSlot) (frame : FrozenFrame), frame.layout.unrecorded = 0 →
      slots.foldlM (fun frame slot => frame.relocate slot.offset shift) frame = .ok swept →
      (∃ left, Buffer.relocateAll shift (slots.map (·.offset.toNat)) frame.buffer = .ok (left, swept.buffer)) ∧
        swept = { frame with buffer := swept.buffer } := by
    intro slots
    induction slots with
    | nil =>
      intro frame _ done
      cases done
      exact ⟨⟨[], rfl⟩, rfl⟩
    | cons slot rest ih =>
      intro frame whole done
      rw [List.foldlM_cons] at done
      obtain ⟨next, first, others⟩ := CallStacks.Failure.bind_eq_ok.mp done
      unfold FrozenFrame.relocate at first
      obtain ⟨place, placed, first⟩ := CallStacks.Failure.bind_eq_ok.mp first
      obtain ⟨⟨buffer, flag⟩, relocated, first⟩ := CallStacks.Failure.bind_eq_ok.mp first
      cases first
      obtain ⟨⟨left, more⟩, same⟩ := ih { frame with buffer } whole others
      have here : place = slot.offset.toNat := by
        unfold Layout.bufferOffset at placed
        rw [whole] at placed
        split at placed
        · cases placed
          rw [UInt32.sub_zero]
        · cases placed
      subst here
      refine ⟨⟨if flag then left else slot.offset.toNat :: left, ?_⟩, same⟩
      simp only [List.map_cons, Buffer.relocateAll, relocated, more, bind, Except.bind, pure, Except.pure]
  exact each current.layout.interiors current whole done

theorem Advanced.sweep (advanced : Advanced shifts original current) (whole : original.layout.unrecorded = 0)
    (apart : original.places.Pairwise Buffer.Apart) (done : current.sweep shift = .ok swept) :
    Advanced (shifts ++ [shift]) original swept := by
  obtain ⟨⟨left, moved⟩, same⟩ := FrozenFrame.sweep_spec (advanced.layout ▸ whole) done
  rw [advanced.places_eq] at moved
  have moved := Buffer.relocateAll_spec apart moved
  have layout : swept.layout = current.layout := by rw [same]
  refine ⟨layout.trans advanced.layout, moved.base.trans advanced.base, moved.size.trans advanced.size,
    fun slot within => ?_, fun index outside => ?_⟩
  · obtain ⟨word, was, now⟩ := advanced.slots slot within
    obtain ⟨word', read, read', _⟩ := moved.slots slot within
    obtain rfl : Shift.advance shifts word = word' := Except.ok.inj (now.symm.trans read)
    refine ⟨word, was, ?_⟩
    rw [read', Shift.advance, Shift.advance, List.foldl_append]
    rfl
  · rw [moved.rest index outside]
    exact advanced.rest index outside

end CallStacks.Frozen
