import CoopScript.Proofs.Frame.Lasting
import CoopScript.Proofs.Stage.Memory

set_option autoImplicit false
namespace CoopScript.Arena

theorem found_set (arena : Arena) (index : Nat) (frame later : Frame) (id : FrameId)
    (found : (arena.setFrame index frame).frame? id = some later) : later = frame ∨ arena.frame? id = some later := by
  have read := (frame_found _ id later).mp found
  simp only [setFrame, Array.getElem?_modify] at read
  split at read
  · obtain ⟨slot, _, same⟩ := Option.map_eq_some_iff.mp read
    exact .inl (Option.some.inj (congrArg Slot.frame same)).symm
  · exact .inr ((frame_found arena id later).mpr read)

theorem found_allocated (arena : Arena) (frame later : Frame) (id : FrameId)
    (found : (arena.allocate frame).2.frame? id = some later) : later = frame ∨ arena.frame? id = some later := by
  unfold allocate at found
  split at found
  · exact found_set arena _ frame later id found
  · have read := (frame_found _ id later).mp found
    simp only [Array.getElem?_push] at read
    split at read
    · exact .inl (Option.some.inj (congrArg Slot.frame (Option.some.inj read))).symm
    · exact .inr ((frame_found arena id later).mpr read)

def Keeps (holds : Value → Prop) (arena : Arena) : Prop :=
  arena.Holds fun _ frame => frame.bindings.All holds ∧ ∀ value ∈ frame.returned, holds value

variable {holds : Value → Prop} {arena after : Arena}

theorem keeps_weaken {other : Value → Prop} (kept : arena.Keeps holds) (weaker : ∀ value, holds value → other value) :
    arena.Keeps other :=
  fun id frame found =>
    ⟨fun entry member => weaker entry.2 ((kept id frame found).1 entry member),
      fun value returned => weaker value ((kept id frame found).2 value returned)⟩

variable (kept : arena.Keeps holds)
include kept

theorem keeps_shrinks (shrinks : arena.Shrinks after) : after.Keeps holds :=
  holds_shrinks _ arena after kept (fun _ _ _ same old => ⟨same.1 ▸ old.1, same.2.2.2 ▸ old.2⟩) shrinks

theorem keeps_release (id : FrameId) : (arena.release id).1.Keeps holds :=
  keeps_shrinks kept (release_chain_shrinks arena arena.reach id)

theorem keeps_update (id : FrameId) (change : Frame → Frame)
    (fine : ∀ frame : Frame, frame.bindings.All holds ∧ (∀ value ∈ frame.returned, holds value) →
      (change frame).bindings.All holds ∧ ∀ value ∈ (change frame).returned, holds value)
    (done : arena.update id change = .ok after) : after.Keeps holds := by
  obtain ⟨frame, found, rfl⟩ := update_done arena after id change done
  exact holds_set _ arena kept id frame _ found (fine frame (kept id frame found))

theorem keeps_retain (id : FrameId) (done : arena.retain id = .ok after) : after.Keeps holds :=
  keeps_update kept id (fun frame => { frame with holds := frame.holds + 1 }) (fun _ old => old) done

theorem keeps_push (parent id : FrameId) (isFunction : Bool) (bindings : Bindings) (fine : bindings.All holds)
    (done : arena.push parent isFunction bindings = .ok (id, after)) : after.Keeps holds := by
  unfold push at done
  cases retained : arena.retain parent with
  | error cause =>
    rw [retained] at done
    cases done
  | ok middle =>
    rw [retained] at done
    obtain rfl : after = (middle.allocate (.fresh (some parent) isFunction bindings)).2 :=
      (congrArg Prod.snd (Except.ok.inj done)).symm
    intro other later found
    rcases found_allocated middle _ later other found with rfl | old
    · exact ⟨fine, fun _ none => by cases none⟩
    · exact keeps_retain kept parent retained other later old

theorem keeps_look_up (id : FrameId) (name : String) (value : Value) (done : arena.lookUp id name = .ok value) :
    holds value := by
  unfold lookUp at done
  split at done
  next found searched =>
    cases done
    obtain ⟨place, frame, known, listed⟩ := search_found arena _ arena.reach id value searched
    exact NameMap.all_found _ frame.bindings (kept place frame known).1 name value listed
  next => cases done
  next => cases done

theorem keeps_set_variable (id : FrameId) (name : String) (value : Value) (fine : holds value)
    (done : arena.setVariable id name value = .ok after) : after.Keeps holds :=
  keeps_update kept id (fun frame => { frame with bindings := frame.bindings.insert name value })
    (fun frame old => ⟨NameMap.all_insert _ frame.bindings old.1 name value fine, old.2⟩) done

theorem keeps_assign (id : FrameId) (name : String) (value : Value) (fine : holds value)
    (done : arena.assign id name value = .ok after) : after.Keeps holds := by
  unfold assign at done
  split at done
  next target _ => exact keeps_set_variable kept target name value fine done
  next => cases done

theorem keeps_set_return (id : FrameId) (value : Value) (fine : holds value)
    (done : arena.setReturn id value = .ok after) : after.Keeps holds := by
  unfold setReturn at done
  split at done
  next function _ =>
    exact keeps_update kept function (fun frame => { frame with returned := some value })
      (fun _ old => ⟨old.1, fun other same => Option.some.inj same ▸ fine⟩) done
  next => cases done
  next => cases done

theorem keeps_take_return (id : FrameId) (value : Option Value) (done : arena.takeReturn id = .ok (value, after)) :
    (∀ result, value = some result → holds result) ∧ after.Keeps holds := by
  unfold takeReturn at done
  split at done
  next frame found =>
    cases done
    exact ⟨(kept id frame found).2, holds_set _ arena kept id frame _ found ⟨(kept id frame found).1, fun _ none => by cases none⟩⟩
  next => cases done

end CoopScript.Arena
