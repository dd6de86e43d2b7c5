import CoopScript.Proofs.Frame.Release
import CoopScript.Proofs.Value.Plain

set_option autoImplicit false
namespace CoopScript.Arena

-- A frame that lives before and after has the same frame around it and is of the same kind.
def Lasting (before after : Arena) : Prop :=
  ∀ id frame later, before.frame? id = some frame → after.frame? id = some later →
    later.parent = frame.parent ∧ later.isFunction = frame.isFunction

-- `outer` is the frame `inner` or one of those around it.
inductive Encloses (arena : Arena) (outer : FrameId) : FrameId → Prop where
  | self (live : arena.isLive outer = true) : Encloses arena outer outer
  | around (inner parent : FrameId) (frame : Frame) (found : arena.frame? inner = some frame)
      (inside : frame.parent = some parent) (further : Encloses arena outer parent) :
      Encloses arena outer inner

theorem lasting_refl (arena : Arena) : arena.Lasting arena := by
  intro id frame later found again
  obtain rfl := Option.some.inj (found.symm.trans again)
  exact ⟨rfl, rfl⟩

theorem lasting_symm (before after : Arena) (lasting : before.Lasting after) : after.Lasting before := by
  intro id frame later found again
  obtain ⟨parent, kind⟩ := lasting id later frame again found
  exact ⟨parent.symm, kind.symm⟩

theorem lasting_set (arena : Arena) (id : FrameId) (old frame : Frame)
    (found : arena.frame? id = some old) (sameParent : frame.parent = old.parent)
    (sameKind : frame.isFunction = old.isFunction) : arena.Lasting (arena.setFrame id.index frame) := by
  intro other before later read reread
  rw [frame_set arena id other old frame found] at reread
  split at reread
  next same =>
    subst same
    cases reread
    obtain rfl := Option.some.inj (found.symm.trans read)
    exact ⟨sameParent, sameKind⟩
  next => exact lasting_refl arena other before later read reread

theorem lasting_shrinks (arena after : Arena) (shrinks : arena.Shrinks after) : arena.Lasting after := by
  intro id frame later found reread
  obtain ⟨earlier, earlierFound, same⟩ := shrinks id later reread
  obtain rfl := Option.some.inj (found.symm.trans earlierFound)
  exact ⟨same.2.1, same.2.2.1⟩

theorem push_found (arena after : Arena) (owners : List FrameId) (parent id : FrameId)
    (isFunction : Bool) (bindings : Bindings) (kept : arena.Kept owners)
    (pushed : arena.push parent isFunction bindings = .ok (id, after)) :
    arena.frame? id = none ∧ ∃ old, arena.frame? parent = some old ∧
      ∀ other, after.frame? other =
        if other = id then some (.fresh (some parent) isFunction bindings)
        else if other = parent then some { old with holds := old.holds + 1 } else arena.frame? other := by
  unfold push at pushed
  cases retained : arena.retain parent with
  | error cause => simp [retained, Except.map] at pushed
  | ok held =>
    have heldKept := kept_retain arena held owners parent kept retained
    simp only [retained, Except.map, Except.ok.injEq] at pushed
    have available := kept_free_empty held (parent :: owners) heldKept
    have fresh := allocated_fresh held (.fresh (some parent) isFunction bindings) available
    have read := fun other =>
      frame_allocated held (.fresh (some parent) isFunction bindings) other available
    rw [pushed] at fresh read
    unfold retain update at retained
    cases found : arena.frame? parent with
    | none => simp [found] at retained
    | some old =>
      simp only [found, Except.ok.injEq] at retained
      subst retained
      rw [frame_set arena parent id old _ found] at fresh
      refine ⟨?_, old, rfl, fun other => ?_⟩
      · split at fresh
        next => cases fresh
        next => exact fresh
      · rw [read, frame_set arena parent other old _ found]

theorem lasting_push (arena after : Arena) (owners : List FrameId) (parent id : FrameId)
    (isFunction : Bool) (bindings : Bindings) (kept : arena.Kept owners)
    (pushed : arena.push parent isFunction bindings = .ok (id, after)) : arena.Lasting after := by
  obtain ⟨fresh, old, oldFound, read⟩ :=
    push_found arena after owners parent id isFunction bindings kept pushed
  intro other frame later found reread
  rw [read] at reread
  split at reread
  next same =>
    rw [same, fresh] at found
    cases found
  next =>
    split at reread
    next same =>
      cases reread
      rw [same] at found
      obtain rfl := Option.some.inj (oldFound.symm.trans found)
      exact ⟨rfl, rfl⟩
    next => exact lasting_refl arena other frame later found reread

theorem retain_found (arena after : Arena) (id : FrameId) (retained : arena.retain id = .ok after) :
    ∃ frame, arena.frame? id = some frame ∧
      after = arena.setFrame id.index { frame with holds := frame.holds + 1 } := by
  unfold retain update at retained
  split at retained
  next frame found =>
    cases retained
    exact ⟨frame, found, rfl⟩
  next => cases retained

theorem lasting_retain (arena after : Arena) (id : FrameId) (retained : arena.retain id = .ok after) :
    arena.Lasting after := by
  obtain ⟨frame, found, rfl⟩ := retain_found arena after id retained
  exact lasting_set arena id frame _ found rfl rfl

def Holds (good : FrameId → Frame → Prop) (arena : Arena) : Prop :=
  ∀ id frame, arena.frame? id = some frame → good id frame

section Holds
variable (good : FrameId → Frame → Prop) (arena after : Arena) (holds : arena.Holds good)
include holds

theorem holds_set (id : FrameId) (old frame : Frame) (found : arena.frame? id = some old) (fine : good id frame) :
    (arena.setFrame id.index frame).Holds good := by
  intro other later read
  rw [frame_set arena id other old frame found] at read
  split at read
  next same =>
    cases read
    exact same ▸ fine
  next => exact holds other later read

variable (blind : ∀ id frame later, SameFrame later frame → good id frame → good id later)
include blind

theorem holds_retain (id : FrameId) (retained : arena.retain id = .ok after) : after.Holds good := by
  obtain ⟨frame, found, rfl⟩ := retain_found arena after id retained
  exact holds_set good arena holds id frame _ found
    (blind id frame { frame with holds := frame.holds + 1 } ⟨rfl, rfl, rfl, rfl⟩ (holds id frame found))

theorem holds_shrinks (shrinks : arena.Shrinks after) : after.Holds good := by
  intro id later read
  obtain ⟨frame, found, same⟩ := shrinks id later read
  exact blind id frame later same (holds id frame found)

theorem holds_push (owners : List FrameId) (parent id : FrameId) (isFunction : Bool) (bindings : Bindings)
    (kept : arena.Kept owners) (fine : good id (.fresh (some parent) isFunction bindings))
    (pushed : arena.push parent isFunction bindings = .ok (id, after)) : after.Holds good := by
  obtain ⟨_, old, oldFound, read⟩ := push_found arena after owners parent id isFunction bindings kept pushed
  intro other later reread
  rw [read] at reread
  split at reread
  next same =>
    cases reread
    exact same ▸ fine
  next =>
    split at reread
    next same =>
      cases reread
      exact same ▸ blind parent old _ ⟨rfl, rfl, rfl, rfl⟩ (holds parent old oldFound)
    next => exact holds other later reread

end Holds

theorem plain_blind (_ : FrameId) (frame later : Frame) (same : SameFrame later frame) (plain : frame.Plain) :
    later.Plain :=
  ⟨same.1 ▸ plain.bindings, same.2.2.2 ▸ plain.returned⟩

theorem plain_set (arena : Arena) (id : FrameId) (old frame : Frame) (plain : arena.Plain)
    (found : arena.frame? id = some old) (framePlain : frame.Plain) : (arena.setFrame id.index frame).Plain :=
  holds_set (fun _ frame => frame.Plain) arena plain id old frame found framePlain

theorem plain_retain (arena after : Arena) (id : FrameId) (plain : arena.Plain)
    (retained : arena.retain id = .ok after) : after.Plain :=
  holds_retain (fun _ frame => frame.Plain) arena after plain plain_blind id retained

theorem plain_shrinks (arena after : Arena) (plain : arena.Plain) (shrinks : arena.Shrinks after) :
    after.Plain :=
  holds_shrinks (fun _ frame => frame.Plain) arena after plain plain_blind shrinks

theorem plain_push (arena after : Arena) (owners : List FrameId) (parent id : FrameId)
    (isFunction : Bool) (bindings : Bindings) (kept : arena.Kept owners) (plain : arena.Plain)
    (bindingsPlain : bindings.All Value.Plain)
    (pushed : arena.push parent isFunction bindings = .ok (id, after)) : after.Plain :=
  holds_push (fun _ frame => frame.Plain) arena after plain plain_blind owners parent id isFunction bindings kept
    ⟨bindingsPlain, fun _ none => by cases none⟩ pushed

theorem encloses_trans (arena : Arena) (outer middle inner : FrameId)
    (left : arena.Encloses outer middle) (right : arena.Encloses middle inner) :
    arena.Encloses outer inner := by
  induction right with
  | self => exact left
  | around inner parent frame found inside _ ih => exact .around inner parent frame found inside ih

theorem encloses_live (arena : Arena) (outer inner : FrameId) (encloses : arena.Encloses outer inner) :
    arena.isLive outer = true ∧ arena.isLive inner = true := by
  induction encloses with
  | self live => exact ⟨live, live⟩
  | around inner parent frame found _ _ ih => exact ⟨ih.1, (live_found arena inner).mpr ⟨frame, found⟩⟩

-- A frame keeps the frames around it for as long as it lives.
theorem encloses_lasting (before after : Arena) (owners : List FrameId) (outer inner : FrameId)
    (lasting : before.Lasting after) (kept : after.Kept owners) (live : after.isLive inner = true)
    (encloses : before.Encloses outer inner) : after.Encloses outer inner := by
  induction encloses with
  | self => exact .self live
  | around inner parent frame found inside _ ih =>
    obtain ⟨later, laterFound⟩ := (live_found after inner).mp live
    have sameParent := (lasting inner frame later found laterFound).1.trans inside
    obtain ⟨depth, anchored⟩ := kept.anchored inner live
    have parentLive := parent_live after depth inner parent later anchored laterFound sameParent
    exact .around inner parent later laterFound sameParent (ih parentLive)

-- Whatever lives is held by an owner, if only as one of the frames around the owner's.
theorem live_enclosed (arena : Arena) (owners : List FrameId) (id : FrameId) (kept : arena.Kept owners)
    (live : arena.isLive id = true) : ∃ owner ∈ owners, arena.Encloses id owner := by
  -- A frame that no owner holds has one inside it, which lies deeper; depth is bounded.
  obtain ⟨depth, anchored⟩ := kept.anchored id live
  generalize left_eq : arena.slots.size - depth = left
  induction left generalizing depth id with
  | zero =>
    have bound := anchored_depth_bound arena depth id anchored
    omega
  | succ left ih =>
    obtain ⟨frame, found⟩ := (live_found arena id).mp live
    by_cases owned : id ∈ owners
    · exact ⟨id, owned, .self live⟩
    · have balance := kept.balance id frame found
      have positive := kept.positive id frame found
      rw [List.count_eq_zero_of_not_mem owned] at balance
      obtain ⟨child, content, childFound, inside⟩ := child_of_positive arena id (by omega)
      obtain ⟨owner, member, encloses⟩ := ih child ((live_found arena child).mpr ⟨content, childFound⟩)
        (depth + 1) (.inside depth child id content childFound inside anchored) (by omega)
      exact ⟨owner, member, encloses_trans arena id child owner
        (.around child id content childFound inside (.self live)) encloses⟩

end CoopScript.Arena
