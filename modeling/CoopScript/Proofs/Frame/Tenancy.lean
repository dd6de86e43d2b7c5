import CoopScript.Proofs.Frame.Chain
import CoopScript.Proofs.Frame.Lasting
import Mathlib.Algebra.GroupWithZero.Nat

/-!
Arenas over their whole history. Whoever makes a frame holds it, may hold it once more, and gives back only what it holds;
then the counts, the chains of frames, the empty slots and the names of frames that are gone stay right, whatever the order
of all this.
-/
set_option autoImplicit false
namespace CoopScript

-- What can be asked of an arena that may change it.
inductive FrameOp where
  | push (parent : FrameId) (isFunction : Bool) (bindings : Bindings)
  | retain (id : FrameId)
  | release (id : FrameId)
  | setVariable (id : FrameId) (name : String) (value : Value)
  | assign (id : FrameId) (name : String) (value : Value)
  | setReturn (id : FrameId) (value : Value)
  | takeReturn (id : FrameId)

namespace FrameOp

def frame : FrameOp → FrameId
  | push id _ _ | retain id | release id | setVariable id _ _ | assign id _ _ | setReturn id _ | takeReturn id => id

-- The arena as it is afterwards; one that is refused stays as it was.
def leave (arena : Arena) : Except Cause Arena → Arena × Option Cause
  | .ok after => (after, none)
  | .error cause => (arena, some cause)

def run (arena : Arena) : FrameOp → Arena × Option Cause
  | push parent isFunction bindings => leave arena ((arena.push parent isFunction bindings).map Prod.snd)
  | retain id => leave arena (arena.retain id)
  | release id => arena.release id
  | setVariable id name value => leave arena (arena.setVariable id name value)
  | assign id name value => leave arena (arena.assign id name value)
  | setReturn id value => leave arena (arena.setReturn id value)
  | takeReturn id => leave arena ((arena.takeReturn id).map Prod.snd)

def holders (arena : Arena) (holds : List FrameId) : FrameOp → List FrameId
  | push parent isFunction bindings =>
    match arena.push parent isFunction bindings with
    | .ok (id, _) => id :: holds
    | .error _ => holds
  | retain id =>
    match arena.retain id with
    | .ok _ => id :: holds
    | .error _ => holds
  | release id => holds.erase id
  | _ => holds

def Allowed (holds : List FrameId) : FrameOp → Prop
  | release id => id ∈ holds
  | _ => True

end FrameOp

def Arena.lost (arena after : Arena) : List FrameId :=
  (arena.picked fun slot => slot.frame.isSome).filter fun id => !after.isLive id

/-- An arena with the holds on its frames, one entry each, the names of all frames that were freed, and the greatest number
of frames that have lived at once. -/
structure Tenancy where
  arena : Arena
  holds : List FrameId
  retired : List FrameId
  peak : Nat

namespace Tenancy

def initial : Tenancy := ⟨.initial, [Arena.root], [], Arena.initial.liveCount⟩

def perform (tenancy : Tenancy) (op : FrameOp) : Tenancy :=
  let after := (op.run tenancy.arena).1
  { arena := after
    holds := op.holders tenancy.arena tenancy.holds
    retired := tenancy.arena.lost after ++ tenancy.retired
    peak := max tenancy.peak after.liveCount }

-- What holders can bring about.
inductive Reached : Tenancy → Prop where
  | start : Reached initial
  | step (tenancy : Tenancy) (op : FrameOp) (reached : Reached tenancy) (allowed : op.Allowed tenancy.holds) :
      Reached (tenancy.perform op)

-- How often the frame of a slot was freed.
def frees (tenancy : Tenancy) (index : Nat) : Nat := tenancy.retired.countP fun id => id.index = index

-- What is known of a tenancy at every moment. The generation of a slot counts how often its frame was freed, as far
-- as it can count.
structure Sound (tenancy : Tenancy) : Prop where
  kept : tenancy.arena.Kept tenancy.holds
  dated : ∀ index slot, tenancy.arena.slots[index]? = some slot → slot.generation = UInt32.ofNat (tenancy.frees index)
  earlier : ∀ id ∈ tenancy.retired, id.index < tenancy.arena.slots.size ∧
    ∃ count < tenancy.frees id.index, id.generation = UInt32.ofNat count
  peak : tenancy.arena.slots.size ≤ tenancy.peak

end Tenancy

namespace Arena
variable (arena after : Arena)

theorem picked_live (id : FrameId) : id ∈ arena.picked (fun slot => slot.frame.isSome) ↔ arena.isLive id = true := by
  refine (arena.picked_found _ id).trans ?_
  rw [live_found]
  constructor
  · rintro ⟨⟨generation, content⟩, read, same, some⟩
    obtain ⟨frame, rfl⟩ := Option.isSome_iff_exists.mp some
    obtain rfl : generation = id.generation := same
    exact ⟨frame, (frame_found arena id frame).mpr read⟩
  · rintro ⟨frame, found⟩
    exact ⟨_, (frame_found arena id frame).mp found, rfl, rfl⟩

theorem lost_found (id : FrameId) : id ∈ arena.lost after ↔ arena.isLive id = true ∧ after.isLive id = false := by
  unfold lost
  rw [List.mem_filter, picked_live, Bool.not_eq_true']

theorem lost_distinct : (arena.lost after).Nodup := (arena.picked_distinct _).filter _

theorem lost_nothing (stays : ∀ id, arena.isLive id = true → after.isLive id = true) : arena.lost after = [] := by
  refine List.eq_nil_iff_forall_not_mem.mpr fun id member => ?_
  obtain ⟨live, dead⟩ := (arena.lost_found after id).mp member
  rw [stays id live] at dead
  cases dead

-- A hold that is given back frees the frames at the inner end of the chain that it kept alive.
theorem released_lost (id : FrameId) (chain : List (FrameId × Frame)) (line : arena.Chain id chain)
    (released : Released chain arena after) : (arena.lost after).Perm ((spent chain).map Prod.fst) := by
  have found := chain_found arena id chain line
  have within : ∀ entry ∈ spent chain, entry ∈ chain := fun entry member => (List.takeWhile_prefix _).subset member
  refine (List.perm_ext_iff_of_nodup (arena.lost_distinct after)
    ((chain_distinct arena id chain line).sublist ((List.takeWhile_sublist _).map _))).mpr fun other => ?_
  rw [lost_found, live_found]
  constructor
  · rintro ⟨⟨frame, read⟩, dead⟩
    by_contra absent
    have elsewhere : ∀ entry ∈ spent chain, entry.1 ≠ other := fun entry member same =>
      absent (List.mem_map.mpr ⟨entry, member, same⟩)
    have alive : after.isLive other = true := by
      rw [live_found]
      by_cases last : ∃ entry, survivor? chain = some entry ∧ entry.1 = other
      · obtain ⟨entry, survives, rfl⟩ := last
        exact ⟨_, released.lowered entry survives⟩
      · exact ⟨frame, by rw [released.others other elsewhere fun entry survives same => last ⟨entry, survives, same⟩, read]⟩
    rw [dead] at alive
    cases alive
  · intro member
    obtain ⟨entry, spentHere, rfl⟩ := List.mem_map.mp member
    exact ⟨⟨entry.2, found entry (within entry spentHere)⟩, by simp [isLive, released.gone entry spentHere]⟩

theorem aged_perm (gone others : List FrameId) (same : gone.Perm others) (aged : Aged gone arena after) :
    Aged others arena after :=
  ⟨aged.size, fun index slot read => by
    obtain ⟨content, later⟩ := aged.slots index slot read
    exact ⟨content, by rw [later, same.countP_eq]⟩⟩

theorem full_count (owners : List FrameId) (kept : arena.Kept owners) (full : arena.free = []) :
    arena.liveCount = arena.slots.size := by
  refine Array.countP_eq_size.mpr fun slot member => ?_
  obtain ⟨index, read⟩ := Array.getElem?_of_mem member
  obtain ⟨generation, content⟩ := slot
  cases content with
  | some frame => rfl
  | none =>
    have empty := (kept.free index).mpr ⟨generation, read⟩
    rw [full] at empty
    cases empty

theorem update_slots (id : FrameId) (change : Frame → Frame) (updated : arena.update id change = .ok after) :
    Aged [] arena after ∧ ∀ other, after.isLive other = arena.isLive other := by
  unfold update at updated
  split at updated
  next frame found =>
    cases updated
    exact ⟨aged_set arena id _, fun other => live_set arena id other frame _ found⟩
  next => cases updated

-- A new frame goes into an empty slot, or into a new one if there is none.
theorem push_slots (parent id : FrameId) (isFunction : Bool) (bindings : Bindings)
    (pushed : arena.push parent isFunction bindings = .ok (id, after)) :
    Aged [] arena after ∨ after.free = [] ∧ after.slots.size = arena.slots.size + 1 ∧
      ∀ index slot, after.slots[index]? = some slot → index = arena.slots.size ∧ slot.generation = 0 ∨
        ∃ old, arena.slots[index]? = some old ∧ old.generation = slot.generation := by
  unfold push at pushed
  cases retained : arena.retain parent with
  | error cause => simp [retained, Except.map] at pushed
  | ok held =>
    simp only [retained, Except.map, Except.ok.injEq] at pushed
    obtain ⟨frame, found, rfl⟩ := retain_found arena held parent retained
    have same := aged_set arena parent { frame with holds := frame.holds + 1 }
    generalize arena.setFrame parent.index { frame with holds := frame.holds + 1 } = held at pushed same
    unfold allocate at pushed
    cases free : held.free with
    | cons index rest =>
      rw [free] at pushed
      cases pushed
      have reused := aged_set held ⟨index, 0⟩ (.fresh (some parent) isFunction bindings)
      exact .inl (aged_trans arena held _ [] [] same ⟨reused.size, reused.slots⟩)
    | nil =>
      rw [free] at pushed
      cases pushed
      refine .inr ⟨rfl, by simp [same.size], fun index slot read => ?_⟩
      simp only [Array.getElem?_push] at read
      split at read
      next here =>
        cases read
        exact .inl ⟨here.trans same.size, rfl⟩
      next =>
        -- The other slots have kept their generations.
        have bound := (Array.getElem?_eq_some_iff.mp read).1
        rw [same.size] at bound
        obtain ⟨content, later⟩ := same.slots index _ (Array.getElem?_eq_getElem bound)
        rw [read] at later
        exact .inr ⟨_, Array.getElem?_eq_getElem bound, by simp [Option.some.inj later]⟩

end Arena

namespace Tenancy
variable (tenancy : Tenancy) (after : Arena) (holds : List FrameId)

theorem frees_more (lost : List FrameId) (index : Nat) :
    (lost ++ tenancy.retired).countP (fun id => id.index = index) =
      lost.countP (fun id => id.index = index) + tenancy.frees index :=
  List.countP_append

theorem sound_aged (sound : tenancy.Sound) (kept : after.Kept holds)
    (aged : Arena.Aged (tenancy.arena.lost after) tenancy.arena after) :
    Sound ⟨after, holds, tenancy.arena.lost after ++ tenancy.retired, max tenancy.peak after.liveCount⟩ := by
  refine ⟨kept, fun index slot read => ?_, fun id member => ?_, ?_⟩
  · have bound := (Array.getElem?_eq_some_iff.mp read).1
    rw [aged.size] at bound
    have before := Array.getElem?_eq_getElem bound
    obtain ⟨content, later⟩ := aged.slots index _ before
    rw [read] at later
    have known := sound.dated index _ before
    rw [Option.some.inj later, frees, frees_more, UInt32.ofNat_add, ← known, UInt32.add_comm]
  · rw [frees, frees_more, aged.size]
    rcases List.mem_append.mp member with gone | before
    · obtain ⟨live, _⟩ := (tenancy.arena.lost_found after id).mp gone
      obtain ⟨frame, found⟩ := (Arena.live_found _ id).mp live
      have known := sound.dated id.index _ ((Arena.frame_found _ id frame).mp found)
      have counted : 0 < (tenancy.arena.lost after).countP fun other => other.index = id.index :=
        List.countP_pos_iff.mpr ⟨id, gone, by simp⟩
      exact ⟨Arena.live_index_bound _ id live, tenancy.frees id.index, by omega, known⟩
    · obtain ⟨bound, count, fewer, same⟩ := sound.earlier id before
      exact ⟨bound, count, by omega, same⟩
  · rw [aged.size]
    exact sound.peak.trans (Nat.le_max_left _ _)

theorem sound_same (sound : tenancy.Sound) (kept : after.Kept holds) (aged : Arena.Aged [] tenancy.arena after)
    (stays : ∀ id, tenancy.arena.isLive id = true → after.isLive id = true) :
    Sound ⟨after, holds, tenancy.arena.lost after ++ tenancy.retired, max tenancy.peak after.liveCount⟩ :=
  tenancy.sound_aged after holds sound kept (by rwa [tenancy.arena.lost_nothing after stays])

theorem sound_push (sound : tenancy.Sound) (parent id : FrameId) (isFunction : Bool) (bindings : Bindings)
    (pushed : tenancy.arena.push parent isFunction bindings = .ok (id, after)) :
    Sound ⟨after, id :: tenancy.holds, tenancy.arena.lost after ++ tenancy.retired,
      max tenancy.peak after.liveCount⟩ := by
  have kept := Arena.kept_push _ after tenancy.holds parent id isFunction bindings sound.kept pushed
  have stays : ∀ other, tenancy.arena.isLive other = true → after.isLive other = true := by
    intro other live
    obtain ⟨fresh, old, oldFound, read⟩ :=
      Arena.push_found _ after tenancy.holds parent id isFunction bindings sound.kept pushed
    obtain ⟨frame, found⟩ := (Arena.live_found _ other).mp live
    rw [Arena.live_found, read]
    split
    · exact ⟨_, rfl⟩
    · split
      · exact ⟨_, rfl⟩
      · exact ⟨frame, found⟩
  rcases Arena.push_slots _ after parent id isFunction bindings pushed with aged | ⟨full, grown, slots⟩
  · exact tenancy.sound_same after _ sound kept aged stays
  · refine ⟨kept, fun index slot read => ?_, fun other member => ?_, ?_⟩
    · have nothing := tenancy.arena.lost_nothing after stays
      simp only [frees, nothing, List.nil_append]
      rcases slots index slot read with ⟨rfl, new⟩ | ⟨old, before, same⟩
      · -- No frame was ever freed in a slot that was not there.
        have none : tenancy.frees tenancy.arena.slots.size = 0 := by
          refine List.countP_eq_zero.mpr fun gone member here => ?_
          have bound := (sound.earlier gone member).1
          rw [of_decide_eq_true here] at bound
          exact Nat.lt_irrefl _ bound
        rw [new, show List.countP _ tenancy.retired = 0 from none]
        rfl
      · exact same ▸ sound.dated index old before
    · simp only [frees, tenancy.arena.lost_nothing after stays, List.nil_append] at member ⊢
      obtain ⟨bound, earlier⟩ := sound.earlier other member
      exact ⟨by rw [grown]; omega, earlier⟩
    · rw [← after.full_count _ kept full]
      exact Nat.le_max_right _ _

theorem sound_update (sound : tenancy.Sound) (id : FrameId) (change : Frame → Frame)
    (updated : tenancy.arena.update id change = .ok after) (kept : after.Kept holds) :
    Sound ⟨after, holds, tenancy.arena.lost after ++ tenancy.retired, max tenancy.peak after.liveCount⟩ := by
  obtain ⟨aged, live⟩ := Arena.update_slots _ after id change updated
  exact tenancy.sound_same after holds sound kept aged fun other => (live other).trans

theorem sound_changed (sound : tenancy.Sound) (id : FrameId) (change : Frame → Frame)
    (updated : tenancy.arena.update id change = .ok after) (sameParent : ∀ frame, (change frame).parent = frame.parent)
    (sameHolds : ∀ frame, (change frame).holds = frame.holds) :
    Sound ⟨after, tenancy.holds, tenancy.arena.lost after ++ tenancy.retired, max tenancy.peak after.liveCount⟩ :=
  tenancy.sound_update after _ sound id change updated
    (Arena.kept_update _ after _ id change sound.kept sameParent sameHolds updated)

theorem sound_refused (sound : tenancy.Sound) :
    Sound ⟨tenancy.arena, tenancy.holds, tenancy.arena.lost tenancy.arena ++ tenancy.retired,
      max tenancy.peak tenancy.arena.liveCount⟩ :=
  tenancy.sound_same tenancy.arena tenancy.holds sound sound.kept
    ⟨rfl, fun index slot read => ⟨slot.frame, by simp [read]⟩⟩ fun _ live => live

-- What a holder gives back is given back without a fault.
theorem release_released (sound : tenancy.Sound) (id : FrameId) (held : id ∈ tenancy.holds) :
    ∃ chain after, tenancy.arena.Chain id chain ∧ tenancy.arena.release id = (after, none) ∧
      Arena.Released chain tenancy.arena after ∧
      Arena.Aged (tenancy.arena.lost after) tenancy.arena after ∧ after.Kept (tenancy.holds.erase id) := by
  obtain ⟨depth, anchored⟩ := sound.kept.anchored id (sound.kept.live id held)
  obtain ⟨chain, line, length⟩ := Arena.chain_of_anchored _ id depth anchored
  have bound := Arena.anchored_depth_bound _ depth id anchored
  obtain ⟨after, run, released, aged⟩ := Arena.release_chain_released tenancy.arena tenancy.arena.reach id chain line
    (by unfold Arena.reach; omega)
  obtain ⟨kept, same, keptAfter, _⟩ := Arena.kept_release tenancy.arena (tenancy.holds.erase id) id
    (Arena.kept_perm _ _ _ (List.perm_cons_erase held) sound.kept)
  have alike : (kept, (none : Option Cause)) = (after, none) := same.symm.trans run
  obtain rfl : kept = after := congrArg Prod.fst alike
  exact ⟨chain, kept, line, run, released,
    Arena.aged_perm _ _ _ _ (Arena.released_lost _ kept id chain line released).symm aged, keptAfter⟩

theorem sound_step (sound : tenancy.Sound) (op : FrameOp) (allowed : op.Allowed tenancy.holds) :
    (tenancy.perform op).Sound := by
  have refused := tenancy.sound_refused sound
  unfold perform
  cases op with
  | push parent isFunction bindings =>
    simp only [FrameOp.run, FrameOp.holders]
    cases pushed : tenancy.arena.push parent isFunction bindings with
    | error cause => exact refused
    | ok result => exact tenancy.sound_push result.2 sound parent result.1 isFunction bindings pushed
  | retain id =>
    simp only [FrameOp.run, FrameOp.holders]
    cases retained : tenancy.arena.retain id with
    | error cause => exact refused
    | ok after =>
      exact tenancy.sound_update after _ sound id _ retained (Arena.kept_retain _ after _ id sound.kept retained)
  | release id =>
    obtain ⟨chain, after, _, run, _, aged, kept⟩ := tenancy.release_released sound id allowed
    simp only [FrameOp.run, FrameOp.holders, run]
    exact tenancy.sound_aged after _ sound kept aged
  | setVariable id name value =>
    simp only [FrameOp.run, FrameOp.holders]
    cases bound : tenancy.arena.setVariable id name value with
    | error cause => exact refused
    | ok after => exact tenancy.sound_changed after sound id _ bound (fun _ => rfl) fun _ => rfl
  | assign id name value =>
    simp only [FrameOp.run, FrameOp.holders]
    cases bound : tenancy.arena.assign id name value with
    | error cause => exact refused
    | ok after =>
      unfold Arena.assign at bound
      split at bound
      next target _ => exact tenancy.sound_changed after sound target _ bound (fun _ => rfl) fun _ => rfl
      next => cases bound
  | setReturn id value =>
    simp only [FrameOp.run, FrameOp.holders]
    cases returned : tenancy.arena.setReturn id value with
    | error cause => exact refused
    | ok after =>
      unfold Arena.setReturn at returned
      split at returned
      next function _ => exact tenancy.sound_changed after sound function _ returned (fun _ => rfl) fun _ => rfl
      next => cases returned
      next => cases returned
  | takeReturn id =>
    simp only [FrameOp.run, FrameOp.holders]
    cases found : tenancy.arena.frame? id with
    | none =>
      simp only [Arena.takeReturn, found]
      exact refused
    | some frame =>
      have taken : tenancy.arena.update id (fun frame => { frame with returned := none }) =
          .ok (tenancy.arena.setFrame id.index { frame with returned := none }) := by
        simp only [Arena.update, found]
      simp only [Arena.takeReturn, found]
      exact tenancy.sound_changed _ sound id _ taken (fun _ => rfl) fun _ => rfl

theorem reached_sound (reached : Reached tenancy) : tenancy.Sound := by
  induction reached with
  | start =>
    refine ⟨Arena.kept_initial, fun index slot read => ?_, (fun _ none => by cases none), Nat.le_refl _⟩
    cases index with
    | zero =>
      cases read
      rfl
    | succ index => cases read
  | step tenancy op _ allowed ih => exact tenancy.sound_step ih op allowed

-- The names of frames that are gone name nothing, as long as the generations of their slots have not come round.
theorem retired_gone (sound : tenancy.Sound) (few : ∀ index, tenancy.frees index < 2 ^ 32) (id : FrameId)
    (member : id ∈ tenancy.retired) : tenancy.arena.frame? id = none := by
  cases found : tenancy.arena.frame? id with
  | none => rfl
  | some frame =>
    have known := sound.dated id.index _ ((Arena.frame_found _ id frame).mp found)
    obtain ⟨_, count, fewer, same⟩ := sound.earlier id member
    have bound := few id.index
    have numbers := congrArg UInt32.toNat (same.symm.trans known)
    rw [UInt32.toNat_ofNat_of_lt' (by simpa using fewer.trans bound), UInt32.toNat_ofNat_of_lt' (by simpa using bound)]
      at numbers
    omega

end Tenancy

end CoopScript
