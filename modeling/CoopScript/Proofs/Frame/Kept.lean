import CoopScript.Proofs.Frame.Slot
import Mathlib.Data.Fintype.Card

set_option autoImplicit false
namespace CoopScript.Arena

-- A frame with `depth` frames around it, every one of them live.
inductive Anchored (arena : Arena) : Nat → FrameId → Prop where
  | outermost (id : FrameId) (frame : Frame) (found : arena.frame? id = some frame)
      (outer : frame.parent = none) : Anchored arena 0 id
  | inside (depth : Nat) (id parent : FrameId) (frame : Frame)
      (found : arena.frame? id = some frame) (inner : frame.parent = some parent)
      (around : Anchored arena depth parent) : Anchored arena (depth + 1) id

structure Kept (owners : List FrameId) (arena : Arena) : Prop where
  free : ∀ index, index ∈ arena.free ↔ ∃ generation, arena.slots[index]? = some ⟨generation, none⟩
  distinct : arena.free.Nodup
  live : ∀ id ∈ owners, arena.isLive id = true
  anchored : ∀ id, arena.isLive id = true → ∃ depth, arena.Anchored depth id
  balance : ∀ id frame, arena.frame? id = some frame →
    frame.holds = owners.count id + arena.children id
  positive : ∀ id frame, arena.frame? id = some frame → 0 < frame.holds

theorem anchored_live (arena : Arena) (depth : Nat) (id : FrameId)
    (anchored : arena.Anchored depth id) : arena.isLive id = true := by
  cases anchored with
  | outermost _ frame found _ => exact (live_found arena id).mpr ⟨frame, found⟩
  | inside _ _ _ frame found _ _ => exact (live_found arena id).mpr ⟨frame, found⟩

theorem anchored_depth_unique (arena : Arena) (depth other : Nat) (id : FrameId)
    (anchored : arena.Anchored depth id) (again : arena.Anchored other id) : depth = other := by
  induction anchored generalizing other with
  | outermost id frame found outer =>
    cases again with
    | outermost => rfl
    | inside _ _ parent otherFrame otherFound inner _ =>
      have same : frame = otherFrame := Option.some.inj (found.symm.trans otherFound)
      rw [same, inner] at outer
      cases outer
  | inside depth id parent frame found inner _ ih =>
    cases again with
    | outermost _ otherFrame otherFound outer =>
      have same : frame = otherFrame := Option.some.inj (found.symm.trans otherFound)
      rw [← same, inner] at outer
      cases outer
    | inside otherDepth _ otherParent otherFrame otherFound otherInner around =>
      have same : frame = otherFrame := Option.some.inj (found.symm.trans otherFound)
      subst same
      have sameParent : parent = otherParent := Option.some.inj (inner.symm.trans otherInner)
      subst sameParent
      exact congrArg (· + 1) (ih otherDepth around)

theorem anchored_outward (arena : Arena) (depth level : Nat) (id : FrameId)
    (anchored : arena.Anchored depth id) (bound : level ≤ depth) :
    ∃ outer, arena.Anchored level outer := by
  induction anchored with
  | outermost id frame found outer =>
    obtain rfl : level = 0 := by omega
    exact ⟨id, .outermost id frame found outer⟩
  | inside depth id parent frame found inner around ih =>
    by_cases top : level = depth + 1
    · subst top
      exact ⟨id, .inside depth id parent frame found inner around⟩
    · exact ih (by omega)

theorem live_index_unique (arena : Arena) (left right : FrameId) (leftLive : arena.isLive left = true)
    (rightLive : arena.isLive right = true) (same : left.index = right.index) : left = right := by
  obtain ⟨leftFrame, leftFound⟩ := (live_found arena left).mp leftLive
  obtain ⟨rightFrame, rightFound⟩ := (live_found arena right).mp rightLive
  rw [frame_found, same] at leftFound
  rw [frame_found, leftFound] at rightFound
  simp only [Option.some.injEq, Slot.mk.injEq] at rightFound
  obtain ⟨leftIndex, leftGeneration⟩ := left
  obtain ⟨rightIndex, rightGeneration⟩ := right
  simp_all

theorem live_index_bound (arena : Arena) (id : FrameId) (live : arena.isLive id = true) :
    id.index < arena.slots.size := by
  obtain ⟨frame, found⟩ := (live_found arena id).mp live
  rw [frame_found] at found
  exact (Array.getElem?_eq_some_iff.mp found).1

-- No chain of frames is longer than there are slots: frames at different depths sit in different slots.
theorem anchored_depth_bound (arena : Arena) (depth : Nat) (id : FrameId)
    (anchored : arena.Anchored depth id) : depth < arena.slots.size := by
  have outward : ∀ level : Fin (depth + 1), ∃ outer, arena.Anchored level outer := fun level =>
    anchored_outward arena depth level id anchored (by omega)
  choose outer around using outward
  let place (level : Fin (depth + 1)) : Fin arena.slots.size :=
    ⟨(outer level).index, live_index_bound arena _ (anchored_live arena _ _ (around level))⟩
  have injective : Function.Injective place := by
    intro left right same
    have sameFrame : outer left = outer right :=
      live_index_unique arena _ _ (anchored_live arena _ _ (around left))
        (anchored_live arena _ _ (around right)) (congrArg Fin.val same)
    have sameDepth := around left
    rw [sameFrame] at sameDepth
    exact Fin.ext (anchored_depth_unique arena _ _ _ sameDepth (around right))
  have bound := Fintype.card_le_of_injective place injective
  simp only [Fintype.card_fin] at bound
  omega

theorem search_answers {α : Type} (arena : Arena) (ask : FrameId → Frame → Option α) (depth : Nat)
    (id : FrameId) (anchored : arena.Anchored depth id) (fuel : Nat) (enough : depth < fuel) :
    ∃ answer, arena.searchChain ask fuel id = .ok answer := by
  induction anchored generalizing fuel with
  | outermost id frame found outer =>
    obtain ⟨fuel, rfl⟩ : ∃ rest, fuel = rest + 1 := ⟨fuel - 1, by omega⟩
    cases asked : ask id frame with
    | none => exact ⟨none, by simp [searchChain, found, asked, outer]⟩
    | some answer => exact ⟨some answer, by simp [searchChain, found, asked]⟩
  | inside depth id parent frame found inner _ ih =>
    obtain ⟨fuel, rfl⟩ : ∃ rest, fuel = rest + 1 := ⟨fuel - 1, by omega⟩
    cases asked : ask id frame with
    | none =>
      obtain ⟨answer, searched⟩ := ih fuel (by omega)
      exact ⟨answer, by simp [searchChain, found, asked, inner, searched]⟩
    | some answer => exact ⟨some answer, by simp [searchChain, found, asked]⟩

theorem function_frame_answers (arena : Arena) (owners : List FrameId) (id : FrameId)
    (kept : arena.Kept owners) (live : arena.isLive id = true) :
    ∃ answer, arena.functionFrame id = .ok answer := by
  obtain ⟨depth, anchored⟩ := kept.anchored id live
  have bound := anchored_depth_bound arena depth id anchored
  exact search_answers arena (fun candidate frame => if frame.isFunction then some candidate else none)
    depth id anchored arena.reach (by unfold reach; omega)

theorem kept_free_empty (arena : Arena) (owners : List FrameId) (kept : arena.Kept owners) :
    arena.FreeEmpty := fun index member => (kept.free index).mp member

theorem kept_perm (arena : Arena) (owners others : List FrameId) (same : owners.Perm others)
    (kept : arena.Kept owners) : arena.Kept others where
  free := kept.free
  distinct := kept.distinct
  live id member := kept.live id (same.mem_iff.mpr member)
  anchored := kept.anchored
  balance id frame found := by rw [kept.balance id frame found, same.count_eq]
  positive := kept.positive

theorem anchored_elsewhere (arena after : Arena) (gone : FrameId) (depth : Nat) (id : FrameId)
    (anchored : arena.Anchored depth id) (different : id ≠ gone)
    (lonely : ∀ other frame, arena.frame? other = some frame → frame.parent ≠ some gone)
    (keeps : ∀ other frame, other ≠ gone → arena.frame? other = some frame →
      ∃ later, after.frame? other = some later ∧ later.parent = frame.parent) :
    after.Anchored depth id := by
  induction anchored with
  | outermost id frame found outer =>
    obtain ⟨later, laterFound, sameParent⟩ := keeps id frame different found
    exact .outermost id later laterFound (sameParent.trans outer)
  | inside depth id parent frame found inner _ ih =>
    obtain ⟨later, laterFound, sameParent⟩ := keeps id frame different found
    have parentStays : parent ≠ gone := fun same => lonely id frame found (same ▸ inner)
    exact .inside depth id parent later laterFound (sameParent.trans inner) (ih parentStays)

theorem anchored_keeps (arena after : Arena) (depth : Nat) (id : FrameId)
    (anchored : arena.Anchored depth id)
    (keeps : ∀ other frame, arena.frame? other = some frame →
      ∃ later, after.frame? other = some later ∧ later.parent = frame.parent) :
    after.Anchored depth id := by
  induction anchored with
  | outermost id frame found outer =>
    obtain ⟨later, laterFound, sameParent⟩ := keeps id frame found
    exact .outermost id later laterFound (sameParent.trans outer)
  | inside depth id parent frame found inner _ ih =>
    obtain ⟨later, laterFound, sameParent⟩ := keeps id frame found
    exact .inside depth id parent later laterFound (sameParent.trans inner) ih

theorem live_set (arena : Arena) (id other : FrameId) (old frame : Frame)
    (found : arena.frame? id = some old) :
    (arena.setFrame id.index frame).isLive other = arena.isLive other := by
  unfold isLive
  rw [frame_set arena id other old frame found]
  split
  next same => subst same; simp [found]
  next => rfl

theorem free_set (arena : Arena) (id : FrameId) (old frame : Frame)
    (found : arena.frame? id = some old) (index : Nat) :
    (∃ generation, (arena.setFrame id.index frame).slots[index]? = some ⟨generation, none⟩) ↔
      ∃ generation, arena.slots[index]? = some ⟨generation, none⟩ := by
  have read := (frame_found arena id old).mp found
  by_cases here : id.index = index
  · subst here
    simp [setFrame, Array.getElem?_modify, read]
  · simp [setFrame, Array.getElem?_modify, here]

-- Exchanging a frame for one with the same parent keeps the accounts if it carries its own.
theorem kept_set (arena : Arena) (owners others : List FrameId) (id : FrameId) (old frame : Frame)
    (kept : arena.Kept owners) (found : arena.frame? id = some old)
    (sameParent : frame.parent = old.parent)
    (elsewhere : ∀ other, other ≠ id → others.count other = owners.count other)
    (here : frame.holds = others.count id + arena.children id) (positive : 0 < frame.holds) :
    (arena.setFrame id.index frame).Kept others where
  free index := (kept.free index).trans (free_set arena id old frame found index).symm
  distinct := kept.distinct
  live other member := by
    rw [live_set arena id other old frame found]
    by_cases same : other = id
    · subst same
      exact (live_found arena other).mpr ⟨old, found⟩
    · apply kept.live
      apply List.count_pos_iff.mp
      rw [← elsewhere other same]
      exact List.count_pos_iff.mpr member
  anchored other live := by
    rw [live_set arena id other old frame found] at live
    obtain ⟨depth, anchored⟩ := kept.anchored other live
    refine ⟨depth, anchored_keeps arena _ depth other anchored ?_⟩
    intro place content read
    by_cases same : place = id
    · subst same
      have content_eq : content = old := Option.some.inj (read.symm.trans found)
      exact ⟨frame, by simp [frame_set arena place place old frame found],
        content_eq ▸ sameParent⟩
    · exact ⟨content, by simp [frame_set arena id place old frame found, same, read], rfl⟩
  balance other content read := by
    rw [children_set arena id other old frame found sameParent]
    rw [frame_set arena id other old frame found] at read
    split at read
    next same =>
      subst same
      cases read
      exact here
    next different => rw [elsewhere other different, kept.balance other content read]
  positive other content read := by
    rw [frame_set arena id other old frame found] at read
    split at read
    next => cases read; exact positive
    next => exact kept.positive other content read

theorem kept_update (arena after : Arena) (owners : List FrameId) (id : FrameId)
    (change : Frame → Frame) (kept : arena.Kept owners)
    (sameParent : ∀ frame, (change frame).parent = frame.parent)
    (sameHolds : ∀ frame, (change frame).holds = frame.holds)
    (updated : arena.update id change = .ok after) : after.Kept owners := by
  unfold update at updated
  cases found : arena.frame? id with
  | none => simp [found] at updated
  | some frame =>
    simp only [found, Except.ok.injEq] at updated
    subst updated
    refine kept_set arena owners owners id frame (change frame) kept found (sameParent frame)
      (fun _ _ => rfl) ?_ ?_
    · rw [sameHolds, kept.balance id frame found]
    · rw [sameHolds]
      exact kept.positive id frame found

theorem kept_retain (arena after : Arena) (owners : List FrameId) (id : FrameId)
    (kept : arena.Kept owners) (retained : arena.retain id = .ok after) :
    after.Kept (id :: owners) := by
  unfold retain update at retained
  cases found : arena.frame? id with
  | none => simp [found] at retained
  | some frame =>
    simp only [found, Except.ok.injEq] at retained
    subst retained
    refine kept_set arena owners (id :: owners) id frame _ kept found rfl ?_ ?_ (Nat.succ_pos _)
    · intro other different
      exact List.count_cons_of_ne (Ne.symm different)
    · have balance := kept.balance id frame found
      simp only [List.count_cons_self]
      omega

theorem parent_live (arena : Arena) (depth : Nat) (id parent : FrameId) (frame : Frame)
    (anchored : arena.Anchored depth id) (found : arena.frame? id = some frame)
    (inner : frame.parent = some parent) : arena.isLive parent = true := by
  cases anchored with
  | outermost _ other otherFound outer =>
    have same : frame = other := Option.some.inj (found.symm.trans otherFound)
    rw [← same, inner] at outer
    cases outer
  | inside depth _ other content otherFound otherInner around =>
    have same : frame = content := Option.some.inj (found.symm.trans otherFound)
    subst same
    have sameParent : parent = other := Option.some.inj (inner.symm.trans otherInner)
    exact sameParent ▸ anchored_live arena depth other around

theorem free_allocated (arena : Arena) (frame : Frame)
    (free : ∀ index, index ∈ arena.free ↔
      ∃ generation, arena.slots[index]? = some ⟨generation, none⟩) (distinct : arena.free.Nodup) :
    (∀ index, index ∈ (arena.allocate frame).2.free ↔
      ∃ generation, (arena.allocate frame).2.slots[index]? = some ⟨generation, none⟩) ∧
    (arena.allocate frame).2.free.Nodup := by
  unfold allocate
  cases rest_eq : arena.free with
  | nil =>
    refine ⟨fun index => ?_, by simp⟩
    have empty := free index
    rw [rest_eq] at empty
    by_cases last : index = arena.slots.size
    · simp [last]
    · simpa [Array.getElem?_push, last] using empty
  | cons first rest =>
    rw [rest_eq] at distinct
    obtain ⟨generation, read⟩ := (free first).mp (by simp [rest_eq])
    refine ⟨fun index => ?_, (List.nodup_cons.mp distinct).2⟩
    by_cases here : first = index
    · subst here
      simp [setFrame, Array.getElem?_modify, read, (List.nodup_cons.mp distinct).1]
    · have empty := free index
      rw [rest_eq] at empty
      simpa [setFrame, Array.getElem?_modify, here, Ne.symm here] using empty

theorem kept_allocate (arena : Arena) (owners : List FrameId) (parent : FrameId) (isFunction : Bool)
    (bindings : Bindings) (kept : arena.Kept (parent :: owners)) :
    (arena.allocate (.fresh (some parent) isFunction bindings)).2.Kept
      ((arena.allocate (.fresh (some parent) isFunction bindings)).1 :: owners) := by
  have available := kept_free_empty arena (parent :: owners) kept
  generalize frame_eq : Frame.fresh (some parent) isFunction bindings = frame
  have inside : frame.parent = some parent := by rw [← frame_eq]; rfl
  have single : frame.holds = 1 := by rw [← frame_eq]; rfl
  have unknown := allocated_fresh arena frame available
  have read := fun other => frame_allocated arena frame other available
  have counted := fun outer => children_allocated arena frame outer available
  have listed := free_allocated arena frame kept.free kept.distinct
  generalize arena.allocate frame = result at *
  obtain ⟨id, after⟩ := result
  simp only at unknown read counted listed ⊢
  have missing : ∀ other, arena.isLive other = true → other ≠ id := by
    rintro other live rfl
    simp [isLive, unknown] at live
  have stays : ∀ other content, arena.frame? other = some content →
      ∃ later, after.frame? other = some later ∧ later.parent = content.parent := by
    intro other content found
    have different := missing other ((live_found arena other).mpr ⟨content, found⟩)
    exact ⟨content, by rw [read, if_neg different, found], rfl⟩
  have parentLive := kept.live parent (by simp)
  refine ⟨listed.1, listed.2, ?_, ?_, ?_, ?_⟩
  · intro other member
    rcases List.mem_cons.mp member with rfl | member
    · exact (live_found after other).mpr ⟨frame, by rw [read, if_pos rfl]⟩
    · obtain ⟨content, found⟩ := (live_found arena other).mp (kept.live other (by simp [member]))
      obtain ⟨later, laterFound, _⟩ := stays other content found
      exact (live_found after other).mpr ⟨later, laterFound⟩
  · intro other live
    by_cases same : other = id
    · subst same
      obtain ⟨depth, anchored⟩ := kept.anchored parent parentLive
      exact ⟨depth + 1, .inside depth other parent frame (by rw [read, if_pos rfl]) inside
        (anchored_keeps arena after depth parent anchored stays)⟩
    · simp only [isLive, read, if_neg same] at live
      obtain ⟨depth, anchored⟩ := kept.anchored other live
      exact ⟨depth, anchored_keeps arena after depth other anchored stays⟩
  · intro other content found
    rw [read] at found
    rw [counted, inside]
    split at found
    next same =>
      subst same
      cases found
      have childless : arena.children other = 0 := by
        by_contra positive
        obtain ⟨child, frame, childFound, childInside⟩ :=
          child_of_positive arena other (Nat.pos_of_ne_zero positive)
        obtain ⟨depth, anchored⟩ := kept.anchored child ((live_found arena child).mpr ⟨frame, childFound⟩)
        exact missing other (parent_live arena depth child other frame anchored childFound childInside) rfl
      have absent : owners.count other = 0 :=
        List.count_eq_zero.mpr fun member => missing other (kept.live other (by simp [member])) rfl
      simp [single, childless, absent, missing parent parentLive]
    next different =>
      have balance := kept.balance other content found
      rw [List.count_cons] at balance
      rw [List.count_cons_of_ne (Ne.symm different)]
      by_cases same : parent = other
      · simp [same] at balance ⊢
        omega
      · simp [same] at balance ⊢
        omega
  · intro other content found
    rw [read] at found
    split at found
    next => cases found; omega
    next => exact kept.positive other content found

theorem kept_push (arena after : Arena) (owners : List FrameId) (parent id : FrameId)
    (isFunction : Bool) (bindings : Bindings) (kept : arena.Kept owners)
    (pushed : arena.push parent isFunction bindings = .ok (id, after)) :
    after.Kept (id :: owners) := by
  unfold push at pushed
  cases retained : arena.retain parent with
  | error cause => simp [retained, Except.map] at pushed
  | ok held =>
    simp only [retained, Except.map, Except.ok.injEq] at pushed
    have allocated := kept_allocate held owners parent isFunction bindings
      (kept_retain arena held owners parent kept retained)
    rwa [pushed] at allocated

end CoopScript.Arena
