import CoopScript.Proofs.Frame.Kept

set_option autoImplicit false
namespace CoopScript.Arena

def SameFrame (left right : Frame) : Prop :=
  left.bindings = right.bindings ∧ left.parent = right.parent ∧
    left.isFunction = right.isFunction ∧ left.returned = right.returned

def Shrinks (arena after : Arena) : Prop :=
  ∀ id later, after.frame? id = some later → ∃ frame, arena.frame? id = some frame ∧ SameFrame later frame

theorem shrinks_trans (first second third : Arena) (left : first.Shrinks second)
    (right : second.Shrinks third) : first.Shrinks third := by
  intro id later found
  obtain ⟨middle, middleFound, rightSame⟩ := right id later found
  obtain ⟨frame, frameFound, leftSame⟩ := left id middle middleFound
  exact ⟨frame, frameFound, rightSame.1.trans leftSame.1, rightSame.2.1.trans leftSame.2.1,
    rightSame.2.2.1.trans leftSame.2.2.1, rightSame.2.2.2.trans leftSame.2.2.2⟩

theorem shrinks_set (arena : Arena) (id : FrameId) (old frame : Frame)
    (found : arena.frame? id = some old) (same : SameFrame frame old) :
    arena.Shrinks (arena.setFrame id.index frame) := by
  intro other later read
  rw [frame_set arena id other old frame found] at read
  split at read
  next here =>
    subst here
    cases read
    exact ⟨old, found, same⟩
  next => exact ⟨later, read, rfl, rfl, rfl, rfl⟩

theorem shrinks_vacate (arena : Arena) (id : FrameId) (old : Frame)
    (found : arena.frame? id = some old) : arena.Shrinks (arena.vacate id.index) := by
  intro other later read
  rw [frame_vacated arena id other old found] at read
  split at read
  next => cases read
  next => exact ⟨later, read, rfl, rfl, rfl, rfl⟩

theorem shrinks_refl (arena : Arena) : arena.Shrinks arena :=
  fun _ later found => ⟨later, found, rfl, rfl, rfl, rfl⟩

theorem release_chain_shrinks (arena : Arena) (fuel : Nat) (id : FrameId) :
    arena.Shrinks (arena.releaseChain fuel id).1 := by
  induction fuel generalizing arena id with
  | zero => exact shrinks_refl arena
  | succ fuel ih =>
    unfold releaseChain
    cases found : arena.frame? id with
    | none => exact shrinks_refl arena
    | some frame =>
      have vacated := shrinks_vacate arena id frame found
      by_cases several : 1 < frame.holds
      · simp only [several, if_true]
        exact shrinks_set arena id frame _ found ⟨rfl, rfl, rfl, rfl⟩
      · simp only [several, if_false]
        cases frame.parent with
        | none => exact vacated
        | some parent => exact shrinks_trans arena _ _ vacated (ih _ parent)

theorem free_vacated (arena : Arena) (id : FrameId) (old : Frame)
    (found : arena.frame? id = some old)
    (free : ∀ index, index ∈ arena.free ↔
      ∃ generation, arena.slots[index]? = some ⟨generation, none⟩) (distinct : arena.free.Nodup) :
    (∀ index, index ∈ (arena.vacate id.index).free ↔
      ∃ generation, (arena.vacate id.index).slots[index]? = some ⟨generation, none⟩) ∧
    (arena.vacate id.index).free.Nodup := by
  have read := (frame_found arena id old).mp found
  constructor
  · intro index
    by_cases here : id.index = index
    · subst here
      simp [vacate, Array.getElem?_modify, read]
    · simpa [vacate, Array.getElem?_modify, here, Ne.symm here] using free index
  · refine List.nodup_cons.mpr ⟨?_, distinct⟩
    rw [free, read]
    simp

-- The last hold of a frame turns into one on the frame around it.
theorem kept_vacate (arena : Arena) (owners : List FrameId) (id : FrameId) (frame : Frame)
    (kept : arena.Kept (id :: owners)) (found : arena.frame? id = some frame)
    (last : frame.holds ≤ 1) : (arena.vacate id.index).Kept (frame.parent.toList ++ owners) := by
  have balance := kept.balance id frame found
  rw [List.count_cons_self] at balance
  have childless : arena.children id = 0 := by omega
  have absent : id ∉ owners := List.count_eq_zero.mp (by omega)
  have lonely : ∀ other content, arena.frame? other = some content → content.parent ≠ some id :=
    fun other content => no_child_of_zero arena other id content childless
  have stays : ∀ other content, other ≠ id → arena.frame? other = some content →
      ∃ later, (arena.vacate id.index).frame? other = some later ∧ later.parent = content.parent := by
    intro other content different read
    exact ⟨content, by rw [frame_vacated arena id other frame found, if_neg different, read], rfl⟩
  have survives : ∀ other, other ≠ id → arena.isLive other = true →
      (arena.vacate id.index).isLive other = true := by
    intro other different live
    obtain ⟨content, read⟩ := (live_found arena other).mp live
    obtain ⟨later, laterRead, _⟩ := stays other content different read
    exact (live_found _ other).mpr ⟨later, laterRead⟩
  have listed := free_vacated arena id frame found kept.free kept.distinct
  refine ⟨listed.1, listed.2, ?_, ?_, ?_, ?_⟩
  · intro other member
    rcases List.mem_append.mp member with outer | owner
    · have inner : frame.parent = some other := by simpa using outer
      obtain ⟨depth, anchored⟩ := kept.anchored id ((live_found arena id).mpr ⟨frame, found⟩)
      have live := parent_live arena depth id other frame anchored found inner
      exact survives other (fun same => lonely id frame found (same ▸ inner)) live
    · exact survives other (fun same => absent (same ▸ owner)) (kept.live other (by simp [owner]))
  · intro other live
    have different : other ≠ id := by
      rintro rfl
      simp [isLive, frame_vacated arena other other frame found] at live
    simp only [isLive, frame_vacated arena id other frame found, if_neg different] at live
    obtain ⟨depth, anchored⟩ := kept.anchored other live
    exact ⟨depth, anchored_elsewhere arena _ id depth other anchored different lonely stays⟩
  · intro other content read
    rw [frame_vacated arena id other frame found] at read
    split at read
    next => cases read
    next different =>
      have counted := children_vacated arena id other frame found
      have earlier := kept.balance other content read
      rw [List.count_cons_of_ne (Ne.symm different)] at earlier
      rw [List.count_append]
      cases outer : frame.parent with
      | none =>
        simp only [outer, reduceCtorEq, decide_false, Bool.toNat_false, Option.toList_none,
          List.count_nil] at counted ⊢
        omega
      | some parent =>
        by_cases same : parent = other
        · subst same
          simp only [outer, decide_true, Bool.toNat_true, Option.toList_some,
            List.count_singleton_self] at counted ⊢
          omega
        · simp only [outer, Option.some.injEq, same, decide_false, Bool.toNat_false,
            Option.toList_some, List.count_cons_of_ne same, List.count_nil] at counted ⊢
          omega
  · intro other content read
    rw [frame_vacated arena id other frame found] at read
    split at read
    next => cases read
    next => exact kept.positive other content read

theorem release_chain_kept (arena : Arena) (owners : List FrameId) (depth fuel : Nat) (id : FrameId)
    (kept : arena.Kept (id :: owners)) (anchored : arena.Anchored depth id) (enough : depth < fuel) :
    ∃ after, arena.releaseChain fuel id = (after, none) ∧ after.Kept owners ∧ arena.Shrinks after := by
  induction fuel generalizing arena depth id with
  | zero => omega
  | succ fuel ih =>
    obtain ⟨frame, found⟩ := (live_found arena id).mp (kept.live id (by simp))
    have balance := kept.balance id frame found
    rw [List.count_cons_self] at balance
    by_cases several : 1 < frame.holds
    · refine ⟨arena.setFrame id.index { frame with holds := frame.holds - 1 },
        by simp [releaseChain, found, several], ?_, shrinks_set arena id frame _ found ⟨rfl, rfl, rfl, rfl⟩⟩
      refine kept_set arena (id :: owners) owners id frame _ kept found rfl ?_ ?_ (by simp; omega)
      · intro other different
        exact (List.count_cons_of_ne (Ne.symm different)).symm
      · simp only
        omega
    · have vacated := kept_vacate arena owners id frame kept found (by omega)
      have shrinks := shrinks_vacate arena id frame found
      cases outer : frame.parent with
      | none =>
        rw [outer] at vacated
        exact ⟨arena.vacate id.index, by simp [releaseChain, found, several, outer], vacated, shrinks⟩
      | some parent =>
        rw [outer] at vacated
        cases anchored with
        | outermost _ other otherFound alone =>
          rw [Option.some.inj (otherFound.symm.trans found), outer] at alone
          cases alone
        | inside depth _ otherParent other otherFound inner around =>
          rw [Option.some.inj (otherFound.symm.trans found), outer] at inner
          obtain rfl := Option.some.inj inner
          obtain ⟨level, anchoredAfter⟩ := vacated.anchored parent (vacated.live parent (by simp))
          have sameLevel : level = depth := by
            have lonely : ∀ place content, arena.frame? place = some content →
                content.parent ≠ some id := fun place content =>
              no_child_of_zero arena place id content (by omega)
            have different : parent ≠ id := fun same => lonely id frame found (same ▸ outer)
            have moved := anchored_elsewhere arena (arena.vacate id.index) id depth parent around
              different lonely fun place content elsewhere read =>
                ⟨content, by rw [frame_vacated arena id place frame found, if_neg elsewhere, read], rfl⟩
            exact anchored_depth_unique _ level depth parent anchoredAfter moved
          subst sameLevel
          obtain ⟨after, released, keptAfter, more⟩ :=
            ih (arena.vacate id.index) level parent vacated anchoredAfter (by omega)
          exact ⟨after, by simp [releaseChain, found, several, outer, released], keptAfter,
            shrinks_trans arena _ after shrinks more⟩

theorem kept_release (arena : Arena) (owners : List FrameId) (id : FrameId)
    (kept : arena.Kept (id :: owners)) :
    ∃ after, arena.release id = (after, none) ∧ after.Kept owners ∧ arena.Shrinks after := by
  obtain ⟨depth, anchored⟩ := kept.anchored id (kept.live id (by simp))
  have bound := anchored_depth_bound arena depth id anchored
  exact release_chain_kept arena owners depth arena.reach id kept anchored (by unfold reach; omega)

theorem retain_released (arena : Arena) (owners : List FrameId) (id : FrameId) (kept : arena.Kept (id :: id :: owners)) :
    (arena.release id).1.retain id = .ok arena := by
  obtain ⟨frame, found⟩ := (live_found arena id).mp (kept.live id (by simp))
  have balance := kept.balance id frame found
  simp only [List.count_cons_self] at balance
  have released : (arena.release id).1 = arena.setFrame id.index { frame with holds := frame.holds - 1 } := by
    unfold release reach releaseChain
    simp only [found, if_pos (show 1 < frame.holds by omega)]
  have again := frame_set arena id id frame { frame with holds := frame.holds - 1 } found
  rw [if_pos rfl] at again
  have read := (frame_found arena id frame).mp found
  unfold retain update
  rw [released, again]
  obtain ⟨slots, free⟩ := arena
  refine congrArg (fun slots => Except.ok (Arena.mk slots free)) (Array.ext_getElem? fun place => ?_)
  simp only [setFrame, Array.getElem?_modify] at read ⊢
  by_cases here : id.index = place
  · subst here
    simp [read, Nat.sub_add_cancel (show 1 ≤ frame.holds by omega)]
  · simp [here]

theorem initial_found (id : FrameId) (frame : Frame) (found : initial.frame? id = some frame) :
    id = root ∧ frame = .fresh none false .empty := by
  obtain ⟨index, generation⟩ := id
  rw [frame_found] at found
  cases index with
  | zero =>
    simp only [initial, List.getElem?_toArray, List.getElem?_cons_zero, Option.some.injEq,
      Slot.mk.injEq] at found
    exact ⟨by rw [← found.1]; rfl, found.2.symm⟩
  | succ index => simp [initial] at found

theorem kept_initial : initial.Kept [root] := by
  have rootFound : initial.frame? root = some (.fresh none false .empty) := rfl
  refine ⟨fun index => ?_, List.nodup_nil, ?_, ?_, ?_, ?_⟩
  · cases index <;> simp [initial]
  · intro id member
    obtain rfl : id = root := by simpa using member
    rfl
  · intro id live
    obtain ⟨frame, found⟩ := (live_found initial id).mp live
    obtain ⟨rfl, rfl⟩ := initial_found id frame found
    exact ⟨0, .outermost root _ rootFound rfl⟩
  · intro id frame found
    obtain ⟨rfl, rfl⟩ := initial_found id frame found
    rfl
  · intro id frame found
    obtain ⟨rfl, rfl⟩ := initial_found id frame found
    exact Nat.zero_lt_one

end CoopScript.Arena
