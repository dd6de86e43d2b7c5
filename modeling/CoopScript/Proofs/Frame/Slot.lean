import CoopScript.Frame.Arena

set_option autoImplicit false
namespace CoopScript

def Slot.isInside (outer : FrameId) (slot : Slot) : Bool :=
  match slot.frame with
  | some frame => frame.parent = some outer
  | none => false

namespace Arena

def children (arena : Arena) (outer : FrameId) : Nat :=
  arena.slots.countP fun slot => slot.isInside outer

theorem frame_found (arena : Arena) (id : FrameId) (frame : Frame) :
    arena.frame? id = some frame ↔ arena.slots[id.index]? = some ⟨id.generation, some frame⟩ := by
  unfold frame?
  cases read : arena.slots[id.index]? with
  | none => simp
  | some slot =>
    obtain ⟨generation, content⟩ := slot
    by_cases same : generation = id.generation
    · simp [same]
    · simp [same]

theorem live_found (arena : Arena) (id : FrameId) :
    arena.isLive id = true ↔ ∃ frame, arena.frame? id = some frame := by
  simp [isLive, Option.isSome_iff_exists]

theorem frame_set (arena : Arena) (id other : FrameId) (old frame : Frame)
    (found : arena.frame? id = some old) :
    (arena.setFrame id.index frame).frame? other =
      if other = id then some frame else arena.frame? other := by
  have read := (frame_found arena id old).mp found
  obtain ⟨index, generation⟩ := id
  obtain ⟨place, age⟩ := other
  simp only at read
  by_cases here : index = place
  · subst here
    by_cases same : age = generation
    · subst same
      simp [setFrame, frame?, Array.getElem?_modify, read]
    · simp [setFrame, frame?, Array.getElem?_modify, read, same, Ne.symm same]
  · have elsewhere : (⟨place, age⟩ : FrameId) ≠ ⟨index, generation⟩ := fun same =>
      here (congrArg FrameId.index same).symm
    simp [setFrame, frame?, Array.getElem?_modify, here, elsewhere]

theorem frame_vacated (arena : Arena) (id other : FrameId) (old : Frame)
    (found : arena.frame? id = some old) :
    (arena.vacate id.index).frame? other = if other = id then none else arena.frame? other := by
  have read := (frame_found arena id old).mp found
  obtain ⟨index, generation⟩ := id
  obtain ⟨place, age⟩ := other
  simp only at read
  by_cases here : index = place
  · subst here
    by_cases same : age = generation
    · subst same
      simp [vacate, frame?, Array.getElem?_modify, read]
    · simp [vacate, frame?, Array.getElem?_modify, read, same, Ne.symm same]
  · have elsewhere : (⟨place, age⟩ : FrameId) ≠ ⟨index, generation⟩ := fun same =>
      here (congrArg FrameId.index same).symm
    simp [vacate, frame?, Array.getElem?_modify, here, elsewhere]

def FreeEmpty (arena : Arena) : Prop :=
  ∀ index ∈ arena.free, ∃ generation, arena.slots[index]? = some ⟨generation, none⟩

theorem allocated_fresh (arena : Arena) (frame : Frame) (available : arena.FreeEmpty) :
    arena.frame? (arena.allocate frame).1 = none := by
  unfold allocate
  cases free : arena.free with
  | nil => simp [frame?]
  | cons index rest =>
    obtain ⟨generation, read⟩ := available index (by simp [free])
    simp [frame?, read]

theorem frame_allocated (arena : Arena) (frame : Frame) (other : FrameId)
    (available : arena.FreeEmpty) :
    (arena.allocate frame).2.frame? other =
      if other = (arena.allocate frame).1 then some frame else arena.frame? other := by
  obtain ⟨place, age⟩ := other
  unfold allocate
  cases free : arena.free with
  | nil =>
    by_cases here : place = arena.slots.size
    · subst here
      by_cases same : age = 0
      · simp [frame?, same]
      · simp [frame?, same, Ne.symm same]
    · have elsewhere : (⟨place, age⟩ : FrameId) ≠ ⟨arena.slots.size, 0⟩ := fun same =>
        here (congrArg FrameId.index same)
      simp [frame?, Array.getElem?_push, here, elsewhere]
  | cons index rest =>
    obtain ⟨generation, read⟩ := available index (by simp [free])
    simp only [read]
    by_cases here : index = place
    · subst here
      by_cases same : age = generation
      · subst same
        simp [setFrame, frame?, Array.getElem?_modify, read]
      · simp [setFrame, frame?, Array.getElem?_modify, read, same, Ne.symm same]
    · have elsewhere : (⟨place, age⟩ : FrameId) ≠ ⟨index, generation⟩ := fun same =>
        here (congrArg FrameId.index same).symm
      simp [setFrame, frame?, Array.getElem?_modify, here, elsewhere]

theorem count_modified {α : Type} (items : Array α) (index : Nat) (item : α) (change : α → α)
    (holds : α → Bool) (read : items[index]? = some item) :
    (items.modify index change).countP holds + (holds item).toNat =
      items.countP holds + (holds (change item)).toNat := by
  obtain ⟨bound, rfl⟩ := Array.getElem?_eq_some_iff.mp read
  have replaced : items.modify index change = items.set index (change items[index]) := by
    apply Array.ext_getElem?
    intro place
    by_cases here : index = place
    · subst here
      rw [Array.getElem?_modify, if_pos rfl, read, Array.getElem?_set_self bound]
      rfl
    · simp [Array.getElem?_modify, here]
  have counted : (holds items[index]).toNat ≤ items.countP holds := by
    cases truth : holds items[index] with
    | false => exact Nat.zero_le _
    | true => exact Array.countP_pos_iff.mpr ⟨items[index], Array.getElem_mem bound, truth⟩
  rw [replaced, Array.countP_set bound]
  cases truth : holds items[index] <;> cases holds (change items[index]) <;>
    simp only [truth, Bool.toNat_true, Bool.toNat_false, if_true, Bool.false_eq_true,
      if_false] at counted ⊢ <;> omega

theorem children_set (arena : Arena) (id outer : FrameId) (old frame : Frame)
    (found : arena.frame? id = some old) (sameParent : frame.parent = old.parent) :
    (arena.setFrame id.index frame).children outer = arena.children outer := by
  have read := (frame_found arena id old).mp found
  have counted := count_modified arena.slots id.index ⟨id.generation, some old⟩
    (fun slot => { slot with frame := some frame }) (fun slot => slot.isInside outer) read
  simp only [Slot.isInside, sameParent] at counted
  simp only [children, setFrame, Slot.isInside]
  omega

theorem children_vacated (arena : Arena) (id outer : FrameId) (old : Frame)
    (found : arena.frame? id = some old) :
    (arena.vacate id.index).children outer + (decide (old.parent = some outer)).toNat =
      arena.children outer := by
  have read := (frame_found arena id old).mp found
  have counted := count_modified arena.slots id.index ⟨id.generation, some old⟩
    (fun slot => { slot with frame := none, generation := slot.generation + 1 })
    (fun slot => slot.isInside outer) read
  simpa [children, vacate, Slot.isInside] using counted

theorem children_allocated (arena : Arena) (frame : Frame) (outer : FrameId)
    (available : arena.FreeEmpty) :
    (arena.allocate frame).2.children outer =
      arena.children outer + (decide (frame.parent = some outer)).toNat := by
  unfold allocate
  cases free : arena.free with
  | nil =>
    by_cases inside : frame.parent = some outer <;>
      simp [children, Slot.isInside, inside]
  | cons index rest =>
    obtain ⟨generation, read⟩ := available index (by simp [free])
    have counted := count_modified arena.slots index ⟨generation, none⟩
      (fun slot => { slot with frame := some frame }) (fun slot => slot.isInside outer) read
    simpa [children, setFrame, Slot.isInside] using counted

theorem no_child_of_zero (arena : Arena) (id outer : FrameId) (frame : Frame)
    (none : arena.children outer = 0) (found : arena.frame? id = some frame) :
    frame.parent ≠ some outer := by
  intro inside
  have read := (frame_found arena id frame).mp found
  have member : ⟨id.generation, some frame⟩ ∈ arena.slots := Array.mem_of_getElem? read
  have positive : 0 < arena.children outer :=
    Array.countP_pos_iff.mpr ⟨_, member, by simp [Slot.isInside, inside]⟩
  omega

theorem child_of_positive (arena : Arena) (outer : FrameId) (positive : 0 < arena.children outer) :
    ∃ id frame, arena.frame? id = some frame ∧ frame.parent = some outer := by
  obtain ⟨slot, member, inside⟩ := Array.countP_pos_iff.mp positive
  obtain ⟨index, read⟩ := Array.getElem?_of_mem member
  obtain ⟨generation, content⟩ := slot
  cases content with
  | none => simp [Slot.isInside] at inside
  | some frame =>
    refine ⟨⟨index, generation⟩, frame, (frame_found arena _ frame).mpr read, ?_⟩
    simpa [Slot.isInside] using inside

def picked (arena : Arena) (kind : Slot → Bool) : List FrameId :=
  arena.slots.toList.zipIdx.filterMap fun entry =>
    if kind entry.1 then some ⟨entry.2, entry.1.generation⟩ else none

theorem picked_distinct (arena : Arena) (kind : Slot → Bool) : (arena.picked kind).Nodup := by
  have places : ((arena.picked kind).map FrameId.index).Sublist (arena.slots.toList.zipIdx.map Prod.snd) := by
    unfold picked
    induction arena.slots.toList.zipIdx with
    | nil => exact List.Sublist.slnil
    | cons entry rest ih =>
      rw [List.filterMap_cons, List.map_cons]
      cases kind entry.1
      · exact (ih.cons entry.2)
      · exact (ih.cons_cons entry.2)
  have distinct : (arena.slots.toList.zipIdx.map Prod.snd).Nodup := by
    rw [List.zipIdx_map_snd]
    exact List.nodup_range'
  exact List.Pairwise.of_map FrameId.index (fun _ _ differ same => differ (congrArg FrameId.index same))
    (places.nodup distinct)

theorem picked_found (arena : Arena) (kind : Slot → Bool) (id : FrameId) :
    id ∈ arena.picked kind ↔
      ∃ slot, arena.slots[id.index]? = some slot ∧ slot.generation = id.generation ∧ kind slot = true := by
  obtain ⟨index, generation⟩ := id
  unfold picked
  rw [List.mem_filterMap]
  constructor
  · rintro ⟨⟨slot, place⟩, member, chosen⟩
    have read := List.mk_mem_zipIdx_iff_getElem?.mp member
    rw [Array.getElem?_toList] at read
    cases fits : kind slot <;> simp [fits] at chosen
    obtain ⟨rfl, rfl⟩ := chosen
    exact ⟨slot, read, rfl, fits⟩
  · rintro ⟨slot, read, rfl, fits⟩
    refine ⟨(slot, index), ?_, by simp [fits]⟩
    exact List.mk_mem_zipIdx_iff_getElem?.mpr (by simpa using read)

def insiders (arena : Arena) (outer : FrameId) : List FrameId :=
  arena.slots.toList.zipIdx.filterMap fun entry =>
    if entry.1.isInside outer then some ⟨entry.2, entry.1.generation⟩ else none

theorem insiders_length (arena : Arena) (outer : FrameId) :
    (arena.insiders outer).length = arena.children outer := by
  unfold insiders children
  rw [← Array.countP_toList]
  generalize 0 = start
  induction arena.slots.toList generalizing start with
  | nil => rfl
  | cons slot rest ih =>
    rw [List.zipIdx_cons, List.filterMap_cons, List.countP_cons]
    cases inside : slot.isInside outer <;> simp [ih]

theorem insiders_distinct (arena : Arena) (outer : FrameId) : (arena.insiders outer).Nodup :=
  arena.picked_distinct fun slot => slot.isInside outer

theorem insiders_found (arena : Arena) (outer id : FrameId) :
    id ∈ arena.insiders outer ↔ ∃ frame, arena.frame? id = some frame ∧ frame.parent = some outer := by
  refine (arena.picked_found (fun slot => slot.isInside outer) id).trans ⟨?_, ?_⟩
  · rintro ⟨⟨generation, content⟩, read, same, inside⟩
    cases content with
    | none => cases inside
    | some frame =>
      obtain rfl : generation = id.generation := same
      exact ⟨frame, (frame_found arena id frame).mpr read, by simpa [Slot.isInside] using inside⟩
  · rintro ⟨frame, found, inside⟩
    exact ⟨_, (frame_found arena id frame).mp found, rfl, by simp [Slot.isInside, inside]⟩

theorem children_same (before after : Arena) (outer : FrameId)
    (same : ∀ id, id ∈ before.insiders outer ↔ id ∈ after.insiders outer) :
    after.children outer = before.children outer := by
  have listed : (before.insiders outer).Perm (after.insiders outer) :=
    (List.perm_ext_iff_of_nodup (before.insiders_distinct outer) (after.insiders_distinct outer)).mpr same
  rw [← insiders_length, ← insiders_length, listed.length_eq]

end Arena
end CoopScript
