import CoopScript.Proofs.Frame.Release

set_option autoImplicit false
namespace CoopScript.Arena

-- The frames from one outwards, itself included, to the outermost.
inductive Chain (arena : Arena) : FrameId → List (FrameId × Frame) → Prop where
  | outermost (id : FrameId) (frame : Frame) (found : arena.frame? id = some frame) (outer : frame.parent = none) :
      Chain arena id [(id, frame)]
  | inside (id parent : FrameId) (frame : Frame) (rest : List (FrameId × Frame)) (found : arena.frame? id = some frame)
      (inner : frame.parent = some parent) (around : Chain arena parent rest) : Chain arena id ((id, frame) :: rest)

section Chain
variable (arena after : Arena) (id : FrameId) (chain others : List (FrameId × Frame))

theorem chain_of_anchored (depth : Nat) (anchored : arena.Anchored depth id) :
    ∃ chain, arena.Chain id chain ∧ chain.length = depth + 1 := by
  induction anchored with
  | outermost id frame found outer => exact ⟨_, .outermost id frame found outer, rfl⟩
  | inside depth id parent frame found inner _ ih =>
    obtain ⟨rest, around, length⟩ := ih
    exact ⟨_, .inside id parent frame rest found inner around, congrArg (· + 1) length⟩

theorem chain_found (line : arena.Chain id chain) : ∀ entry ∈ chain, arena.frame? entry.1 = some entry.2 := by
  induction line with
  | outermost id frame found outer =>
    intro entry member
    obtain rfl := List.mem_singleton.mp member
    exact found
  | inside id parent frame rest found inner _ ih => exact List.forall_mem_cons.mpr ⟨found, ih⟩

theorem chain_unique (line : arena.Chain id chain) (again : arena.Chain id others) : others = chain := by
  induction line generalizing others with
  | outermost id frame found outer =>
    cases again with
    | outermost _ other otherFound _ => rw [Option.some.inj (found.symm.trans otherFound)]
    | inside _ parent other rest otherFound inner _ =>
      rw [Option.some.inj (found.symm.trans otherFound), inner] at outer
      cases outer
  | inside id parent frame rest found inner _ ih =>
    cases again with
    | outermost _ other otherFound outer =>
      rw [← Option.some.inj (found.symm.trans otherFound), inner] at outer
      cases outer
    | inside _ otherParent other otherRest otherFound otherInner around =>
      obtain rfl := Option.some.inj (found.symm.trans otherFound)
      obtain rfl := Option.some.inj (inner.symm.trans otherInner)
      rw [ih otherRest around]

theorem chain_outward (line : arena.Chain id chain) :
    ∀ entry ∈ chain, ∃ rest, arena.Chain entry.1 rest ∧ rest.length ≤ chain.length := by
  induction line with
  | outermost id frame found outer =>
    intro entry member
    obtain rfl := List.mem_singleton.mp member
    exact ⟨_, .outermost id frame found outer, Nat.le_refl _⟩
  | inside id parent frame rest found inner around ih =>
    refine List.forall_mem_cons.mpr ⟨⟨_, .inside id parent frame rest found inner around, Nat.le_refl _⟩, ?_⟩
    intro entry member
    obtain ⟨outer, line, length⟩ := ih entry member
    exact ⟨outer, line, Nat.le_succ_of_le length⟩

theorem chain_distinct (line : arena.Chain id chain) : (chain.map Prod.fst).Nodup := by
  induction line with
  | outermost id frame found outer => exact List.nodup_singleton id
  | inside id parent frame rest found inner around ih =>
    refine List.nodup_cons.mpr ⟨fun member => ?_, ih⟩
    obtain ⟨entry, entryMember, same⟩ := List.mem_map.mp member
    obtain ⟨outer, line, length⟩ := chain_outward arena parent rest around entry entryMember
    -- The chain from there outwards would be the whole one, but it is shorter.
    have whole := chain_unique arena id _ outer (.inside id parent frame rest found inner around) (by rwa [same] at line)
    rw [whole, List.length_cons] at length
    omega

theorem chain_moved (line : arena.Chain id chain) (same : ∀ entry ∈ chain, after.frame? entry.1 = some entry.2) :
    after.Chain id chain := by
  induction line with
  | outermost id frame found outer => exact .outermost id frame (same (id, frame) List.mem_cons_self) outer
  | inside id parent frame rest found inner _ ih =>
    obtain ⟨here, further⟩ := List.forall_mem_cons.mp same
    exact .inside id parent frame rest here inner (ih further)

theorem search_chain {α : Type} (ask : FrameId → Frame → Option α) (fuel : Nat) (line : arena.Chain id chain)
    (enough : chain.length ≤ fuel) :
    arena.searchChain ask fuel id = .ok (chain.findSome? fun entry => ask entry.1 entry.2) := by
  induction line generalizing fuel with
  | outermost id frame found outer =>
    obtain ⟨fuel, rfl⟩ : ∃ rest, fuel = rest + 1 := ⟨fuel - 1, by rw [List.length_singleton] at enough; omega⟩
    cases asked : ask id frame <;> simp [searchChain, found, asked, outer]
  | inside id parent frame rest found inner _ ih =>
    rw [List.length_cons] at enough
    obtain ⟨fuel, rfl⟩ : ∃ rest, fuel = rest + 1 := ⟨fuel - 1, by omega⟩
    cases asked : ask id frame with
    | some answer => simp [searchChain, found, asked]
    | none => simp [searchChain, found, asked, inner, ih fuel (by omega)]

end Chain

-- The frames at the inner end of a chain that one hold keeps alive.
def spent (chain : List (FrameId × Frame)) : List (FrameId × Frame) := chain.takeWhile fun entry => entry.2.holds ≤ 1

def survivor? (chain : List (FrameId × Frame)) : Option (FrameId × Frame) :=
  chain.find? fun entry => 1 < entry.2.holds

-- The frames that one hold kept alive are gone, the next one has a hold less, and the others are as they were.
structure Released (chain : List (FrameId × Frame)) (arena after : Arena) : Prop where
  gone : ∀ entry ∈ spent chain, after.frame? entry.1 = none
  lowered : ∀ entry, survivor? chain = some entry →
    after.frame? entry.1 = some { entry.2 with holds := entry.2.holds - 1 }
  others : ∀ id, (∀ entry ∈ spent chain, entry.1 ≠ id) → (∀ entry, survivor? chain = some entry → entry.1 ≠ id) →
    after.frame? id = arena.frame? id

-- The slots whose frames are gone have another generation.
structure Aged (gone : List FrameId) (arena after : Arena) : Prop where
  size : after.slots.size = arena.slots.size
  slots : ∀ (index : Nat) (slot : Slot), arena.slots[index]? = some slot → ∃ content, after.slots[index]? =
    some (Slot.mk (slot.generation + UInt32.ofNat (gone.countP fun id => id.index = index)) content)

theorem aged_set (arena : Arena) (id : FrameId) (frame : Frame) :
    Aged [] arena (arena.setFrame id.index frame) := by
  refine ⟨by simp [setFrame], fun index slot read => ?_⟩
  by_cases here : id.index = index
  · subst here
    exact ⟨some frame, by simp [setFrame, Array.getElem?_modify, read]⟩
  · exact ⟨slot.frame, by simp [setFrame, Array.getElem?_modify, here, read]⟩

theorem aged_vacate (arena : Arena) (id : FrameId) : Aged [id] arena (arena.vacate id.index) := by
  refine ⟨by simp [vacate], fun index slot read => ?_⟩
  by_cases here : id.index = index
  · subst here
    exact ⟨none, by simp [vacate, Array.getElem?_modify, read]⟩
  · exact ⟨slot.frame, by simp [vacate, Array.getElem?_modify, here, read]⟩

theorem aged_trans (arena middle after : Arena) (first second : List FrameId) (left : Aged first arena middle)
    (right : Aged second middle after) : Aged (first ++ second) arena after := by
  refine ⟨right.size.trans left.size, fun index slot read => ?_⟩
  obtain ⟨content, middleRead⟩ := left.slots index slot read
  obtain ⟨last, afterRead⟩ := right.slots index _ middleRead
  exact ⟨last, by rw [afterRead, List.countP_append, UInt32.ofNat_add, UInt32.add_assoc]⟩

section Released
variable (arena : Arena) (id : FrameId) (frame : Frame) (rest : List (FrameId × Frame))

theorem spent_held (several : 1 < frame.holds) : spent ((id, frame) :: rest) = [] := by
  simp [spent, several]

theorem spent_last (last : frame.holds ≤ 1) : spent ((id, frame) :: rest) = (id, frame) :: spent rest := by
  simp [spent, last]

-- Somebody else holds the first frame: nothing goes.
theorem released_held (found : arena.frame? id = some frame) (several : 1 < frame.holds) :
    Released ((id, frame) :: rest) arena (arena.setFrame id.index { frame with holds := frame.holds - 1 }) := by
  have first : survivor? ((id, frame) :: rest) = some (id, frame) := by simp [survivor?, several]
  refine ⟨?_, ?_, fun other _ elsewhere => ?_⟩
  · rw [spent_held id frame rest several]
    exact fun _ none => by cases none
  · rw [first]
    rintro _ ⟨⟩
    rw [frame_set arena id id frame _ found, if_pos rfl]
  · rw [frame_set arena id other frame _ found, if_neg (Ne.symm (elsewhere _ first))]

theorem released_none : Released [] arena arena where
  gone := List.forall_mem_nil _
  lowered _ none := by cases none
  others _ _ _ := rfl

-- The first frame goes, and then the ones around it that nobody else holds.
theorem released_last (after : Arena) (found : arena.frame? id = some frame) (last : frame.holds ≤ 1)
    (apart : ∀ entry ∈ rest, entry.1 ≠ id) (further : Released rest (arena.vacate id.index) after) :
    Released ((id, frame) :: rest) arena after := by
  have goes := spent_last id frame rest last
  have next : survivor? ((id, frame) :: rest) = survivor? rest := by simp [survivor?, Nat.not_lt.mpr last]
  refine ⟨?_, ?_, ?_⟩
  · rw [goes]
    refine List.forall_mem_cons.mpr ⟨?_, further.gone⟩
    -- No frame further out is the one that went first.
    rw [further.others id, frame_vacated arena id id frame found, if_pos rfl]
    · exact fun entry member => apart entry ((List.takeWhile_prefix _).subset member)
    · exact fun entry survives => apart entry (List.mem_of_find?_eq_some survives)
  · rw [next]
    exact further.lowered
  · rw [goes, next]
    intro other elsewhere survives
    obtain ⟨here, outside⟩ := List.forall_mem_cons.mp elsewhere
    rw [further.others other outside survives, frame_vacated arena id other frame found, if_neg (Ne.symm here)]

end Released

theorem release_chain_released (arena : Arena) (fuel : Nat) (id : FrameId) (chain : List (FrameId × Frame))
    (line : arena.Chain id chain) (enough : chain.length ≤ fuel) :
    ∃ after, arena.releaseChain fuel id = (after, none) ∧ Released chain arena after ∧
      Aged ((spent chain).map Prod.fst) arena after := by
  induction fuel generalizing arena id chain with
  | zero =>
    cases line <;> simp at enough
  | succ fuel ih =>
    have found : ∃ frame rest, chain = (id, frame) :: rest ∧ arena.frame? id = some frame := by
      cases line with
      | outermost _ frame found _ => exact ⟨frame, [], rfl, found⟩
      | inside _ _ frame rest found _ _ => exact ⟨frame, rest, rfl, found⟩
    obtain ⟨frame, rest, rfl, found⟩ := found
    by_cases several : 1 < frame.holds
    · refine ⟨_, by simp [releaseChain, found, several], released_held arena id frame rest found several, ?_⟩
      rw [spent_held id frame rest several]
      exact aged_set arena id _
    · have last := Nat.not_lt.mp several
      have distinct := chain_distinct arena id _ line
      rw [List.map_cons, List.nodup_cons] at distinct
      have apart : ∀ entry ∈ rest, entry.1 ≠ id := fun entry member same =>
        distinct.1 (List.mem_map.mpr ⟨entry, member, same⟩)
      have vacated := aged_vacate arena id
      rw [spent_last id frame rest last]
      cases line with
      | outermost _ _ _ outer =>
        exact ⟨arena.vacate id.index, by simp [releaseChain, found, several, outer],
          released_last arena id frame [] _ found last apart (released_none _), vacated⟩
      | inside _ parent _ _ _ inner around =>
        have stays : ∀ entry ∈ rest, (arena.vacate id.index).frame? entry.1 = some entry.2 := by
          intro entry member
          rw [frame_vacated arena id entry.1 frame found, if_neg (apart entry member)]
          exact chain_found arena parent rest around entry member
        obtain ⟨after, released, further, aged⟩ := ih (arena.vacate id.index) parent rest
          (chain_moved arena _ parent rest around stays) (by rw [List.length_cons] at enough; omega)
        exact ⟨after, by simp [releaseChain, found, several, inner, released],
          released_last arena id frame rest after found last apart further,
          aged_trans arena _ after [id] ((spent rest).map Prod.fst) vacated aged⟩

end CoopScript.Arena
