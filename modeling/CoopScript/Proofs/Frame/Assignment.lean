import CoopScript.Proofs.Frame.Safety

set_option autoImplicit false
namespace CoopScript

def Frame.stripped (frame : Frame) : Frame := { frame with bindings := .empty }

theorem NameMap.contains_insert {α : Type} (map : NameMap α) (name other : String) (value : α) :
    (map.insert name value).contains other = (decide (other = name) || map.contains other) := by
  rw [contains, contains, find?_insert]
  by_cases same : other = name <;> simp [same]

namespace Arena

-- Every live frame has a finite chain of live frames around it.
def Grounded (arena : Arena) : Prop := ∀ id, arena.isLive id = true → ∃ depth, arena.Anchored depth id

theorem kept_grounded (arena : Arena) (owners : List FrameId) (kept : arena.Kept owners) : arena.Grounded := kept.anchored

-- The innermost frames of a chain, as far as the first one that belongs to a function.
def scope : List (FrameId × Frame) → List (FrameId × Frame)
  | [] => []
  | entry :: rest => if entry.2.isFunction then [entry] else entry :: scope rest

-- The first frame on a chain that binds a name.
def nearest (name : String) (chain : List (FrameId × Frame)) : Option FrameId :=
  (chain.find? fun entry => entry.2.bindings.contains name).map Prod.fst

-- The frame that an assignment at the inner end of a chain is to write to.
def aim (chain : List (FrameId × Frame)) (id : FrameId) (name : String) : FrameId :=
  (nearest name (scope chain)).getD id

-- What a name is bound to in this very frame.
def bound (arena : Arena) (id : FrameId) (name : String) : Option Value :=
  (arena.frame? id).bind fun frame => frame.bindings.find? name

/-- One binding is another one now. All else is as it was: the other bindings, the rest of every frame, and the empty slots. -/
structure Rebinds (target : FrameId) (name : String) (value : Value) (arena after : Arena) : Prop where
  bindings : ∀ id other, after.bound id other = if id = target ∧ other = name then some value else arena.bound id other
  frames : ∀ id, (after.frame? id).map Frame.stripped = (arena.frame? id).map Frame.stripped
  free : after.free = arena.free
  generations : after.slots.map Slot.generation = arena.slots.map Slot.generation

section Chain
variable (target : FrameId) (name : String) (value : Value)

-- An entry of a chain once the name is bound in the target.
def rebound (entry : FrameId × Frame) : FrameId × Frame :=
  (entry.1, if entry.1 = target then { entry.2 with bindings := entry.2.bindings.insert name value } else entry.2)

theorem scope_front (chain : List (FrameId × Frame)) : scope chain <+: chain := by
  induction chain with
  | nil => exact List.prefix_rfl
  | cons entry rest ih =>
    rw [scope]
    by_cases function : entry.2.isFunction = true
    · rw [if_pos function]
      exact ⟨rest, rfl⟩
    · rw [if_neg function]
      exact (List.prefix_cons_inj entry).mpr ih

theorem nearest_cons (entry : FrameId × Frame) (rest : List (FrameId × Frame)) :
    nearest name (entry :: rest) = if entry.2.bindings.contains name = true then some entry.1 else nearest name rest := by
  by_cases binds : entry.2.bindings.contains name = true <;> simp [nearest, binds]

theorem aim_found (chain : List (FrameId × Frame)) (id : FrameId) :
    (chain.findSome? fun entry =>
      if entry.2.bindings.contains name = true then some entry.1 else if entry.2.isFunction = true then some id else none).getD id =
      aim chain id name := by
  unfold aim
  induction chain with
  | nil => rfl
  | cons entry rest ih =>
    rw [List.findSome?_cons, scope]
    by_cases binds : entry.2.bindings.contains name = true
    · by_cases function : entry.2.isFunction = true <;> simp [function, binds, nearest_cons]
    · by_cases function : entry.2.isFunction = true
      · simp [function, binds, nearest]
      · simp only [function, binds, nearest_cons, Bool.false_eq_true, if_false]
        exact ih

theorem rebound_binds (entry : FrameId × Frame) (here : entry.1 = target) :
    (rebound target name value entry).2.bindings.contains name = true := by
  rw [rebound, if_pos here, NameMap.contains_insert, decide_eq_true rfl, Bool.true_or]

theorem nearest_rebound (chain : List (FrameId × Frame)) (first : nearest name chain = some target) :
    nearest name (chain.map (rebound target name value)) = some target := by
  induction chain with
  | nil => cases first
  | cons entry rest ih =>
    rw [List.map_cons, nearest_cons]
    by_cases here : entry.1 = target
    · rw [if_pos (rebound_binds target name value entry here), rebound, here]
    · rw [nearest_cons] at first
      by_cases binds : entry.2.bindings.contains name = true
      · rw [if_pos binds] at first
        exact absurd (Option.some.inj first) here
      · rw [if_neg binds] at first
        rw [rebound, if_neg here, if_neg binds, ih first]

-- Whoever assigns finds what was assigned before any other binding.
theorem nearest_aim (id : FrameId) (frame : Frame) (rest : List (FrameId × Frame)) (hit : aim ((id, frame) :: rest) id name = target) :
    nearest name (((id, frame) :: rest).map (rebound target name value)) = some target := by
  unfold aim at hit
  cases inner : nearest name (scope ((id, frame) :: rest)) with
  | none =>
    rw [inner, Option.getD_none] at hit
    rw [List.map_cons, nearest_cons, if_pos (rebound_binds target name value (id, frame) hit), rebound, hit]
  | some nearer =>
    rw [inner, Option.getD_some] at hit
    subst hit
    refine nearest_rebound nearer name value _ ?_
    obtain ⟨entry, found, rfl⟩ := Option.map_eq_some_iff.mp inner
    rw [nearest, (scope_front _).find?_eq_some found, Option.map_some]

theorem rebound_other (entry : FrameId × Frame) (other : String) (different : other ≠ name) :
    (rebound target name value entry).2.bindings.find? other = entry.2.bindings.find? other := by
  unfold rebound
  split
  next => exact (NameMap.find?_insert _ _ _ _).trans (if_neg different)
  next => rfl

theorem seen_other (chain : List (FrameId × Frame)) (other : String) (different : other ≠ name) :
    (chain.map (rebound target name value)).findSome? (fun entry => entry.2.bindings.find? other) =
      chain.findSome? fun entry => entry.2.bindings.find? other := by
  rw [List.findSome?_map]
  exact congrArg (List.findSome? · chain) (funext fun entry => rebound_other target name value entry other different)

theorem seen_same (chain : List (FrameId × Frame)) :
    (chain.map (rebound target name value)).findSome? (fun entry => entry.2.bindings.find? name) =
      if nearest name (chain.map (rebound target name value)) = some target then some value
      else chain.findSome? fun entry => entry.2.bindings.find? name := by
  induction chain with
  | nil => rfl
  | cons entry rest ih =>
    rw [List.map_cons, nearest_cons, List.findSome?_cons, List.findSome?_cons]
    by_cases here : entry.1 = target
    · rw [if_pos (rebound_binds target name value entry here), rebound, here, if_pos rfl, if_pos rfl]
      simp only [NameMap.find?_insert, if_true]
    · rw [rebound, if_neg here]
      -- either this frame hides the target from the ones inside it, or it does not know the name
      cases binds : entry.2.bindings.find? name with
      | some old =>
        have known : entry.2.bindings.contains name = true := by rw [NameMap.contains, binds, Option.isSome_some]
        rw [if_pos known, if_neg fun same => here (Option.some.inj same)]
      | none =>
        have unknown : ¬ entry.2.bindings.contains name = true := by simp [NameMap.contains, binds]
        rw [if_neg unknown]
        exact ih

theorem meaning_rebound (chain : List (FrameId × Frame)) (other : String) :
    meaning (chain.map (rebound target name value)) other =
      if other = name ∧ nearest name (chain.map (rebound target name value)) = some target then .ok value
      else meaning chain other := by
  unfold meaning
  by_cases same : other = name
  · subst same
    rw [seen_same]
    by_cases first : nearest other (chain.map (rebound target other value)) = some target
    · rw [if_pos first, if_pos ⟨rfl, first⟩]
    · rw [if_neg first, if_neg fun both => first both.2]
  · rw [seen_other target name value chain other same, if_neg fun both => same both.1]

end Chain

section Assign
variable (arena : Arena) (id target : FrameId) (name : String) (value : Value)

theorem grounded_chain (grounded : arena.Grounded) (live : arena.isLive id = true) :
    ∃ chain, arena.Chain id chain ∧ chain.length ≤ arena.reach := by
  obtain ⟨depth, anchored⟩ := grounded id live
  obtain ⟨chain, line, length⟩ := arena.chain_of_anchored id depth anchored
  have bound := arena.anchored_depth_bound depth id anchored
  exact ⟨chain, line, by unfold reach; omega⟩

theorem target_aim (chain : List (FrameId × Frame)) (line : arena.Chain id chain) (short : chain.length ≤ arena.reach) :
    arena.target id name = .ok (aim chain id name) := by
  unfold Arena.target search
  simp only [arena.search_chain id chain _ _ line short, Except.map, aim_found]

variable (frame : Frame) (found : arena.frame? target = some frame)
include found

theorem rebinds_set : Rebinds target name value arena
    (arena.setFrame target.index { frame with bindings := frame.bindings.insert name value }) where
  bindings := by
    intro other also
    rw [bound, frame_set arena target other frame _ found]
    by_cases here : other = target
    · subst here
      simp only [if_true, Option.bind_some, NameMap.find?_insert, true_and, bound, found]
    · simp only [here, if_false, false_and, bound]
  frames := by
    intro other
    rw [frame_set arena target other frame _ found]
    by_cases here : other = target
    · subst here
      rw [if_pos rfl, found]
      rfl
    · rw [if_neg here]
  free := rfl
  generations := by
    apply Array.ext
    · simp [setFrame]
    · intro index _ _
      simp only [setFrame, Array.getElem_map, Array.getElem_modify]
      split <;> rfl

theorem chain_rebound (observer : FrameId) (line : List (FrameId × Frame)) (before : arena.Chain observer line) :
    (arena.setFrame target.index { frame with bindings := frame.bindings.insert name value }).Chain observer
      (line.map (rebound target name value)) := by
  have there : ∀ id old, arena.frame? id = some old →
      (arena.setFrame target.index { frame with bindings := frame.bindings.insert name value }).frame? id =
        some (rebound target name value (id, old)).2 := by
    intro id old known
    rw [frame_set arena target id frame _ found, rebound]
    by_cases here : id = target
    · subst here
      rw [if_pos rfl, if_pos rfl, Option.some.inj (found.symm.trans known)]
    · rw [if_neg here, if_neg here, known]
  have parent : ∀ entry : FrameId × Frame, (rebound target name value entry).2.parent = entry.2.parent := by
    intro entry
    unfold rebound
    dsimp only
    split <;> rfl
  induction before with
  | outermost id old known outer => exact .outermost id _ (there id old known) ((parent (id, old)).trans outer)
  | inside id around old rest known inner _ ih =>
    exact .inside id around _ _ (there id old known) ((parent (id, old)).trans inner) ih

omit found in
theorem Rebinds.parents {after : Arena} (rebinds : Rebinds target name value arena after) (other : FrameId) (old : Frame)
    (known : arena.frame? other = some old) : ∃ later, after.frame? other = some later ∧ later.parent = old.parent := by
  have same := rebinds.frames other
  rw [known, Option.map_some] at same
  obtain ⟨later, there, stripped⟩ := Option.map_eq_some_iff.mp same
  have parent : later.stripped.parent = old.stripped.parent := congrArg Frame.parent stripped
  exact ⟨later, there, parent⟩

omit found in
theorem Rebinds.live {after : Arena} (rebinds : Rebinds target name value arena after) (other : FrameId) :
    after.isLive other = arena.isLive other := by
  have same := congrArg Option.isSome (rebinds.frames other)
  rwa [Option.isSome_map, Option.isSome_map] at same

omit found in
theorem Rebinds.grounded {after : Arena} (rebinds : Rebinds target name value arena after) (grounded : arena.Grounded) :
    after.Grounded := by
  intro other live
  rw [rebinds.live] at live
  obtain ⟨depth, anchored⟩ := grounded other live
  exact ⟨depth, arena.anchored_keeps after depth other anchored (rebinds.parents arena target name value)⟩

end Assign

/-- An assignment binds its name in the frame that it aims at and nowhere else. Who assigns sees the value, and so does everyone
whose first frame with a binding of the name is now that one; nobody else sees anything change. -/
theorem assignment_rebinds (arena : Arena) (grounded : arena.Grounded) (id : FrameId) (live : arena.isLive id = true) (name : String)
    (value : Value) : ∃ chain after, arena.Chain id chain ∧ arena.assign id name value = .ok after ∧ after.Grounded ∧
      Rebinds (aim chain id name) name value arena after ∧ after.lookUp id name = .ok value ∧
      ∀ observer, arena.isLive observer = true → ∃ line, after.Chain observer line ∧ ∀ other,
        after.lookUp observer other =
          if other = name ∧ nearest name line = some (aim chain id name) then .ok value else arena.lookUp observer other := by
  obtain ⟨chain, line, short⟩ := arena.grounded_chain id grounded live
  have aimed := arena.target_aim id name chain line short
  have hit := arena.target_live id _ name chain line live short aimed
  obtain ⟨frame, found⟩ := (arena.live_found _).mp hit
  have rebinds := arena.rebinds_set (aim chain id name) name value frame found
  have later := rebinds.grounded arena _ name value grounded
  have observed : ∀ observer others, arena.Chain observer others → others.length ≤ arena.reach → ∀ other,
      (arena.setFrame (aim chain id name).index { frame with bindings := frame.bindings.insert name value }).lookUp observer other =
        if other = name ∧ nearest name (others.map (rebound (aim chain id name) name value)) = some (aim chain id name) then .ok value
        else arena.lookUp observer other := by
    intro observer others before enough other
    have now := arena.chain_rebound _ name value frame found observer others before
    rw [look_up_chain _ observer other _ now (by rw [List.length_map]; exact enough.trans (by simp [reach, setFrame])),
      meaning_rebound, arena.look_up_chain observer other others before enough]
  refine ⟨chain, _, line, by simp only [assign, aimed, setVariable, update, found], later, rebinds, ?_, ?_⟩
  · have first : nearest name (chain.map (rebound (aim chain id name) name value)) = some (aim chain id name) := by
      cases line with
      | outermost _ innermost _ _ => exact nearest_aim _ name value id innermost [] rfl
      | inside _ _ innermost rest _ _ _ => exact nearest_aim _ name value id innermost rest rfl
    rw [observed id chain line short, if_pos ⟨rfl, first⟩]
  · intro observer there
    obtain ⟨others, before, enough⟩ := arena.grounded_chain observer grounded there
    exact ⟨_, arena.chain_rebound _ name value frame found observer others before, observed observer others before enough⟩

-- The outermost frame binds the name too, but a function lies between, and the block inside it gets a binding of its
-- own.
theorem assignment_in_function : ∃ arena after : Arena, arena.Grounded ∧ arena.isLive ⟨2, 0⟩ = true ∧
    arena.assign ⟨2, 0⟩ "x" (ClassTable.intrinsic.flag true) = .ok after ∧
    after.lookUp ⟨2, 0⟩ "x" = .ok (ClassTable.intrinsic.flag true) ∧ arena.bound root "x" = after.bound root "x" := by
  let pushed := (Tenancy.initial.perform (.push root true .empty)).perform (.push ⟨1, 0⟩ false .empty)
  let last := pushed.perform (.setVariable root "x" (ClassTable.intrinsic.flag false))
  have reached : last.Reached := .step _ _ (.step _ _ (.step _ _ .start trivial) trivial) trivial
  have grounded := last.arena.kept_grounded _ (last.reached_sound reached).kept
  have live : last.arena.isLive ⟨2, 0⟩ = true := by decide +kernel
  obtain ⟨chain, after, line, assigned, -, rebinds, seen, -⟩ :=
    assignment_rebinds last.arena grounded ⟨2, 0⟩ live "x" (ClassTable.intrinsic.flag true)
  refine ⟨last.arena, after, grounded, live, assigned, seen, ?_⟩
  rw [rebinds.bindings, if_neg]
  rintro ⟨outermost, -⟩
  obtain ⟨others, again, short⟩ := last.arena.grounded_chain ⟨2, 0⟩ grounded live
  rw [last.arena.chain_unique _ _ _ line again] at short
  have aimed := congrArg Except.toOption (last.arena.target_aim ⟨2, 0⟩ "x" chain line short)
  have inner : (last.arena.target ⟨2, 0⟩ "x").toOption = some ⟨2, 0⟩ := by decide +kernel
  rw [inner, ← outermost] at aimed
  exact absurd aimed (by decide)

end Arena
end CoopScript
