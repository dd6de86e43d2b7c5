import CoopScript.Proofs.Frame.Tenancy

set_option autoImplicit false
namespace CoopScript

namespace Arena
variable (arena : Arena)

-- One frame right inside another.
def Inside (inner outer : FrameId) : Prop := ∃ frame, arena.frame? inner = some frame ∧ frame.parent = some outer

theorem inside_anchored (inner outer : FrameId) (depth : Nat) (anchored : arena.Anchored depth inner)
    (inside : arena.Inside inner outer) : ∃ level < depth, arena.Anchored level outer := by
  obtain ⟨frame, found, around⟩ := inside
  cases anchored with
  | outermost _ other otherFound alone =>
    rw [Option.some.inj (found.symm.trans otherFound), alone] at around
    cases around
  | inside level _ other content otherFound inner further =>
    rw [Option.some.inj (found.symm.trans otherFound), inner] at around
    cases around
    exact ⟨level, Nat.lt_succ_self _, further⟩

theorem outward_anchored (inner outer : FrameId) (depth : Nat) (anchored : arena.Anchored depth inner)
    (outward : Relation.TransGen arena.Inside inner outer) : ∃ level < depth, arena.Anchored level outer := by
  induction outward with
  | single inside => exact arena.inside_anchored inner _ depth anchored inside
  | tail _ inside ih =>
    obtain ⟨level, less, there⟩ := ih
    obtain ⟨lower, lowerLess, further⟩ := arena.inside_anchored _ _ level there inside
    exact ⟨lower, lowerLess.trans less, further⟩

theorem acyclic (owners : List FrameId) (kept : arena.Kept owners) (id : FrameId) :
    ¬ Relation.TransGen arena.Inside id id := by
  intro round
  obtain ⟨next, ⟨frame, found, _⟩, _⟩ := Relation.TransGen.head'_iff.mp round
  obtain ⟨depth, anchored⟩ := kept.anchored id ((arena.live_found id).mpr ⟨frame, found⟩)
  obtain ⟨level, less, again⟩ := arena.outward_anchored id id depth anchored round
  exact Nat.lt_irrefl depth (arena.anchored_depth_unique level depth id again anchored ▸ less)

-- What a name means on a chain of frames: the nearest frame that binds it decides.
def meaning (chain : List (FrameId × Frame)) (name : String) : Except Cause Value :=
  match chain.findSome? fun entry => entry.2.bindings.find? name with
  | some value => .ok value
  | none => .error (.unknownVariable name)

theorem look_up_chain (id : FrameId) (name : String) (chain : List (FrameId × Frame)) (line : arena.Chain id chain)
    (short : chain.length ≤ arena.reach) : arena.lookUp id name = meaning chain name := by
  unfold lookUp search meaning
  rw [arena.search_chain id chain _ _ line short]
  cases chain.findSome? _ <;> rfl

/-- Looking outwards from a frame comes to an end, at the outermost frame at the latest, and meets live frames only. -/
structure Answers (id : FrameId) (chain : List (FrameId × Frame)) : Prop where
  line : arena.Chain id chain
  short : chain.length ≤ arena.slots.size
  lookUp : ∀ name, arena.lookUp id name = meaning chain name
  functionFrame : arena.functionFrame id =
    .ok (chain.findSome? fun entry => if entry.2.isFunction then some entry.1 else none)
  assign : ∀ name value, ∃ after, arena.assign id name value = .ok after

theorem target_live (id target : FrameId) (name : String) (chain : List (FrameId × Frame)) (line : arena.Chain id chain)
    (live : arena.isLive id = true) (short : chain.length ≤ arena.reach) (aimed : arena.target id name = .ok target) :
    arena.isLive target = true := by
  unfold Arena.target search at aimed
  simp only at aimed
  rw [search_chain arena id chain _ _ line short] at aimed
  cases found : chain.findSome? _ with
  | none =>
    rw [found] at aimed
    cases aimed
    exact live
  | some answer =>
    rw [found] at aimed
    cases aimed
    obtain ⟨entry, member, asked⟩ := List.exists_of_findSome?_eq_some found
    have there := arena.chain_found id chain line entry member
    split at asked
    · cases asked
      exact (arena.live_found _).mpr ⟨_, there⟩
    · split at asked
      · cases asked
        exact live
      · cases asked

theorem kept_answers (owners : List FrameId) (kept : arena.Kept owners) (id : FrameId)
    (live : arena.isLive id = true) : ∃ chain, arena.Answers id chain := by
  obtain ⟨depth, anchored⟩ := kept.anchored id live
  obtain ⟨chain, line, length⟩ := arena.chain_of_anchored id depth anchored
  have bound := arena.anchored_depth_bound depth id anchored
  have short : chain.length ≤ arena.reach := by unfold reach; omega
  refine ⟨chain, line, by omega, fun name => arena.look_up_chain id name chain line short,
    arena.search_chain id chain _ _ line short, fun name value => ?_⟩
  obtain ⟨target, aimed⟩ : ∃ target, arena.target id name = .ok target := by
    unfold Arena.target search
    simp only [arena.search_chain id chain _ _ line short]
    exact ⟨_, rfl⟩
  obtain ⟨frame, found⟩ := (arena.live_found target).mp (arena.target_live id target name chain line live short aimed)
  exact ⟨_, by simp only [assign, aimed, setVariable, update, found]; rfl⟩

-- A name that names no frame is refused by every operation, and nothing changes.
structure Refuses (id : FrameId) : Prop where
  operations : ∀ op : FrameOp, op.frame = id → op.run arena = (arena, some (stale id))
  frame : arena.frame id = .error (stale id)
  lookUp : ∀ name, arena.lookUp id name = .error (stale id)
  functionFrame : arena.functionFrame id = .error (stale id)
  returned : arena.hasReturned id = false

theorem stale_refuses (id : FrameId) (missing : arena.frame? id = none) : arena.Refuses id := by
  have search : ∀ {α : Type} (ask : FrameId → Frame → Option α), arena.search ask id = .error (stale id) := by
    intro α ask
    simp only [Arena.search, reach, searchChain, missing]
  have update : ∀ change, arena.update id change = .error (stale id) := fun change => by
    simp only [Arena.update, missing]
  have retain : arena.retain id = .error (stale id) := update _
  have functionFrame : arena.functionFrame id = .error (stale id) := search _
  refine ⟨fun op about => ?_, by simp only [Arena.frame, missing], fun name => ?_, functionFrame,
    by simp only [hasReturned, missing]⟩
  · cases op <;> simp only [FrameOp.frame] at about <;> subst about <;>
      simp only [FrameOp.run, FrameOp.leave, push, retain, release, releaseChain, reach, setVariable, update, assign,
        target, search, setReturn, functionFrame, takeReturn, missing, Except.map]
  · simp only [Arena.lookUp, search]

end Arena

/-- All that holders can rely on. Counts are exact, chains lead outwards over live frames, what is given back frees what
nobody else keeps alive, and the names of freed frames are never used again. -/
structure Tenancy.Safe (tenancy : Tenancy) : Prop where
  counted : ∀ id frame, tenancy.arena.frame? id = some frame →
    1 ≤ frame.holds ∧ frame.holds = tenancy.holds.count id + tenancy.arena.children id
  parents : ∀ id frame parent, tenancy.arena.frame? id = some frame → frame.parent = some parent →
    tenancy.arena.isLive parent = true
  distinct : tenancy.arena.free.Nodup
  free : ∀ index, index ∈ tenancy.arena.free ↔ ∃ generation, tenancy.arena.slots[index]? = some ⟨generation, none⟩
  acyclic : ∀ id, ¬ Relation.TransGen tenancy.arena.Inside id id
  answers : ∀ id, tenancy.arena.isLive id = true → ∃ chain, tenancy.arena.Answers id chain
  releases : ∀ id ∈ tenancy.holds, ∃ chain after, tenancy.arena.Chain id chain ∧
    tenancy.arena.release id = (after, none) ∧ Arena.Released chain tenancy.arena after ∧
    (tenancy.arena.lost after).Perm ((Arena.spent chain).map Prod.fst)
  small : tenancy.arena.slots.size ≤ tenancy.peak
  retired : ∀ id ∈ tenancy.retired, tenancy.arena.isLive id = false
  refuses : ∀ id, tenancy.arena.isLive id = false → tenancy.arena.Refuses id

theorem arena_safe (tenancy : Tenancy) (reached : tenancy.Reached) (few : ∀ index, tenancy.frees index < 2 ^ 32) :
    tenancy.Safe := by
  have sound := tenancy.reached_sound reached
  have kept := sound.kept
  refine ⟨fun id frame found => ⟨kept.positive id frame found, kept.balance id frame found⟩, ?_, kept.distinct,
    kept.free, tenancy.arena.acyclic _ kept, tenancy.arena.kept_answers _ kept, ?_, sound.peak, ?_, ?_⟩
  · intro id frame parent found inside
    obtain ⟨depth, anchored⟩ := kept.anchored id ((Arena.live_found _ id).mpr ⟨frame, found⟩)
    exact Arena.parent_live _ depth id parent frame anchored found inside
  · intro id held
    obtain ⟨chain, after, line, run, released, _⟩ := tenancy.release_released sound id held
    exact ⟨chain, after, line, run, released, Arena.released_lost _ after id chain line released⟩
  · intro id member
    simp only [Arena.isLive, tenancy.retired_gone sound few id member, Option.isSome_none]
  · intro id dead
    exact tenancy.arena.stale_refuses id (by simpa [Arena.isLive] using dead)

-- A frame is let go before the one inside it, which then frees both; the next frame gets the slot of the outer one.
theorem arena_safe_reused : ∃ tenancy : Tenancy, tenancy.Reached ∧ (∀ index, tenancy.frees index < 2 ^ 32) ∧
    tenancy.retired = [⟨1, 0⟩, ⟨2, 0⟩] ∧ tenancy.arena.isLive ⟨1, 1⟩ = true ∧ tenancy.Safe := by
  let pushed := (Tenancy.initial.perform (.push Arena.root false .empty)).perform (.push ⟨1, 0⟩ true .empty)
  let released := (pushed.perform (.release ⟨1, 0⟩)).perform (.release ⟨2, 0⟩)
  let last := released.perform (.push Arena.root true .empty)
  have retired : last.retired = [⟨1, 0⟩, ⟨2, 0⟩] := by decide +kernel
  have reached : last.Reached := by
    refine .step _ _ (.step _ _ (.step _ _ (.step _ _ (.step _ _ .start trivial) trivial) ?_) ?_) trivial
    · exact (by decide +kernel : (⟨1, 0⟩ : FrameId) ∈ pushed.holds)
    · exact (by decide +kernel : (⟨2, 0⟩ : FrameId) ∈ (pushed.perform (.release ⟨1, 0⟩)).holds)
  have few : ∀ index, last.frees index < 2 ^ 32 := by
    intro index
    have bound : last.frees index ≤ last.retired.length := List.countP_le_length
    rw [retired] at bound
    exact Nat.lt_of_le_of_lt bound (by decide)
  exact ⟨last, reached, few, retired, by decide +kernel, arena_safe last reached few⟩

end CoopScript
