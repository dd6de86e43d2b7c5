import CoopScript.Interpreter
import CoopScript.Proofs.Machine.Primitive
import Mathlib.Data.List.Induction
import Mathlib.Data.List.Nodup
import Mathlib.Data.List.Range

set_option autoImplicit false
namespace CoopScript

namespace Node

def isKeyword (argument : Node) : Bool := argument.assignment?.isSome

def content (argument : Node) : Node :=
  match argument.assignment? with
  | some (_, value) => value
  | none => argument

-- A call ends so for an argument that spoils it.
def refuse {α : Type} (argument : Node) (cause : Cause) : Exec α :=
  match argument.position? with
  | some position => Exec.failAt cause position
  | none => Exec.fail cause

end Node

namespace Parameters

def nth (parameters : Parameters) (place : Nat) : Option String :=
  match parameters with
  | .named names => names[place]?
  | .variadic => some (toString place)

def key (parameters : Parameters) (argument : Node) (place : Nat) : Option String :=
  match argument.assignment? with
  | some (name, _) => some name
  | none => parameters.nth place

-- The names that arguments are bound to, in the order in which they are written.
def keys (parameters : Parameters) (arguments : List Node) : List String :=
  arguments.zipIdx.filterMap fun (argument, place) => parameters.key argument place

-- Parameters that no argument is bound to.
def missing (parameters : Parameters) (keys : List String) : List String :=
  match parameters with
  | .named names => names.filter fun name => !keys.contains name
  | .variadic => []

def Distinct (parameters : Parameters) : Prop := ∀ names, parameters = .named names → names.Nodup

/-- A call is written as it should be: no positional argument follows a keyword, there are parameters for all of them, and
no name is bound twice. -/
structure WellPlaced (parameters : Parameters) (arguments : List Node) : Prop where
  ordered : arguments.Pairwise fun earlier later => earlier.isKeyword = true → later.isKeyword = true
  few : ∀ names, parameters = .named names → arguments.countP (fun argument => !argument.isKeyword) ≤ names.length
  known : ∀ names, parameters = .named names → ∀ argument ∈ arguments, ∀ name value,
    argument.assignment? = some (name, value) → name ∈ names
  once : (parameters.keys arguments).Nodup

-- What is wrong with an argument, given those before it.
inductive Misplaced (function : String) (parameters : Parameters) (before : List Node) (argument : Node) : Cause → Prop
  | late (positional : argument.isKeyword = false) (other : Node) (member : other ∈ before)
      (keyword : other.isKeyword = true) : Misplaced function parameters before argument (.positionalAfterKeyword function)
  | excess (positional : argument.isKeyword = false) (others : ∀ other ∈ before, other.isKeyword = false)
      (names : List String) (named : parameters = .named names) (many : names.length ≤ before.length) :
      Misplaced function parameters before argument (.tooManyArguments function names.length)
  | unknown (name : String) (value : Node) (keyword : argument.assignment? = some (name, value)) (names : List String)
      (named : parameters = .named names) (stranger : name ∉ names) :
      Misplaced function parameters before argument (.unknownArgument name function)
  | repeated (name : String) (value : Node) (keyword : argument.assignment? = some (name, value))
      (known : ∀ names, parameters = .named names → name ∈ names) (bound : name ∈ parameters.keys before) :
      Misplaced function parameters before argument (.repeatedArgument name function)

variable (parameters : Parameters) (before : List Node) (argument : Node)

theorem keys_later : parameters.keys (before ++ [argument]) =
    parameters.keys before ++ (parameters.key argument before.length).toList := by
  simp only [keys, List.zipIdx_append, List.filterMap_append, Nat.zero_add, List.zipIdx_singleton, List.filterMap_cons,
    List.filterMap_nil]
  cases parameters.key argument before.length <;> rfl

theorem well_placed_nil : parameters.WellPlaced [] :=
  ⟨.nil, fun _ _ => Nat.zero_le _, fun _ _ => List.forall_mem_nil _, List.nodup_nil⟩

theorem well_placed_front (after : List Node) (placed : parameters.WellPlaced (before ++ after)) :
    parameters.WellPlaced before := by
  refine ⟨(List.pairwise_append.mp placed.ordered).1, fun names named => ?_, fun names named other member =>
    placed.known names named other (List.mem_append_left _ member), ?_⟩
  · have few := placed.few names named
    rw [List.countP_append] at few
    omega
  · have once := placed.once
    rw [keys, List.zipIdx_append, List.filterMap_append] at once
    exact (List.nodup_append.mp once).1

theorem positional_count (positional : ∀ other ∈ before, other.isKeyword = false) :
    before.countP (fun other => !other.isKeyword) = before.length := by
  rw [List.countP_eq_length]
  intro other member
  simp [positional other member]

-- A positional argument that is in place has only positional ones before it.
theorem all_positional (placed : parameters.WellPlaced (before ++ [argument])) (positional : argument.isKeyword = false) :
    ∀ other ∈ before, other.isKeyword = false := by
  intro other member
  have ordered := (List.pairwise_append.mp placed.ordered).2.2 other member argument List.mem_cons_self
  cases keyword : other.isKeyword with
  | false => rfl
  | true => exact absurd (ordered keyword) (by simp [positional])

theorem key_placed (placed : parameters.WellPlaced (before ++ [argument])) :
    ∃ name, parameters.key argument before.length = some name := by
  unfold key
  cases assignment : argument.assignment? with
  | some entry => exact ⟨entry.1, rfl⟩
  | none =>
    have positional : argument.isKeyword = false := by simp [Node.isKeyword, assignment]
    cases parameters with
    | variadic => exact ⟨_, rfl⟩
    | named names =>
      have few := placed.few names rfl
      rw [List.countP_append, positional_count before (all_positional _ before argument placed positional)] at few
      simp only [positional, Bool.not_false, List.countP_singleton, if_true] at few
      exact ⟨names[before.length], List.getElem?_eq_getElem few⟩

theorem keys_length (arguments : List Node) (placed : parameters.WellPlaced arguments) :
    (parameters.keys arguments).length = arguments.length := by
  induction arguments using List.reverseRecOn with
  | nil => rfl
  | append_singleton before argument ih =>
    obtain ⟨name, known⟩ := key_placed parameters before argument placed
    simp [keys_later, known, ih (well_placed_front parameters before _ placed)]

theorem nth_places (distinct : parameters.Distinct) (place other : Nat) (name : String)
    (here : parameters.nth place = some name) (there : parameters.nth other = some name) : place = other := by
  cases parameters with
  | named names =>
    simp only [nth] at here there
    obtain ⟨inside, -⟩ := List.getElem?_eq_some_iff.mp here
    exact (List.getElem?_inj inside (distinct names rfl)).mp (here.trans there.symm)
  | variadic =>
    simp only [nth, Option.some.injEq] at here there
    have digits : Nat.toDigits 10 place = Nat.toDigits 10 other := String.ofList_inj.mp (by
      rw [← Nat.toString_eq_ofList_toDigits, ← Nat.toString_eq_ofList_toDigits, here, there])
    rw [← Nat.ofDigitChars_ten_toDigits (n := place), digits, Nat.ofDigitChars_ten_toDigits]

theorem keys_positional (positional : ∀ other ∈ before, other.isKeyword = false) :
    parameters.keys before = (List.range before.length).filterMap parameters.nth := by
  induction before using List.reverseRecOn with
  | nil => rfl
  | append_singleton before argument ih =>
    obtain ⟨others, own⟩ := List.forall_mem_append.mp positional
    have none : argument.assignment? = none := by simpa [Node.isKeyword] using own argument List.mem_cons_self
    rw [keys_later, ih others, List.length_append, List.length_singleton, List.range_succ, List.filterMap_append, key, none]
    cases nth : parameters.nth before.length <;> simp [nth]

theorem keys_once (distinct : parameters.Distinct) (positional : ∀ other ∈ before, other.isKeyword = false) :
    (parameters.keys before).Nodup := by
  rw [keys_positional _ before positional]
  exact List.Nodup.filterMap (fun place other name here there => nth_places parameters distinct place other name here there)
    List.nodup_range

theorem placed_or_misplaced (distinct : parameters.Distinct) (function : String) (placed : parameters.WellPlaced before) :
    parameters.WellPlaced (before ++ [argument]) ∨ ∃ cause, parameters.Misplaced function before argument cause := by
  cases assignment : argument.assignment? with
  | some entry =>
    obtain ⟨name, value⟩ := entry
    have keyword : argument.isKeyword = true := by simp [Node.isKeyword, assignment]
    by_cases known : ∀ names, parameters = .named names → name ∈ names
    · by_cases bound : name ∈ parameters.keys before
      · exact .inr ⟨_, .repeated name value assignment known bound⟩
      · refine .inl ⟨?_, fun names named => ?_, fun names named => ?_, ?_⟩
        · exact List.pairwise_append.mpr ⟨placed.ordered, List.pairwise_singleton _ _, fun _ _ later member _ => by
            rwa [List.mem_singleton.mp member]⟩
        · simpa [List.countP_append, keyword] using placed.few names named
        · refine List.forall_mem_append.mpr ⟨placed.known names named, List.forall_mem_singleton.mpr fun other value' same => ?_⟩
          cases assignment.symm.trans same
          exact known names named
        · rw [keys_later, key, assignment]
          exact placed.once.append (List.nodup_singleton _) (List.disjoint_singleton.mpr bound)
    · obtain ⟨names, stranger⟩ := Classical.not_forall.mp known
      obtain ⟨named, stranger⟩ := Classical.not_imp.mp stranger
      exact .inr ⟨_, .unknown name value assignment names named stranger⟩
  | none =>
    have positional : argument.isKeyword = false := by simp [Node.isKeyword, assignment]
    by_cases others : ∀ other ∈ before, other.isKeyword = false
    · by_cases few : ∀ names, parameters = .named names → before.length < names.length
      · refine .inl ⟨?_, fun names named => ?_, fun names named => ?_, ?_⟩
        · exact List.pairwise_append.mpr ⟨placed.ordered, List.pairwise_singleton _ _, fun other member _ _ keyword =>
            absurd keyword (by simp [others other member])⟩
        · rw [List.countP_append, positional_count before others]
          simpa [positional] using Nat.succ_le_of_lt (few names named)
        · refine List.forall_mem_append.mpr ⟨placed.known names named, List.forall_mem_singleton.mpr fun name value same => ?_⟩
          cases assignment.symm.trans same
        · exact keys_once parameters _ distinct (List.forall_mem_append.mpr ⟨others, List.forall_mem_singleton.mpr positional⟩)
      · obtain ⟨names, many⟩ := Classical.not_forall.mp few
        obtain ⟨named, many⟩ := Classical.not_imp.mp many
        exact .inr ⟨_, .excess positional others names named (Nat.not_lt.mp many)⟩
    · obtain ⟨other, keyword⟩ := Classical.not_forall.mp others
      obtain ⟨member, keyword⟩ := Classical.not_imp.mp keyword
      exact .inr ⟨_, .late positional other member (by simpa using keyword)⟩

theorem first_misplaced (distinct : parameters.Distinct) (function : String) (arguments : List Node)
    (spoilt : ¬ parameters.WellPlaced arguments) : ∃ front argument back cause, arguments = front ++ argument :: back ∧
      parameters.WellPlaced front ∧ parameters.Misplaced function front argument cause := by
  induction arguments using List.reverseRecOn with
  | nil => exact absurd (well_placed_nil parameters) spoilt
  | append_singleton before argument ih =>
    by_cases placed : parameters.WellPlaced before
    · rcases placed_or_misplaced parameters before argument distinct function placed with whole | ⟨cause, misplaced⟩
      · exact absurd whole spoilt
      · exact ⟨before, argument, [], cause, rfl, placed, misplaced⟩
    · obtain ⟨front, other, back, cause, rfl, well, misplaced⟩ := ih placed
      exact ⟨front, other, back ++ [argument], cause, by simp, well, misplaced⟩

theorem keys_all (arguments : List Node) (placed : parameters.WellPlaced arguments) (distinct : parameters.Distinct)
    (names : List String) (named : parameters = .named names) :
    (parameters.keys arguments ++ parameters.missing (parameters.keys arguments)).Perm names := by
  have declared : ∀ name ∈ parameters.keys arguments, name ∈ names := by
    intro name listed
    obtain ⟨⟨argument, place⟩, member, key⟩ := List.mem_filterMap.mp listed
    change parameters.key argument place = some name at key
    rw [Parameters.key] at key
    cases assignment : argument.assignment? with
    | some entry =>
      rw [assignment] at key
      cases key
      exact placed.known names named argument (List.fst_mem_of_mem_zipIdx member) entry.1 entry.2 assignment
    | none =>
      rw [assignment, named] at key
      exact List.mem_of_getElem? key
  have distinct := distinct names named
  refine (List.perm_ext_iff_of_nodup ?_ distinct).mpr fun name => ?_
  · refine placed.once.append ?_ fun name listed left => ?_
    · rw [named]
      exact distinct.filter _
    · rw [named] at left listed
      simpa [listed] using (List.mem_filter.mp left).2
  · rw [List.mem_append, named]
    simp only [missing, List.mem_filter]
    subst named
    by_cases listed : name ∈ (Parameters.named names).keys arguments
    · simp [listed, declared name listed]
    · simp [listed]

theorem keys_placed (arguments : List Node) (placed : parameters.WellPlaced arguments) (place : Nat) (argument : Node)
    (there : arguments[place]? = some argument) : (parameters.keys arguments)[place]? = parameters.key argument place := by
  induction arguments using List.reverseRecOn with
  | nil => cases there
  | append_singleton before last ih =>
    have former := well_placed_front parameters before _ placed
    have length := keys_length parameters before former
    obtain ⟨name, known⟩ := key_placed parameters before last placed
    rw [keys_later, known]
    rcases Nat.lt_trichotomy place before.length with earlier | here | later
    · rw [List.getElem?_append_left earlier] at there
      rw [List.getElem?_append_left (by omega), ih former there]
    · subst here
      rw [List.getElem?_append_right (Nat.le_refl _), Nat.sub_self] at there
      cases there
      rw [List.getElem?_append_right (by omega), length, Nat.sub_self, known]
      rfl
    · rw [List.getElem?_eq_none (by simp; omega)] at there
      cases there

end Parameters

namespace NameMap
variable {α : Type} (map : NameMap α)

theorem contains_names (name : String) : map.contains name = map.names.contains name := by
  obtain ⟨entries⟩ := map
  simp only [contains, find?, names]
  induction entries with
  | nil => rfl
  | cons entry rest ih =>
    rw [lookup, List.map_cons, List.contains_cons]
    by_cases same : entry.1 = name
    · simp [same]
    · rw [if_neg same, ih, beq_eq_false_iff_ne.mpr (Ne.symm same), Bool.false_or]

theorem insert_absent (name : String) (value : α) (absent : name ∉ map.names) :
    map.insert name value = ⟨map.entries ++ [(name, value)]⟩ := by
  obtain ⟨entries⟩ := map
  simp only [insert, names, mk.injEq] at absent ⊢
  induction entries with
  | nil => rfl
  | cons entry rest ih =>
    obtain ⟨other, later⟩ := List.ne_and_not_mem_of_not_mem_cons absent
    rw [place, if_neg (Ne.symm other), ih later, List.cons_append]

end NameMap

namespace Binding
variable (function : String) (parameters : Parameters) (before : List Node) (values : List Value) (argument : Node)

def reached : Binding where
  bound := ⟨(parameters.keys before).zip values⟩
  position := before.countP fun argument => !argument.isKeyword
  keywordSeen := before.any Node.isKeyword

theorem reached_names (placed : parameters.WellPlaced before) (length : values.length = before.length) :
    (reached parameters before values).bound.names = parameters.keys before :=
  List.map_fst_zip (by rw [parameters.keys_length before placed, length])

theorem place_placed (placed : parameters.WellPlaced (before ++ [argument])) (length : values.length = before.length) :
    ∃ name, parameters.key argument before.length = some name ∧ name ∉ parameters.keys before ∧
      (reached parameters before values).place function parameters argument = .ok (name, argument.content) := by
  obtain ⟨name, known⟩ := parameters.key_placed before argument placed
  have former := parameters.well_placed_front before [argument] placed
  have fresh : name ∉ parameters.keys before := by
    have once := placed.once
    rw [Parameters.keys_later, known] at once
    exact List.disjoint_singleton.mp (List.disjoint_of_nodup_append once)
  refine ⟨name, known, fresh, ?_⟩
  rw [Parameters.key] at known
  unfold place Node.content
  cases assignment : argument.assignment? with
  | some entry =>
    simp only [assignment, Option.some.injEq] at known ⊢
    rw [NameMap.contains_names, reached_names parameters before values former length, known,
      List.contains_eq_mem, decide_eq_false fresh]
    cases parameters with
    | variadic => rfl
    | named names =>
      have declared := placed.known names rfl argument (by simp) entry.1 entry.2 assignment
      simp [known ▸ declared]
  | none =>
    have positional : argument.isKeyword = false := by simp [Node.isKeyword, assignment]
    have others := parameters.all_positional before argument placed positional
    have unseen : before.any Node.isKeyword = false := by simpa [List.any_eq_false] using others
    simp only [assignment] at known ⊢
    rw [reached, unseen, Parameters.positional_count before others]
    cases parameters with
    | variadic => simpa [Parameters.nth] using known
    | named names => simp_all [Parameters.nth]

theorem place_misplaced (placed : parameters.WellPlaced before) (length : values.length = before.length) (cause : Cause)
    (misplaced : parameters.Misplaced function before argument cause) :
    (reached parameters before values).place function parameters argument = .error cause := by
  unfold place
  cases misplaced with
  | late positional other member keyword =>
    have none : argument.assignment? = none := by simpa [Node.isKeyword] using positional
    have seen : before.any Node.isKeyword = true := List.any_eq_true.mpr ⟨other, member, keyword⟩
    simp [none, reached, seen]
  | excess positional others names named many =>
    have none : argument.assignment? = none := by simpa [Node.isKeyword] using positional
    have unseen : before.any Node.isKeyword = false := by simpa [List.any_eq_false] using others
    subst named
    simp [none, reached, unseen, Parameters.positional_count before others, List.getElem?_eq_none many]
  | unknown name value keyword names named stranger =>
    subst named
    simp [keyword, stranger]
  | repeated name value keyword known bound =>
    rw [keyword]
    simp only
    rw [NameMap.contains_names, reached_names parameters before values placed length, List.contains_eq_mem, decide_eq_true bound]
    cases parameters with
    | variadic => rfl
    | named names => simp [known names rfl]

theorem reached_next (placed : parameters.WellPlaced before) (length : values.length = before.length) (name : String)
    (value : Value) (key : parameters.key argument before.length = some name) (fresh : name ∉ parameters.keys before) :
    (reached parameters before values).add argument name value = reached parameters (before ++ [argument]) (values ++ [value]) := by
  have grown : (reached parameters before values).bound.insert name value =
      ⟨(parameters.keys (before ++ [argument])).zip (values ++ [value])⟩ := by
    rw [NameMap.insert_absent _ name value (by rwa [reached_names parameters before values placed length]),
      Parameters.keys_later, key]
    simp [reached, List.zip_append (parameters.keys_length before placed ▸ length.symm)]
  unfold add
  cases assignment : argument.assignment? with
  | some entry =>
    simp only [grown]
    simp [reached, List.countP_append, Node.isKeyword, assignment]
  | none =>
    simp only [grown]
    simp [reached, List.countP_append, Node.isKeyword, assignment]

theorem fill_missing (void : Value) (distinct : parameters.Distinct) (bound : Bindings) :
    fill void parameters bound = ⟨bound.entries ++ (parameters.missing bound.names).map (·, void)⟩ := by
  cases parameters with
  | variadic => simp [fill, Parameters.missing]
  | named names =>
    replace distinct := distinct names rfl
    simp only [fill, Parameters.missing]
    induction names generalizing bound with
    | nil => simp
    | cons name rest ih =>
      obtain ⟨alone, later⟩ := List.nodup_cons.mp distinct
      rw [List.foldl_cons, NameMap.contains_names]
      by_cases supplied : name ∈ bound.names
      · rw [if_pos (by simpa using supplied), ih bound later,
          List.filter_cons_of_neg (by simpa using supplied)]
      · rw [if_neg (by simpa using supplied), NameMap.insert_absent _ name void supplied,
          ih _ later, List.filter_cons_of_pos (by simpa using supplied)]
        have others : rest.filter (fun other => !(bound.names ++ [name]).contains other) =
            rest.filter fun other => !bound.names.contains other :=
          List.filter_congr fun other member => by
            simp [show other ≠ name from fun same => alone (same ▸ member)]
        simp only [NameMap.names, List.map_append, List.map_cons, List.map_nil] at others ⊢
        rw [others, List.append_assoc, List.singleton_append]

end Binding

namespace Exec
variable {α β : Type} (action : α → Exec β)

theorem collect_length (items : List α) (machine after : Machine) (values : List β)
    (done : collect action items machine = .done values after) : values.length = items.length := by
  induction items generalizing machine values with
  | nil => cases done; rfl
  | cons item rest ih =>
    obtain ⟨middle, value, -, done⟩ := done_of_bind _ _ _ _ _ done
    obtain ⟨last, later, collected, done⟩ := done_of_bind _ _ _ _ _ done
    cases done
    rw [List.length_cons, List.length_cons, ih middle later collected]

theorem collect_failed (items : List α) (machine after : Machine) (failure : Failure)
    (failed : collect action items machine = .failed failure after) : ∃ front item back values middle,
      items = front ++ item :: back ∧ collect action front machine = .done values middle ∧
      action item middle = .failed failure after := by
  induction items generalizing machine with
  | nil => cases failed
  | cons item rest ih =>
    cases first : action item machine with
    | outOfFuel =>
      rw [collect, bind_exhausted _ _ _ first] at failed
      cases failed
    | failed failure' middle =>
      rw [collect, bind_failed _ _ _ _ _ first] at failed
      cases failed
      exact ⟨[], item, rest, [], machine, rfl, rfl, first⟩
    | done value middle =>
      rw [collect, bind_done _ _ _ _ _ first] at failed
      cases later : collect action rest middle with
      | outOfFuel =>
        rw [bind_exhausted _ _ _ later] at failed
        cases failed
      | done values last =>
        rw [bind_done _ _ _ _ _ later] at failed
        cases failed
      | failed failure' last =>
        rw [bind_failed _ _ _ _ _ later] at failed
        cases failed
        obtain ⟨front, other, back, values, reached, rfl, collected, ends⟩ := ih middle later
        refine ⟨item :: front, other, back, value :: values, reached, rfl, ?_, ends⟩
        rw [collect, bind_done _ _ _ _ _ first, bind_done _ _ _ _ _ collected]
        rfl

end Exec

namespace Engine
open Binding (reached)
variable (engine : Engine) (function : String) (parameters : Parameters) (frame : FrameId)

-- All that is evaluated of arguments that are in place.
def gather (arguments : List Node) : Exec (List Value) :=
  Exec.collect (fun argument => engine.evaluate argument.content frame) arguments

theorem bind_all_front (front back before : List Node) (values : List Value)
    (placed : parameters.WellPlaced (before ++ front)) (length : values.length = before.length) :
    engine.bindAll function parameters frame (reached parameters before values) (front ++ back) = (do
      let later ← engine.gather frame front
      engine.bindAll function parameters frame (reached parameters (before ++ front) (values ++ later)) back) := by
  induction front generalizing before values with
  | nil =>
    funext machine
    show _ = engine.bindAll function parameters frame (reached parameters (before ++ []) (values ++ [])) back machine
    rw [List.append_nil, List.append_nil, List.nil_append]
  | cons argument rest ih =>
    have whole : parameters.WellPlaced (before ++ [argument] ++ rest) := by rwa [List.append_assoc, List.singleton_append]
    have first := parameters.well_placed_front (before ++ [argument]) rest whole
    have former := parameters.well_placed_front before [argument] first
    obtain ⟨name, key, fresh, place⟩ := Binding.place_placed function parameters before values argument first length
    rw [List.cons_append, bindAll, place]
    simp only [gather, Exec.collect, Exec.bind_assoc]
    congr 1
    funext value
    rw [Binding.reached_next parameters before values argument former length name value key fresh,
      ih (before ++ [argument]) (values ++ [value]) whole (by simp [length]), List.append_assoc, List.singleton_append]
    simp only [List.append_assoc, List.singleton_append]
    rfl

theorem bind_front (front back : List Node) (placed : parameters.WellPlaced front) :
    engine.bindAll function parameters frame .start (front ++ back) = (do
      let values ← engine.gather frame front
      engine.bindAll function parameters frame (reached parameters front values) back) :=
  engine.bind_all_front function parameters frame front back [] [] placed rfl

theorem bound_placed (distinct : parameters.Distinct) (arguments : List Node) (placed : parameters.WellPlaced arguments) :
    engine.bindArguments function parameters arguments frame = (do
      let values ← engine.gather frame arguments
      let void ← Exec.void
      return ⟨(parameters.keys arguments).zip values ++
        (parameters.missing (parameters.keys arguments)).map (·, void)⟩) := by
  have front := engine.bind_front function parameters frame arguments [] placed
  rw [List.append_nil] at front
  funext machine
  rw [bindArguments, front, Exec.bind_assoc]
  refine Exec.bind_next _ _ _ machine fun values after collected => ?_
  have length := Exec.collect_length _ arguments machine after values collected
  have names := Binding.reached_names parameters arguments values placed length
  show Outcome.done _ after = Outcome.done _ after
  rw [Binding.fill_missing parameters _ distinct, names]
  rfl

theorem bound_misplaced (front back : List Node) (argument : Node) (cause : Cause) (placed : parameters.WellPlaced front)
    (misplaced : parameters.Misplaced function front argument cause) :
    engine.bindArguments function parameters (front ++ argument :: back) frame = (do
      let _ ← engine.gather frame front
      argument.refuse cause) := by
  funext machine
  rw [bindArguments, engine.bind_front function parameters frame front (argument :: back) placed, Exec.bind_assoc]
  refine Exec.bind_next _ _ _ machine fun values after collected => ?_
  have length := Exec.collect_length _ front machine after values collected
  rw [bindAll, Binding.place_misplaced function parameters front values argument placed length cause misplaced, Node.refuse]
  cases argument.position? <;> rfl

/-- An argument at which a call fails: one that is misplaced, or one that is in place and fails itself. -/
inductive Offends (front : List Node) (argument : Node) (machine : Machine) (failure : Failure) (after : Machine) : Prop
  | misplaced (cause : Cause) (misplaced : parameters.Misplaced function front argument cause)
      (refused : (argument.refuse cause : Exec Bindings) machine = .failed failure after)
  | fails (placed : parameters.WellPlaced (front ++ [argument]))
      (failed : engine.evaluate argument.content frame machine = .failed failure after)

theorem bound_offended (front back : List Node) (argument : Node) (placed : parameters.WellPlaced front)
    (values : List Value) (machine middle after : Machine) (failure : Failure)
    (gathered : engine.gather frame front machine = .done values middle)
    (offends : engine.Offends function parameters frame front argument middle failure after) :
    engine.bindArguments function parameters (front ++ argument :: back) frame machine = .failed failure after := by
  cases offends with
  | misplaced cause misplaced refused =>
    rw [engine.bound_misplaced function parameters frame front back argument cause placed misplaced,
      Exec.bind_done _ _ _ _ _ gathered, refused]
  | fails whole failed =>
    have length := Exec.collect_length _ front machine middle values gathered
    obtain ⟨name, -, -, place⟩ := Binding.place_placed function parameters front values argument whole length
    rw [bindArguments, engine.bind_front function parameters frame front (argument :: back) placed, Exec.bind_assoc,
      Exec.bind_done _ _ _ _ _ gathered]
    refine Exec.bind_failed _ _ _ _ _ ?_
    rw [bindAll, place]
    exact Exec.bind_failed _ _ _ _ _ failed

theorem bound_failure (distinct : parameters.Distinct) (arguments : List Node) (machine after : Machine) (failure : Failure) :
    engine.bindArguments function parameters arguments frame machine = .failed failure after ↔
      ∃ front argument back values middle, arguments = front ++ argument :: back ∧ parameters.WellPlaced front ∧
        engine.gather frame front machine = .done values middle ∧
        engine.Offends function parameters frame front argument middle failure after := by
  constructor
  · intro failed
    -- Until the first misplaced argument, or to the end, all is in place.
    have split : ∃ front back, arguments = front ++ back ∧ parameters.WellPlaced front ∧
        (engine.gather frame front machine = .failed failure after ∨ ∃ argument rest values middle,
          back = argument :: rest ∧ engine.gather frame front machine = .done values middle ∧
          engine.Offends function parameters frame front argument middle failure after) := by
      by_cases placed : parameters.WellPlaced arguments
      · refine ⟨arguments, [], (List.append_nil _).symm, placed, .inl ?_⟩
        rw [engine.bound_placed function parameters frame distinct arguments placed] at failed
        cases gathered : engine.gather frame arguments machine with
        | outOfFuel => rw [Exec.bind_exhausted _ _ _ gathered] at failed; cases failed
        | done values middle => rw [Exec.bind_done _ _ _ _ _ gathered] at failed; cases failed
        | failed other middle => rw [Exec.bind_failed _ _ _ _ _ gathered] at failed; cases failed; rfl
      · obtain ⟨front, argument, rest, cause, rfl, placed, misplaced⟩ :=
          parameters.first_misplaced distinct function arguments placed
        refine ⟨front, argument :: rest, rfl, placed, ?_⟩
        rw [engine.bound_misplaced function parameters frame front rest argument cause placed misplaced] at failed
        cases gathered : engine.gather frame front machine with
        | outOfFuel => rw [Exec.bind_exhausted _ _ _ gathered] at failed; cases failed
        | failed other middle => rw [Exec.bind_failed _ _ _ _ _ gathered] at failed; cases failed; exact .inl rfl
        | done values middle =>
          rw [Exec.bind_done _ _ _ _ _ gathered] at failed
          exact .inr ⟨argument, rest, values, middle, rfl, rfl, .misplaced cause misplaced failed⟩
    obtain ⟨front, back, rfl, placed, failed | ⟨argument, rest, values, middle, rfl, gathered, offends⟩⟩ := split
    · obtain ⟨former, argument, later, values, middle, rfl, gathered, failed⟩ := Exec.collect_failed _ _ _ _ _ failed
      refine ⟨former, argument, later ++ back, values, middle, by simp, parameters.well_placed_front _ _ placed, gathered,
        .fails (parameters.well_placed_front _ later ?_) failed⟩
      rwa [List.append_assoc, List.singleton_append]
    · exact ⟨front, argument, rest, values, middle, rfl, placed, gathered, offends⟩
  · rintro ⟨front, argument, back, values, middle, rfl, placed, gathered, offends⟩
    exact engine.bound_offended function parameters frame front back argument placed values machine middle after failure
      gathered offends

theorem bound_success (distinct : parameters.Distinct) (arguments : List Node) (machine after : Machine) (bound : Bindings) :
    engine.bindArguments function parameters arguments frame machine = .done bound after ↔
      parameters.WellPlaced arguments ∧ ∃ values, engine.gather frame arguments machine = .done values after ∧
        bound = ⟨(parameters.keys arguments).zip values ++
          (parameters.missing (parameters.keys arguments)).map (·, after.classes.void)⟩ := by
  constructor
  · intro done
    by_cases placed : parameters.WellPlaced arguments
    · rw [engine.bound_placed function parameters frame distinct arguments placed] at done
      obtain ⟨middle, values, gathered, done⟩ := Exec.done_of_bind _ _ _ _ _ done
      cases done
      exact ⟨placed, values, gathered, rfl⟩
    · obtain ⟨front, argument, back, cause, rfl, placed, misplaced⟩ :=
        parameters.first_misplaced distinct function arguments placed
      rw [engine.bound_misplaced function parameters frame front back argument cause placed misplaced] at done
      obtain ⟨middle, values, -, done⟩ := Exec.done_of_bind _ _ _ _ _ done
      rw [Node.refuse] at done
      cases position : argument.position? <;> rw [position] at done <;> cases done
  · rintro ⟨placed, values, gathered, rfl⟩
    rw [engine.bound_placed function parameters frame distinct arguments placed, Exec.bind_done _ _ _ _ _ gathered]
    rfl

end Engine

/-- What a call does with its arguments. -/
theorem arguments_bound (engine : Engine) (function : String) (parameters : Parameters) (distinct : parameters.Distinct)
    (arguments : List Node) (frame : FrameId) (machine : Machine) :
    (∀ bound after, engine.bindArguments function parameters arguments frame machine = .done bound after ↔
      parameters.WellPlaced arguments ∧ ∃ values, engine.gather frame arguments machine = .done values after ∧
        bound = ⟨(parameters.keys arguments).zip values ++
          (parameters.missing (parameters.keys arguments)).map (·, after.classes.void)⟩) ∧
    (∀ failure after, engine.bindArguments function parameters arguments frame machine = .failed failure after ↔
      ∃ front argument back values middle, arguments = front ++ argument :: back ∧ parameters.WellPlaced front ∧
        engine.gather frame front machine = .done values middle ∧
        engine.Offends function parameters frame front argument middle failure after) ∧
    (¬ parameters.WellPlaced arguments → ∃ front argument back cause, arguments = front ++ argument :: back ∧
      parameters.WellPlaced front ∧ parameters.Misplaced function front argument cause ∧
      engine.bindArguments function parameters arguments frame = (do
        let _ ← engine.gather frame front
        argument.refuse cause)) ∧
    (parameters.WellPlaced arguments → (parameters.keys arguments).length = arguments.length ∧
      (∀ (place : Nat) argument, arguments[place]? = some argument →
        (parameters.keys arguments)[place]? = parameters.key argument place) ∧
      (parameters.keys arguments ++ parameters.missing (parameters.keys arguments)).Nodup ∧
      ∀ names, parameters = .named names →
        (parameters.keys arguments ++ parameters.missing (parameters.keys arguments)).Perm names) := by
  refine ⟨fun bound after => engine.bound_success function parameters frame distinct arguments machine after bound,
    fun failure after => engine.bound_failure function parameters frame distinct arguments machine after failure,
    fun spoilt => ?_, fun placed => ⟨parameters.keys_length arguments placed, parameters.keys_placed arguments placed, ?_,
      parameters.keys_all arguments placed distinct⟩⟩
  · obtain ⟨front, argument, back, cause, rfl, placed, misplaced⟩ :=
      parameters.first_misplaced distinct function arguments spoilt
    exact ⟨front, argument, back, cause, rfl, placed, misplaced,
      engine.bound_misplaced function parameters frame front back argument cause placed misplaced⟩
  · cases parameters with
    | named names => exact (Parameters.keys_all _ arguments placed distinct names rfl).nodup_iff.mpr (distinct names rfl)
    | variadic =>
      rw [Parameters.missing, List.append_nil]
      exact placed.once

-- A keyword goes to its own parameter, and the parameter passed over gets void.
theorem keyword_out_of_turn : ∃ bound after,
    (RuleSet.standard.engine 1).bindArguments "box" (.named ["width", "depth", "height"])
        [.text "wide", .assign "assign" (.start none) "height" (.text "tall")] Arena.root (.initial .standard) =
      .done bound after ∧ bound.names = ["width", "height", "depth"] := by
  let arguments : List Node := [.text "wide", .assign "assign" (.start none) "height" (.text "tall")]
  have distinct : (Parameters.named ["width", "depth", "height"]).Distinct := by
    rintro names ⟨⟩
    decide
  have placed : (Parameters.named ["width", "depth", "height"]).WellPlaced arguments := by
    refine ⟨by simp [arguments, Node.isKeyword, Node.assignment?], ?_, ?_, by decide⟩ <;> rintro names ⟨⟩
    · decide
    · simp [arguments, Node.assignment?]
  obtain ⟨bound, -⟩ := arguments_bound (RuleSet.standard.engine 1) "box" _ distinct arguments Arena.root (.initial .standard)
  exact ⟨_, _, (bound _ _).mpr ⟨placed, _, rfl, rfl⟩, rfl⟩

end CoopScript
