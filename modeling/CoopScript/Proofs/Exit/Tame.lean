import CoopScript.Proofs.Exit.Leeway

set_option autoImplicit false
namespace CoopScript

namespace Builtin

def textual : Builtin → Bool
  | objectText | functionText | voidText | numberText | booleanText | arrayText | promiseText => true
  | _ => false

def truthful : Builtin → Bool
  | objectTruth | voidTruth | booleanTruth | arrayTruth => true
  | _ => false

def quiet : Builtin → Bool
  | exit | sleep => false
  | _ => true

def GivesText (code : Builtin) (target : Value) : Prop :=
  code.textual = true ∨ code = .stringText ∧ target.text?.isSome = true

theorem text_quiet (code : Builtin) (target : Value) (gives : code.GivesText target) : code.quiet = true := by
  rcases gives with textual | ⟨rfl, _⟩
  · cases code <;> first | rfl | cases textual
  · rfl

theorem truth_quiet (code : Builtin) (truthful : code.truthful = true) : code.quiet = true := by
  cases code <;> first | rfl | cases truthful

end Builtin

def Function.Prudent (leeway : Leeway) (function : Function Value) : Prop :=
  ∀ lines, function.body = .script lines → Node.allPrudent leeway true lines = true

def standardHook (hidden : NameMap (Member Value)) : Bool :=
  match hidden.find? callHook with
  | some (.hook .standard) => true
  | _ => false

theorem standard_hook (hidden : NameMap (Member Value)) (standard : standardHook hidden = true) :
    hidden.find? callHook = some (.hook .standard) := by
  unfold standardHook at standard
  split at standard
  next found => exact found
  next => cases standard

namespace Value

structure Runs (method : Value) (code : Builtin) : Prop where
  hook : method.hidden? callHook = some (.hook .standard)
  function : ∃ function, method.function? = some function ∧ function.body = .native (.builtin code)

def builtin? (value : Value) : Option Builtin :=
  match standardHook value.hidden, value.data with
  | true, .function _ ⟨_, _, .native (.builtin code), _⟩ => some code
  | _, _ => none

theorem builtin_runs (value : Value) (code : Builtin) (known : value.builtin? = some code) : value.Runs code := by
  unfold builtin? at known
  split at known
  next identity name parameters found isAsync standard data =>
    cases known
    refine ⟨standard_hook value.hidden standard, ⟨name, parameters, .native (.builtin code), isAsync⟩, ?_, rfl⟩
    simp only [function?, data]
  next => cases known

-- The members that tell of a value's text and truth, if it has them, are builtin functions fit for it.
def tells (textual : Builtin → Bool) (members : NameMap Value) : Bool :=
  (members.find? "__str__").all (fun method => method.builtin?.any textual) &&
    (members.find? "__bool__").all fun method => method.builtin?.any Builtin.truthful

theorem tells_method (members : NameMap Value) (fits : Builtin → Bool) (name : String)
    (all : (members.find? name).all (fun method => method.builtin?.any fits) = true) (method : Value)
    (found : members.find? name = some method) : ∃ code, method.Runs code ∧ fits code = true := by
  rw [found] at all
  obtain ⟨code, known, fine⟩ := (Option.any_eq_true _ _).mp (show method.builtin?.any fits = true from all)
  exact ⟨code, method.builtin_runs code known, fine⟩

mutual

def native : Value → Bool
  | ⟨id, ⟨entries⟩, hidden, data⟩ =>
    (Value.mk id ⟨entries⟩ hidden data).builtin?.isSome && tells Builtin.textual ⟨entries⟩ && allNative entries

def allNative : List (String × Value) → Bool
  | [] => true
  | (_, value) :: rest => value.native && allNative rest

end

inductive Tame (leeway : Leeway) : Value → Prop where
  | intro (value : Value) (plain : value.Plain) (members : ∀ entry ∈ value.members.entries, Tame leeway entry.2)
      (items : ∀ identity items, value.data = .array identity items → ∀ item ∈ items, Tame leeway item)
      (function : ∀ identity function, value.data = .function identity function → function.Prudent leeway)
      (callable : value.classId = .function →
        value.hidden? callHook = some (.hook .standard) ∧ ∃ function, value.function? = some function)
      (text : ∀ method, value.member? "__str__" = some method → ∃ code, method.Runs code ∧ code.GivesText value)
      (truth : ∀ method, value.member? "__bool__" = some method →
        ∃ code, method.Runs code ∧ code.truthful = true) : Tame leeway value

variable (leeway : Leeway)

theorem tame_plain (value : Value) (tame : value.Tame leeway) : value.Plain := by
  cases tame with
  | intro _ plain => exact plain

theorem tame_member (value : Value) (tame : value.Tame leeway) (name : String) (member : Value)
    (found : value.member? name = some member) : member.Tame leeway := by
  cases tame with
  | intro _ _ members => exact NameMap.all_found (Tame leeway) value.members members name member found

theorem tame_data_items (value : Value) (tame : value.Tame leeway) (identity : Nat) (items : List Value)
    (data : value.data = .array identity items) : ∀ item ∈ items, item.Tame leeway := by
  cases tame with
  | intro _ _ _ all => exact all identity items data

theorem tame_items (value : Value) (tame : value.Tame leeway) (items : List Value)
    (found : value.items? = some items) : ∀ item ∈ items, item.Tame leeway := by
  unfold items? at found
  split at found
  next identity content data =>
    cases found
    exact tame_data_items leeway value tame identity items data
  next => cases found

theorem tame_body (value : Value) (tame : value.Tame leeway) (function : Function Value)
    (found : value.function? = some function) : function.Prudent leeway := by
  unfold function? at found
  split at found
  next identity content data =>
    cases found
    cases tame with
    | intro _ _ _ _ prudent => exact prudent identity function data
  next => cases found

theorem tame_callable (value : Value) (tame : value.Tame leeway) (callable : value.classId = .function) :
    value.hidden? callHook = some (.hook .standard) ∧ ∃ function, value.function? = some function := by
  cases tame with
  | intro _ _ _ _ _ calls => exact calls callable

theorem tame_text_method (value : Value) (tame : value.Tame leeway) (method : Value)
    (found : value.member? "__str__" = some method) : ∃ code, method.Runs code ∧ code.GivesText value := by
  cases tame with
  | intro _ _ _ _ _ _ text => exact text method found

theorem tame_truth_method (value : Value) (tame : value.Tame leeway) (method : Value)
    (found : value.member? "__bool__" = some method) : ∃ code, method.Runs code ∧ code.truthful = true := by
  cases tame with
  | intro _ _ _ _ _ _ _ truth => exact truth method found

mutual

theorem native_tame (value : Value) (plain : value.Plain) (native : value.native = true) : value.Tame leeway := by
  obtain ⟨id, ⟨entries⟩, hidden, data⟩ := value
  unfold Value.native at native
  simp only [Bool.and_eq_true, Option.isSome_iff_exists] at native
  obtain ⟨⟨⟨code, known⟩, tells⟩, all⟩ := native
  have runs := builtin_runs _ code known
  simp only [Value.tells, Bool.and_eq_true] at tells
  refine .intro _ plain (all_native_tame entries ?_ all) ?_ ?_ (fun _ => ⟨runs.hook, runs.function.imp fun _ => And.left⟩)
    (fun method found => ?_) fun method found => tells_method _ _ _ tells.2 method found
  · cases plain with
    | intro _ members => exact members
  · obtain ⟨function, same, _⟩ := runs.function
    intro identity items array
    simp only [function?] at same
    cases array
    cases same
  · obtain ⟨function, same, body⟩ := runs.function
    rintro identity content own lines script
    simp only [function?] at same
    cases own
    cases same
    rw [body] at script
    cases script
  · obtain ⟨told, runsTold, fine⟩ := tells_method _ _ _ tells.1 method found
    exact ⟨told, runsTold, .inl fine⟩

theorem all_native_tame (entries : List (String × Value)) (plain : ∀ entry ∈ entries, entry.2.Plain)
    (all : allNative entries = true) : ∀ entry ∈ entries, entry.2.Tame leeway := by
  cases entries with
  | nil => exact List.forall_mem_nil _
  | cons first rest =>
    obtain ⟨name, value⟩ := first
    unfold allNative at all
    simp only [Bool.and_eq_true] at all
    have later := all_native_tame rest (fun entry member => plain entry (List.mem_cons_of_mem _ member)) all.2
    exact List.forall_mem_cons.mpr ⟨native_tame value (plain (name, value) List.mem_cons_self) all.1, later⟩

end

end Value

namespace ClassTable

-- What is checked of every class of the intrinsic table, by its place in it.
def tells (entry : ClassInfo × Nat) : Bool :=
  Value.allNative entry.1.members.entries &&
    Value.tells (fun code => code.textual || code == .stringText && entry.2 == ClassId.string.index) entry.1.members &&
    (entry.2 != ClassId.function.index || standardHook entry.1.hidden)

theorem intrinsic_tells (id : ClassId) (info : ClassInfo) (found : intrinsic.get? id = some info) :
    tells (info, id.index) = true := by
  have all : intrinsic.classes.toList.zipIdx.all tells = true := by decide +kernel
  refine List.all_eq_true.mp all (info, id.index) (List.mk_mem_zipIdx_iff_getElem?.mpr ?_)
  rw [Array.getElem?_toList]
  exact found

variable (leeway : Leeway)

theorem tame_instance (id : ClassId) (data : Data Value) (plain : data.Plain)
    (items : ∀ identity items, data = .array identity items → ∀ item ∈ items, item.Tame leeway)
    (function : ∀ identity function, data = .function identity function → function.Prudent leeway)
    (callable : id = .function → ∃ identity function, data = .function identity function)
    (text : id = .string → ∃ text, data = .text text) : (intrinsic.instantiate id data).Tame leeway := by
  have made := intrinsic.plain_instantiate plain_intrinsic id data plain
  unfold instantiate at made ⊢
  cases found : intrinsic.get? id with
  | none =>
    rw [found] at made
    refine .intro _ made (List.forall_mem_nil _) items function (fun same => ?_)
      (fun _ none => by cases none) fun _ none => by cases none
    have known : (intrinsic.get? .function).isSome = true := by decide +kernel
    rw [show ClassId.function = id from same.symm, found] at known
    cases known
  | some info =>
    rw [found] at made
    have told := intrinsic_tells id info found
    simp only [tells, Value.tells, Bool.and_eq_true] at told
    obtain ⟨⟨native, textual, truthful⟩, hook⟩ := told
    have members : ∀ entry ∈ info.members.entries, entry.2.Tame leeway := by
      refine Value.all_native_tame leeway _ ?_ native
      cases made with
      | intro _ members => exact members
    refine .intro _ made members items function (fun same => ?_) (fun method method_found => ?_)
      fun method method_found => Value.tells_method _ _ _ truthful method method_found
    · obtain rfl : id = .function := same
      obtain ⟨identity, content, rfl⟩ := callable rfl
      exact ⟨standard_hook info.hidden (by simpa using hook), content, rfl⟩
    · obtain ⟨code, runs, fine⟩ := Value.tells_method _ _ _ textual method method_found
      refine ⟨code, runs, ?_⟩
      simp only [Bool.or_eq_true, Bool.and_eq_true, beq_iff_eq] at fine
      rcases fine with fine | ⟨rfl, same⟩
      · exact .inl fine
      · obtain ⟨content, rfl⟩ := text (by cases id; cases same; rfl)
        exact .inr ⟨rfl, rfl⟩

theorem tame_void : intrinsic.void.Tame leeway := by
  apply tame_instance <;> simp [Data.Plain, ClassId.void, ClassId.function, ClassId.string]

theorem tame_number (x : Float) : (intrinsic.number x).Tame leeway := by
  apply tame_instance <;> simp [Data.Plain, ClassId.number, ClassId.function, ClassId.string]

theorem tame_text (text : String) : (intrinsic.text text).Tame leeway := by
  apply tame_instance <;> simp [Data.Plain, ClassId.string, ClassId.function]

theorem tame_flag (flag : Bool) : (intrinsic.flag flag).Tame leeway := by
  apply tame_instance <;> simp [Data.Plain, ClassId.boolean, ClassId.function, ClassId.string]

theorem tame_promise (task : TaskId) : (intrinsic.promise task).Tame leeway := by
  apply tame_instance <;> simp [Data.Plain, ClassId.promise, ClassId.function, ClassId.string]

theorem tame_array (identity : Nat) (items : List Value) (tame : ∀ item ∈ items, item.Tame leeway) :
    (intrinsic.array identity items).Tame leeway := by
  have plain : ∀ item ∈ items, item.Plain := fun item member => item.tame_plain leeway (tame item member)
  apply tame_instance
  · exact ⟨fun _ _ same => by cases same; exact plain, by simp⟩
  · exact fun _ _ same => by cases same; exact tame
  all_goals simp [ClassId.array, ClassId.function, ClassId.string]

theorem tame_function (identity : Nat) (function : Function Value) (ordinary : function.Ordinary)
    (prudent : function.Prudent leeway) : (intrinsic.function identity function).Tame leeway := by
  apply tame_instance
  · exact ⟨by simp, fun _ _ same => by cases same; exact ordinary⟩
  · simp
  · exact fun _ _ same => by cases same; exact prudent
  all_goals simp [ClassId.function, ClassId.string]

theorem tame_builtin (identity : Nat) (name : String) (parameters : Parameters) (code : Builtin) :
    (intrinsic.builtin identity name parameters code).Tame leeway :=
  tame_function leeway identity _ (fun _ same => ⟨code, by cases same; rfl⟩) fun _ script => by cases script

theorem tame_scalar (scalar : Scalar) : (intrinsic.scalar scalar).Tame leeway := by
  cases scalar with
  | void => exact tame_void leeway
  | number x => exact tame_number leeway x
  | text text => exact tame_text leeway text
  | flag flag => exact tame_flag leeway flag

theorem intrinsic_callable (value : Value) (callable : intrinsic.isFunction value = true) :
    value.classId = .function := by
  have inherits : ∀ id, intrinsic.inherits id .function = true → id = .function := by
    rintro ⟨index⟩ descends
    by_cases known : index < 8
    · have all : ∀ index : Fin 8, intrinsic.inherits ⟨index⟩ .function = true → index.val = 0 := by decide +kernel
      exact congrArg ClassId.mk (all ⟨index, known⟩ descends)
    · have size : intrinsic.classes.size = 8 := by decide +kernel
      have unknown : intrinsic.get? ⟨index⟩ = none := Array.getElem?_eq_none (by simp only [size]; omega)
      simpa [inherits, size, inheritsWithin, unknown] using descends
  exact inherits value.classId callable

end ClassTable

end CoopScript
