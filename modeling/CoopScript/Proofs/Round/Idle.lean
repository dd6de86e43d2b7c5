import CoopScript.Proofs.Trait.Host

set_option autoImplicit false
namespace CoopScript

namespace TickReport

def idleFor (reports : List TickReport) : Nat := (reports.reverse.takeWhile isIdle).length

-- There has never been such a number of idle passes one after the other.
def Lively (limit : Nat) (reports : List TickReport) : Prop := ∀ front, front <+: reports → idleFor front < limit

/-- So many passes were idle one after the other for the first time when the last one had been made. -/
structure FirstIdle (limit : Nat) (reports : List TickReport) : Prop where
  reached : idleFor reports = limit
  first : ∀ front, front <+: reports → front ≠ reports → idleFor front < limit

theorem idle_for_concat (reports : List TickReport) (report : TickReport) :
    idleFor (reports ++ [report]) = if report.isIdle then idleFor reports + 1 else 0 := by
  unfold idleFor
  rw [List.reverse_concat, List.takeWhile_cons]
  cases report.isIdle <;> rfl

section Lively
variable (limit : Nat) (reports : List TickReport) (report : TickReport)

theorem lively_concat :
    Lively limit (reports ++ [report]) ↔ Lively limit reports ∧ idleFor (reports ++ [report]) < limit := by
  constructor
  · exact fun lively => ⟨fun front part => lively front (part.trans (List.prefix_append _ _)), lively _ (List.prefix_refl _)⟩
  · rintro ⟨lively, last⟩ front part
    rcases List.prefix_concat_iff.mp part with rfl | part
    · exact last
    · exact lively front part

theorem first_idle_concat :
    FirstIdle limit (reports ++ [report]) ↔ Lively limit reports ∧ idleFor (reports ++ [report]) = limit := by
  constructor
  · intro idle
    refine ⟨fun front part => idle.first front (part.trans (List.prefix_append _ _)) fun same => ?_, idle.reached⟩
    subst same
    exact absurd part.length_le (by simp)
  · rintro ⟨lively, reached⟩
    refine ⟨reached, fun front part other => ?_⟩
    rcases List.prefix_concat_iff.mp part with same | part
    · exact absurd same other
    · exact lively front part

theorem first_idle_now (lively : Lively limit reports) (idles : report.isIdle = true)
    (tired : limit ≤ idleFor reports + 1) : FirstIdle limit (reports ++ [report]) := by
  have before := lively reports (List.prefix_refl _)
  refine (first_idle_concat limit reports report).mpr ⟨lively, ?_⟩
  rw [idle_for_concat, if_pos idles]
  exact Nat.le_antisymm before tired

theorem lively_nil (positive : 0 < limit) : Lively limit [] := by
  intro front part
  rw [List.prefix_nil.mp part]
  exact positive

end Lively

end TickReport

section Configured

def Exec.KeepsConfig {α : Type} (step : Exec α) : Prop :=
  ∀ machine after, (step machine).Leaves after → after.config = machine.config

namespace Exec
variable {α β : Type} {step : Exec α}

theorem keeps_config_modify (change : Machine → Machine) (kept : ∀ machine, (change machine).config = machine.config) :
    (modify change).KeepsConfig := fun machine after left =>
  (Outcome.done_leaves () (change machine) after).mp left ▸ kept machine

theorem keeps_config_bind (next : α → Exec β) (first : step.KeepsConfig) (later : ∀ value, (next value).KeepsConfig) :
    (step >>= next).KeepsConfig := by
  intro machine after left
  rcases leaves_bind step next machine after left with early | ⟨value, middle, ran, rest⟩
  · exact first machine after early
  · exact (later value middle after rest).trans (first machine middle (.inl ⟨value, ran⟩))

theorem keeps_config_blind : Blind Exec.KeepsConfig where
  small small machine after left := (small_leaves small machine after left).config
  bind := keeps_config_bind
  raise failure machine after left := (Outcome.failed_leaves failure machine after).mp left ▸ rfl
  attempt kept machine after left := kept machine after (leaves_attempt _ machine after left)
  mapFailure change kept machine after left := kept machine after (leaves_map_failure _ machine after change left)

end Exec

def Trait.configured : Trait :=
  have modify := @Exec.keeps_config_modify
  have enqueue (task : Microtask) : (Exec.enqueueMicrotask task).KeepsConfig := modify _ fun _ => rfl
  have remove (id : EventId) : (Exec.removeEvent id).KeepsConfig := fun _ after left =>
    (Outcome.done_leaves _ _ after).mp left ▸ rfl
  .ofBlind Exec.KeepsConfig Exec.keeps_config_blind (fun task _ => enqueue task) (Exec.keeps_config_blind.spawn enqueue)
    (fun engine => engine.drain_holds Exec.KeepsConfig Exec.keeps_config_blind.reads Exec.keeps_config_bind
      fun _ => modify _ fun _ => rfl)
    (modify _ fun _ => rfl) (fun _ _ after left => (Outcome.done_leaves _ _ after).mp left ▸ rfl) remove
    (Exec.keeps_config_blind.serve (fun _ _ => modify _ fun _ => rfl) remove) (modify _ fun _ => rfl)

end Configured

-- Passes one after the other, with what each of them reported.
inductive Machine.Series (pass : Machine → TickReport → Machine → Prop) (start : Machine) :
    List TickReport → Machine → Prop where
  | none : Series pass start [] start
  | more (reports : List TickReport) (machine next : Machine) (report : TickReport)
      (series : Series pass start reports machine) (last : pass machine report next) :
      Series pass start (reports ++ [report]) next

section Once
variable {α σ : Type} (step : σ → Exec (σ ⊕ α)) (state : σ) (machine after : Machine)

theorem Exec.iterate_once (value : α) (done : iterate step 1 state machine = .done value after) :
    step state machine = .done (.inr value) after := by
  unfold iterate at done
  cases ran : step state machine with
  | failed | outOfFuel =>
    rw [ran] at done
    cases done
  | done result next =>
    rw [ran] at done
    cases result <;> cases done
    rfl

theorem Exec.iterate_once_failed (failure : Failure) (failed : iterate step 1 state machine = .failed failure after) :
    step state machine = .failed failure after := by
  unfold iterate at failed
  cases ran : step state machine with
  | failed =>
    rw [ran] at failed
    cases failed
    rfl
  | outOfFuel =>
    rw [ran] at failed
    cases failed
  | done result next =>
    rw [ran] at failed
    cases result <;> cases failed

end Once

namespace Engine

-- A tick that leaves the machine running.
def TicksTo (engine : Engine) (machine : Machine) (report : TickReport) (next : Machine) : Prop :=
  ∃ after, engine.tick machine = .done report after ∧ after.halted = false ∧ next = after.rested report

-- A pass in which a pending task is waited for.
def Waits (engine : Engine) (task : TaskId) (machine : Machine) (report : TickReport) (next : Machine) : Prop :=
  ∃ after, engine.awaitPass task machine = .done (.inl report) after ∧ next = after.rested report

section Patience
variable {α : Type}

-- The rounds of a loop over passes that ends when so many of them have been idle one after the other. A round that
-- does not end the loop otherwise has made a pass.
structure Patient (step : Nat → Exec (Nat ⊕ α)) (pass : Machine → TickReport → Machine → Prop) (start : Machine)
    (limit : Nat) (ending : Machine → Outcome (Nat ⊕ α)) : Prop where
  round : ∀ idle machine report next, machine.config = start.config → pass machine report next →
    step idle machine =
      if limit ≤ (if report.isIdle then idle + 1 else 0) then ending next
      else .done (.inl (if report.isIdle then idle + 1 else 0)) next
  kept : ∀ machine report next, pass machine report next → next.config = machine.config
  passed : ∀ idle machine again next, step idle machine = .done (.inl again) next → ∃ report, pass machine report next
  ends : ∀ machine again next, ending machine ≠ .done (.inl again) next

namespace Patient
variable {step : Nat → Exec (Nat ⊕ α)} {pass : Machine → TickReport → Machine → Prop} {start : Machine} {limit : Nat}
variable {ending : Machine → Outcome (Nat ⊕ α)} (patient : Patient step pass start limit ending)
variable (reports : List TickReport) (machine : Machine) (series : Machine.Series pass start reports machine)
include patient series

theorem config : machine.config = start.config := by
  induction series with
  | none => rfl
  | more reports machine next report _ last ih => exact (patient.kept machine report next last).trans ih

section Round
variable (next : Machine) (report : TickReport) (last : pass machine report next)
include last

theorem goes_on (lively : TickReport.idleFor (reports ++ [report]) < limit) :
    step (TickReport.idleFor reports) machine = .done (.inl (TickReport.idleFor (reports ++ [report]))) next := by
  rw [patient.round _ machine report next (patient.config reports machine series) last, ← TickReport.idle_for_concat,
    if_neg (Nat.not_le.mpr lively)]

theorem gives_up (tired : limit ≤ TickReport.idleFor (reports ++ [report])) :
    step (TickReport.idleFor reports) machine = ending next := by
  rw [patient.round _ machine report next (patient.config reports machine series) last, ← TickReport.idle_for_concat,
    if_pos tired]

end Round

-- As long as the passes are lively, the loop goes on behind them with its count of idle ones.
theorem goes_through (fuel : Nat) (lively : TickReport.Lively limit reports) :
    Exec.iterate step (reports.length + fuel) 0 start = Exec.iterate step fuel (TickReport.idleFor reports) machine := by
  induction series generalizing fuel with
  | none => rw [List.length_nil, Nat.zero_add]; rfl
  | more reports machine next report series last ih =>
    obtain ⟨before, now⟩ := (TickReport.lively_concat limit reports report).mp lively
    rw [List.length_append, List.length_singleton, Nat.add_assoc, Nat.add_comm 1, ih (fuel + 1) before]
    exact Exec.iterate_again _ fuel _ _ _ _ (patient.goes_on reports machine series next report last now)

theorem ends_idle (fuel : Nat) (positive : 0 < limit) (idle : TickReport.FirstIdle limit reports)
    (enough : reports.length ≤ fuel) :
    ∃ middle count rest, Exec.iterate step fuel 0 start = Exec.iterate step (rest + 1) count middle ∧
      step count middle = ending machine := by
  cases series with
  | none => exact absurd idle.reached (Nat.ne_of_lt positive)
  | more reports middle next report series last =>
    obtain ⟨lively, reached⟩ := (TickReport.first_idle_concat limit reports report).mp idle
    rw [List.length_append, List.length_singleton] at enough
    obtain ⟨rest, rfl⟩ := Nat.exists_eq_add_of_le enough
    refine ⟨middle, _, rest, ?_, patient.gives_up reports middle series machine report last (Nat.le_of_eq reached.symm)⟩
    rw [Nat.add_assoc, Nat.add_comm 1]
    exact patient.goes_through reports middle series (rest + 1) lively

theorem last_round (fuel : Nat) (lively : TickReport.Lively limit reports)
    (ends : Exec.iterate step fuel (TickReport.idleFor reports) machine ≠ .outOfFuel) :
    ∃ more middle, Machine.Series pass start more middle ∧ TickReport.Lively limit more ∧
      more.length < reports.length + fuel ∧
      Exec.iterate step fuel (TickReport.idleFor reports) machine =
        Exec.iterate step 1 (TickReport.idleFor more) middle := by
  induction fuel generalizing reports machine with
  | zero => exact absurd rfl ends
  | succ fuel ih =>
    have here : reports.length < reports.length + (fuel + 1) := by omega
    cases ran : step (TickReport.idleFor reports) machine with
    | failed | outOfFuel => exact ⟨reports, machine, series, lively, here, by simp only [Exec.iterate, ran]⟩
    | done result next =>
      cases result with
      | inr value => exact ⟨reports, machine, series, lively, here, by simp only [Exec.iterate, ran]⟩
      | inl count =>
        obtain ⟨report, last⟩ := patient.passed _ machine count next ran
        have now : TickReport.idleFor (reports ++ [report]) < limit := by
          by_contra tired
          have given := patient.gives_up reports machine series next report last (Nat.not_lt.mp tired)
          exact patient.ends next count next (given.symm.trans ran)
        have goes := patient.goes_on reports machine series next report last now
        rw [Exec.iterate_again _ fuel _ _ _ _ goes] at ends ⊢
        have both := (TickReport.lively_concat limit reports report).mpr ⟨lively, now⟩
        obtain ⟨more, middle, found, kept, short, same⟩ :=
          ih _ next (.more reports machine next report series last) both ends
        rw [List.length_append, List.length_singleton] at short
        exact ⟨more, middle, found, kept, by omega, same⟩

omit series in
theorem ends_lively (fuel : Nat) (positive : 0 < limit) (ends : Exec.iterate step fuel 0 start ≠ .outOfFuel) :
    ∃ reports middle, Machine.Series pass start reports middle ∧ TickReport.Lively limit reports ∧ reports.length < fuel ∧
      Exec.iterate step fuel 0 start = Exec.iterate step 1 (TickReport.idleFor reports) middle := by
  obtain ⟨reports, middle, series, lively, short, same⟩ :=
    patient.last_round [] start .none fuel (TickReport.lively_nil limit positive) ends
  exact ⟨reports, middle, series, lively, by simpa using short, same⟩

end Patient

end Patience

section Loops
variable (engine : Engine) (has : engine.Has .configured) (start : Machine)
include has

theorem run_patient (positive : 0 < start.config.idleLimit) :
    Patient engine.runStep engine.TicksTo start start.config.idleLimit (.done (.inr ())) where
  kept := by
    rintro machine report _ ⟨after, ticked, _, rfl⟩
    rw [after.rested_config report]
    exact Trait.configured.tick engine has machine after (.inl ⟨report, ticked⟩)
  round := by
    rintro idle machine report _ same ⟨after, ticked, running, rfl⟩
    have config : after.config = start.config :=
      (Trait.configured.tick engine has machine after (.inl ⟨report, ticked⟩)).trans same
    rw [run_step_parts, Exec.bind_done _ _ machine after report ticked, end_round_running idle report after running, config]
    cases idles : report.isIdle with
    | true => simp only [if_true, after.rested_idle report idles]
    | false => simp only [Bool.false_eq_true, if_false, Nat.not_le.mpr positive]
  passed := by
    intro idle machine again next ran
    rw [run_step_parts] at ran
    obtain ⟨after, report, ticked, ended⟩ := Exec.done_of_bind _ _ machine next _ ran
    cases halted : after.halted with
    | true =>
      unfold endRound at ended
      rw [Exec.halted_then, halted] at ended
      cases ended
    | false =>
      refine ⟨report, after, ticked, halted, ?_⟩
      rw [end_round_running idle report after halted] at ended
      split at ended
      next idles =>
        split at ended <;> cases ended
        exact (Machine.rested_idle _ report idles).symm
      next => cases ended; rfl
  ends machine again next same := by cases same

theorem await_pass_keeps (task : TaskId) : (engine.awaitPass task).KeepsConfig := by
  refine Exec.keeps_config_bind _ (Trait.configured.consume_task task) fun given => ?_
  cases given with
  | some value => exact Trait.configured.pure _
  | none =>
    refine Trait.configured.given _ _ fun halted => ?_
    cases halted with
    | true => exact Trait.configured.stop .interrupted _
    | false =>
      refine Exec.keeps_config_bind _ (Trait.configured.drain_microtasks engine has .empty) fun report => ?_
      exact Trait.configured.put _ Sum.inl (Trait.configured.service_events engine has report)

theorem await_patient (task : TaskId) :
    Patient (engine.awaitStep task) (engine.Waits task) start (start.config.idleLimit + 1)
      (.failed (.of .neverSettled)) where
  kept := by
    rintro machine report _ ⟨after, passed, rfl⟩
    rw [after.rested_config report]
    exact engine.await_pass_keeps has task machine after (.inl ⟨_, passed⟩)
  round := by
    rintro idle machine report _ same ⟨after, passed, rfl⟩
    have config : after.config = start.config :=
      (engine.await_pass_keeps has task machine after (.inl ⟨_, passed⟩)).trans same
    rw [await_step_parts, Exec.bind_done _ _ machine after _ passed]
    show endWait idle report after = _
    rw [end_wait_pending idle report after, config]
    cases idles : report.isIdle with
    | true => simp only [if_true, after.rested_idle report idles, Nat.succ_le_iff]
    | false =>
      simp only [Bool.false_eq_true, if_false]
      rw [if_neg (Nat.not_succ_le_zero _)]
  passed := by
    intro idle machine again next ran
    rw [await_step_parts] at ran
    obtain ⟨after, result, passed, ended⟩ := Exec.done_of_bind _ _ machine next _ ran
    cases result with
    | inr value => cases ended
    | inl report =>
      refine ⟨report, after, passed, ?_⟩
      simp only [end_wait_pending] at ended
      split at ended
      next idles =>
        split at ended <;> cases ended
        exact (Machine.rested_idle _ report idles).symm
      next => cases ended; rfl
  ends machine again next same := by cases same

theorem run_idle (positive : 0 < start.config.idleLimit) (after : Machine) :
    (engine.run start = .done () after ∧ after.halted = false) ↔
      ∃ reports, start.Series engine.TicksTo reports after ∧ TickReport.FirstIdle start.config.idleLimit reports ∧
        reports.length ≤ engine.fuel := by
  have patient := engine.run_patient has start positive
  rw [run_rounds]
  constructor
  · rintro ⟨done, running⟩
    obtain ⟨reports, middle, series, lively, short, same⟩ :=
      patient.ends_lively engine.fuel positive fun none => by cases done.symm.trans none
    have ended := Exec.iterate_once _ _ _ _ _ (same.symm.trans done)
    rw [run_step_parts] at ended
    obtain ⟨left, report, ticked, finished⟩ := Exec.done_of_bind _ _ middle after _ ended
    cases halted : left.halted with
    | true =>
      unfold endRound at finished
      rw [Exec.halted_then, halted] at finished
      cases finished
      exact absurd running (by simp [halted])
    | false =>
      rw [end_round_running _ report left halted] at finished
      split at finished
      next idles =>
        split at finished <;> cases finished
        next tired =>
          have last : engine.TicksTo middle report after := ⟨after, ticked, halted, (after.rested_idle report idles).symm⟩
          have whole := Machine.Series.more reports middle after report series last
          rw [patient.config _ after whole] at tired
          refine ⟨_, whole, TickReport.first_idle_now _ reports report lively idles tired, ?_⟩
          rwa [List.length_append, List.length_singleton]
      next => cases finished
  · rintro ⟨reports, series, idle, enough⟩
    obtain ⟨middle, count, rest, same, ended⟩ := patient.ends_idle reports after series engine.fuel positive idle enough
    refine ⟨same.trans (Exec.iterate_ended _ rest count () middle after ended), ?_⟩
    cases series with
    | none => exact absurd idle.reached (Nat.ne_of_lt positive)
    | more reports machine next report series last =>
      obtain ⟨left, _, running, rfl⟩ := last
      rw [left.rested_halted report]
      exact running

-- A wait is given up when one pass more than that has been idle, or ends in a pass that fails before.
theorem await_fails (task : TaskId) (failure : Failure) (after : Machine) :
    engine.await task start = .failed failure after ↔
      (∃ reports, start.Series (engine.Waits task) reports after ∧
        TickReport.FirstIdle (start.config.idleLimit + 1) reports ∧ reports.length ≤ engine.fuel ∧
        failure = .of .neverSettled) ∨
      ∃ reports middle, start.Series (engine.Waits task) reports middle ∧
        TickReport.Lively (start.config.idleLimit + 1) reports ∧ reports.length < engine.fuel ∧
        engine.awaitPass task middle = .failed failure after := by
  have patient := engine.await_patient has start task
  have positive := Nat.succ_pos start.config.idleLimit
  unfold await
  constructor
  · intro failed
    obtain ⟨reports, middle, series, lively, short, same⟩ :=
      patient.ends_lively engine.fuel positive fun none => by cases failed.symm.trans none
    have ended := Exec.iterate_once_failed _ _ _ _ _ (same.symm.trans failed)
    rw [await_step_parts] at ended
    cases passed : engine.awaitPass task middle with
    | outOfFuel => cases (Exec.bind_exhausted _ _ middle passed).symm.trans ended
    | failed other left =>
      cases (Exec.bind_failed _ _ middle left other passed).symm.trans ended
      exact .inr ⟨reports, middle, series, lively, short, passed⟩
    | done result left =>
      rw [Exec.bind_done _ _ middle left result passed] at ended
      cases result with
      | inr value => cases ended
      | inl report =>
        simp only [end_wait_pending] at ended
        split at ended
        next idles =>
          split at ended <;> cases ended
          next tired =>
            have last : engine.Waits task middle report after := ⟨after, passed, (after.rested_idle report idles).symm⟩
            have whole := Machine.Series.more reports middle after report series last
            rw [patient.config _ after whole] at tired
            refine .inl ⟨_, whole, TickReport.first_idle_now _ reports report lively idles tired, ?_, rfl⟩
            rwa [List.length_append, List.length_singleton]
        next => cases ended
  · rintro (⟨reports, series, idle, enough, rfl⟩ | ⟨reports, middle, series, lively, short, passed⟩)
    · obtain ⟨middle, count, rest, same, ended⟩ :=
        patient.ends_idle reports after series engine.fuel positive idle enough
      rw [same]
      simp only [Exec.iterate, ended]
    · obtain ⟨rest, left⟩ := Nat.exists_eq_add_of_lt short
      rw [show engine.fuel = reports.length + (rest + 1) by omega,
        patient.goes_through reports middle series (rest + 1) lively]
      have failed : engine.awaitStep task (TickReport.idleFor reports) middle = .failed failure after := by
        rw [await_step_parts]
        exact Exec.bind_failed _ _ middle after failure passed
      simp only [Exec.iterate, failed]

end Loops

end Engine

/-- A run that is not halted ends with the first `limit` ticks that are idle one after the other, and with no others. A
wait for a task that stays pending is given up with the first `limit + 1` such passes: it is then that it fails of its own,
and before only in a pass that fails itself. -/
theorem idle_passes_counted (extensions : List String) (lexRules : List LexRule) (fuel : Nat) (start : Machine)
    (limit : Nat) (configured : start.config.idleLimit = limit) (positive : 0 < limit) :
    let engine := (RuleSet.customised extensions lexRules).engine fuel
    (∀ after, (engine.run start = .done () after ∧ after.halted = false) ↔
      ∃ reports, start.Series engine.TicksTo reports after ∧ TickReport.FirstIdle limit reports ∧
        reports.length ≤ fuel) ∧
    ∀ task failure after, engine.await task start = .failed failure after ↔
      (∃ reports, start.Series (engine.Waits task) reports after ∧ TickReport.FirstIdle (limit + 1) reports ∧
        reports.length ≤ fuel ∧ failure = .of .neverSettled) ∨
      ∃ reports middle, start.Series (engine.Waits task) reports middle ∧ TickReport.Lively (limit + 1) reports ∧
        reports.length < fuel ∧ engine.awaitPass task middle = .failed failure after := by
  subst configured
  intro engine
  have has : engine.Has .configured := RuleSet.engine_has _ _ (RuleSet.customised_has _ extensions lexRules) fuel
  have same : engine.fuel = fuel := by cases fuel <;> rfl
  rw [← same]
  exact ⟨engine.run_idle has start positive, engine.await_fails has start⟩

section Scene

-- Whether a pass over the tiers was idle and left so much output.
def TickReport.idlesWith (output : Array String) (result : TickReport ⊕ Value) (after : Machine) : Bool :=
  match result with
  | .inl report => report.isIdle && after.output == output
  | .inr _ => false

theorem TickReport.idles_with_idle (output : Array String) (result : TickReport ⊕ Value) (after : Machine)
    (passed : idlesWith output result after = true) :
    ∃ report, result = .inl report ∧ report.isIdle = true ∧ after.output = output := by
  cases result with
  | inl report =>
    simp only [idlesWith, Bool.and_eq_true, beq_iff_eq] at passed
    exact ⟨report, rfl, passed.1, passed.2⟩
  | inr value => cases passed

theorem TickReport.first_idle_twice (first second : TickReport) (idles : first.isIdle = true)
    (again : second.isIdle = true) : FirstIdle 2 [first, second] := by
  have once : idleFor [first] = 1 := by rw [← List.nil_append [first], idle_for_concat, if_pos idles]; rfl
  have lively : Lively 2 [first] := (lively_concat 2 [] first).mpr ⟨lively_nil 2 (by decide), by
    rw [List.nil_append, once]
    decide⟩
  exact first_idle_now 2 [first] second lively again (by rw [once])

theorem idle_scene :
    let engine := (RuleSet.customised [] []).engine 9
    ∃ (machine first second after : Machine) (report again : TickReport), machine.config.idleLimit = 1 ∧
      machine.Series (engine.Waits ⟨1⟩) [report] first ∧ TickReport.FirstIdle 1 [report] ∧ first.output = #["e"] ∧
      machine.Series (engine.Waits ⟨1⟩) [report, again] second ∧ TickReport.FirstIdle 2 [report, again] ∧
      second.output = #["e", "e"] ∧ engine.run machine = .done () after ∧ after.halted = false ∧
      after.output = #["e"] := by
  intro engine
  let preparations : List Action := [.registerEvent "e" [.mk [.mark "e"] .idle], .createTask "t"]
  obtain ⟨_, machine, _, facts⟩ := Outcome.ends_with_done
    (engine.performAll preparations (Machine.start { Config.standard with idleLimit := 1 }))
    (fun machine => machine.config.idleLimit == 1 &&
      (engine.run machine).endsWith (fun after => !after.halted && after.output == #["e"]) &&
      (engine.awaitPass ⟨1⟩ machine).gives fun result first => TickReport.idlesWith #["e"] result first &&
        (engine.awaitPass ⟨1⟩ first).gives (TickReport.idlesWith #["e", "e"]))
    (by decide +kernel)
  simp only [Bool.and_eq_true, beq_iff_eq] at facts
  obtain ⟨⟨limit, ran⟩, waited⟩ := facts
  obtain ⟨_, after, done, last⟩ := Outcome.ends_with_done _ _ ran
  obtain ⟨result, first, passed, once⟩ := Outcome.gives_done _ _ waited
  simp only [Bool.and_eq_true, Bool.not_eq_true', beq_iff_eq] at last once
  obtain ⟨report, rfl, idles, shown⟩ := TickReport.idles_with_idle _ result first once.1
  obtain ⟨_, second, passedAgain, twice⟩ := Outcome.gives_done _ _ once.2
  obtain ⟨again, rfl, idlesAgain, shownAgain⟩ := TickReport.idles_with_idle _ _ second twice
  have series : machine.Series (engine.Waits ⟨1⟩) [report] first :=
    .more [] machine first report .none ⟨first, passed, (first.rested_idle _ idles).symm⟩
  refine ⟨machine, first, second, after, report, again, limit, series,
    TickReport.first_idle_now 1 [] report (TickReport.lively_nil 1 (by decide)) idles (by decide), shown,
    .more [report] first second again series ⟨second, passedAgain, (second.rested_idle _ idlesAgain).symm⟩,
    TickReport.first_idle_twice report again idles idlesAgain, shownAgain, done, last.1, last.2⟩

end Scene

-- With a limit of one, a run ends after one idle tick, and a wait is given up after two idle passes.
theorem idle_passes_counted_once :
    let engine := (RuleSet.customised [] []).engine 9
    ∃ machine : Machine, machine.config.idleLimit = 1 ∧
      (∃ reports after, machine.Series engine.TicksTo reports after ∧ TickReport.FirstIdle 1 reports ∧
        after.output = #["e"]) ∧
      ∃ after, engine.await ⟨1⟩ machine = .failed (.of .neverSettled) after ∧ after.output = #["e", "e"] := by
  intro engine
  obtain ⟨machine, _, second, after, report, again, limit, _, _, _, series, twice, shown, done, running, once⟩ := idle_scene
  have counted := idle_passes_counted [] [] 9 machine 1 limit (by decide)
  obtain ⟨reports, ticks, idle, _⟩ := (counted.1 after).mp ⟨done, running⟩
  have given := (counted.2 ⟨1⟩ (.of .neverSettled) second).mpr (.inl ⟨[report, again], series, twice, by simp, rfl⟩)
  exact ⟨machine, limit, ⟨reports, after, ticks, idle, once⟩, second, given, shown⟩

-- Waits are not given up with the first idle passes that are as many as the limit: they put up with one more.
theorem wait_outlasts_limit : ¬ ∀ (fuel : Nat) (start after : Machine) (task : TaskId) (reports : List TickReport),
    let engine := (RuleSet.customised [] []).engine fuel
    0 < start.config.idleLimit → reports.length ≤ fuel → start.Series (engine.Waits task) reports after →
    TickReport.FirstIdle start.config.idleLimit reports → engine.await task start = .failed (.of .neverSettled) after := by
  intro stops
  obtain ⟨machine, first, second, _, report, again, limit, once, idle, shown, series, twice, shownAgain, _⟩ := idle_scene
  have claimed := stops 9 machine first ⟨1⟩ [report] (by rw [limit]; decide) (by simp) once (by rwa [limit])
  have has : ((RuleSet.customised [] []).engine 9).Has .configured :=
    RuleSet.engine_has _ _ (RuleSet.customised_has _ [] []) 9
  have given := (Engine.await_fails _ has machine ⟨1⟩ (.of .neverSettled) second).mpr
    (.inl ⟨[report, again], series, by rwa [limit], by simp [RuleSet.engine], rfl⟩)
  cases claimed.symm.trans given
  simp [shown] at shownAgain

end CoopScript
