import Turnstile.Run.StopHooks

/-!
This module contains what becomes of stop hooks: each hook of a list is run once, in the world that the hooks
before it have left, and is reported once, by how it has ended or as one that was not in time.
-/

namespace Turnstile

/-- How a hook has ended, if it did so in the given time. -/
def HookCourse.ending? (timeout : Duration) (course : HookCourse) : Option HookEnding :=
  if timeout = .zero ∨ timeout < course.takes then none else some course.ending

/-- A stop hook that was run, with the world that it found. -/
structure HookRun (E : Extension) (σ : Type) where
  hook : StopHook E
  found : σ
  course : HookCourse

namespace HookRun

variable {E : Extension} {σ : Type}

def completed? (timeout : Duration) (r : HookRun E σ) : Option String :=
  match r.course.ending? timeout with
  | some .completed => some r.hook.name
  | _ => none

def failed? (timeout : Duration) (r : HookRun E σ) : Option (String × String) :=
  match r.course.ending? timeout with
  | some (.failed reason) | some (.crashed reason) => some (r.hook.name, reason)
  | _ => none

def timedOut? (timeout : Duration) (r : HookRun E σ) : Option String :=
  match r.course.ending? timeout with
  | none => some r.hook.name
  | some _ => none

end HookRun

variable {E : Extension} {σ : Type} {release : RunRelease E σ} {timeout : Duration}

def StopReport.ofRuns (timeout : Duration) (runs : List (HookRun E σ)) : StopReport :=
  ⟨runs.filterMap (·.completed? timeout), runs.filterMap (·.failed? timeout),
    runs.filterMap (·.timedOut? timeout)⟩

/-- The runs of hooks in the order of the list. -/
def hookRuns (release : RunRelease E σ) (timeout : Duration) : List (StopHook E) → σ → List (HookRun E σ)
  | [], _ => []
  | hook :: rest, world =>
    let (course, next) := release hook.release world
    ⟨hook, world, course⟩ ::
      hookRuns release timeout rest (if (course.ending? timeout).isSome then next else world)

theorem map_hook_hookRuns (release : RunRelease E σ) (timeout : Duration) (hooks : List (StopHook E)) (world : σ) :
    (hookRuns release timeout hooks world).map (·.hook) = hooks := by
  induction hooks generalizing world with
  | nil => rfl
  | cons hook rest ih =>
    unfold hookRuns
    rw [List.map_cons, ih]

theorem course_of_mem_hookRuns {hooks : List (StopHook E)} {world : σ} {r : HookRun E σ}
    (h : r ∈ hookRuns release timeout hooks world) : r.course = (release r.hook.release r.found).1 := by
  induction hooks generalizing world with
  | nil => cases h
  | cons hook rest ih =>
    unfold hookRuns at h
    rcases List.mem_cons.1 h with rfl | h
    . rfl
    . exact ih h

theorem runHooks_report (release : RunRelease E σ) (timeout : Duration) (hooks : List (StopHook E)) (world : σ) :
    (runHooks release timeout hooks world).1 = .ofRuns timeout (hookRuns release timeout hooks world) := by
  induction hooks generalizing world with
  | nil => rfl
  | cons hook rest ih =>
    rcases hrelease : release hook.release world with ⟨course, next⟩
    unfold runHooks hookRuns
    simp only [hrelease, HookCourse.ending?]
    split
    . have hrest := ih world
      simp [StopReport.ofRuns, HookRun.completed?, HookRun.failed?, HookRun.timedOut?, HookCourse.ending?, *]
    . have hrest := ih next
      cases hending : course.ending with
      | _ =>
        simp [StopReport.ofRuns, HookRun.completed?, HookRun.failed?, HookRun.timedOut?, HookCourse.ending?,
          StopReport.cons, *]

/-! ## What a report tells of each hook -/

namespace StopReport

def append (r s : StopReport) : StopReport :=
  ⟨r.completed ++ s.completed, r.failed ++ s.failed, r.timedOut ++ s.timedOut⟩

instance : Append StopReport := ⟨append⟩

def concat (reports : List StopReport) : StopReport :=
  reports.foldr (· ++ ·) {}

/-- The names of all hooks that a report tells of. -/
def names (r : StopReport) : List String :=
  r.completed ++ r.failed.map Prod.fst ++ r.timedOut

theorem append_empty (r : StopReport) : r ++ {} = r := by
  show append r empty = r
  simp [append, empty]

theorem names_append (r s : StopReport) : (r ++ s).names.Perm (r.names ++ s.names) := by
  show (append r s).names.Perm _
  unfold names append
  grind

end StopReport

/-- What is reported of a run when hooks are given some time. It is a matter of this run alone. -/
def HookRun.report (timeout : Duration) (r : HookRun E σ) : StopReport :=
  if timeout < r.course.takes then ⟨[], [], [r.hook.name]⟩
  else
    match r.course.ending with
    | .completed => ⟨[r.hook.name], [], []⟩
    | .failed reason | .crashed reason => ⟨[], [(r.hook.name, reason)], []⟩

/-- The runs in their order, from the first world to the last one. -/
inductive Runs (release : RunRelease E σ) (timeout : Duration) : σ → List (HookRun E σ) → σ → Prop where
  | nil : Runs release timeout world [] world
  | inTime :
    release hook.release world = (course, next) → course.takes ≤ timeout → Runs release timeout next rest last →
      Runs release timeout world (⟨hook, world, course⟩ :: rest) last
  | abandoned :
    release hook.release world = (course, next) → timeout < course.takes → Runs release timeout world rest last →
      Runs release timeout world (⟨hook, world, course⟩ :: rest) last

theorem HookRun.names_report (timeout : Duration) (r : HookRun E σ) : (r.report timeout).names = [r.hook.name] := by
  unfold report
  split
  . rfl
  . split <;> rfl

theorem StopReport.ofRuns_cons (ht : timeout ≠ .zero) (r : HookRun E σ) (rest : List (HookRun E σ)) :
    ofRuns timeout (r :: rest) = r.report timeout ++ ofRuns timeout rest := by
  show _ = append _ _
  unfold ofRuns HookRun.report HookRun.completed? HookRun.failed? HookRun.timedOut? HookCourse.ending? append
  by_cases hl : timeout < r.course.takes
  . simp [hl]
  . cases he : r.course.ending with
    | _ => simp [ht, hl, he]

theorem StopReport.ofRuns_eq_concat (ht : timeout ≠ .zero) (runs : List (HookRun E σ)) :
    ofRuns timeout runs = concat (runs.map (·.report timeout)) := by
  induction runs with
  | nil => rfl
  | cons r rest ih =>
    rw [ofRuns_cons ht, ih]
    rfl

theorem StopReport.names_ofRuns (ht : timeout ≠ .zero) (runs : List (HookRun E σ)) :
    (ofRuns timeout runs).names.Perm (runs.map (·.hook.name)) := by
  induction runs with
  | nil => exact .refl _
  | cons r rest ih =>
    rw [ofRuns_cons ht]
    apply (names_append _ _).trans
    rw [r.names_report]
    exact ih.cons _

/-- A list of what some runs have come to has the order of the runs. -/
theorem filterMap_sublist_map {f : α → Option β} {name : α → γ} {key : β → γ}
    (hf : ∀ x y, f x = some y → key y = name x) (xs : List α) :
    ((xs.filterMap f).map key).Sublist (xs.map name) := by
  induction xs with
  | nil => exact .slnil
  | cons x rest ih =>
    rw [List.filterMap_cons, List.map_cons]
    split
    . exact ih.cons _
    . next y hy =>
      rw [List.map_cons, hf x y hy]
      exact ih.cons_cons _

theorem StopReport.completed_ofRuns_sublist (timeout : Duration) (runs : List (HookRun E σ)) :
    (ofRuns timeout runs).completed.Sublist (runs.map (·.hook.name)) := by
  rw [← List.map_id (completed _)]
  apply filterMap_sublist_map
  grind [HookRun.completed?]

theorem StopReport.failed_ofRuns_sublist (timeout : Duration) (runs : List (HookRun E σ)) :
    ((ofRuns timeout runs).failed.map Prod.fst).Sublist (runs.map (·.hook.name)) := by
  apply filterMap_sublist_map
  grind [HookRun.failed?]

theorem StopReport.timedOut_ofRuns_sublist (timeout : Duration) (runs : List (HookRun E σ)) :
    (ofRuns timeout runs).timedOut.Sublist (runs.map (·.hook.name)) := by
  rw [← List.map_id (timedOut _)]
  apply filterMap_sublist_map
  grind [HookRun.timedOut?]

theorem runs_hookRuns (ht : timeout ≠ .zero) (hooks : List (StopHook E)) (world : σ) :
    Runs release timeout world (hookRuns release timeout hooks world) (runHooks release timeout hooks world).2 := by
  induction hooks generalizing world with
  | nil => exact .nil
  | cons hook rest ih =>
    rcases hrelease : release hook.release world with ⟨course, next⟩
    unfold runHooks hookRuns
    simp only [hrelease, HookCourse.ending?]
    by_cases hl : timeout < course.takes
    . simp only [hl, or_true, if_true]
      exact .abandoned hrelease hl (ih world)
    . simp only [ht, hl, or_self, if_false]
      exact .inTime hrelease (Nat.le_of_not_lt hl) (ih next)

theorem runHooks_singleton (release : RunRelease E σ) (ht : timeout ≠ .zero) (hook : StopHook E) (world : σ) :
    (runHooks release timeout [hook] world).1 =
      HookRun.report timeout ⟨hook, world, (release hook.release world).1⟩ := by
  rw [runHooks_report]
  show StopReport.ofRuns timeout [_] = _
  rw [StopReport.ofRuns_cons ht]
  apply StopReport.append_empty

namespace Context

/--
Stopping runs the hooks one after the other, the newest first. The report puts together what each hook is
reported as when it is run alone, and a context whose hooks have been run has none to be run again.
-/
theorem stop_hooks_run (release : RunRelease E σ) (ht : timeout ≠ .zero) (context : Context E) (world : σ) :
    ∃ (runs : List (HookRun E σ)) (report : StopReport) (last : σ),
      context.runStopHooks release timeout world = ({ context with stopHooks := [] }, report, last)
      ∧ runs.map (·.hook) = context.stopHooks.reverse
      ∧ Runs release timeout world runs last
      ∧ report = .concat (runs.map (·.report timeout))
      ∧ report.names.Perm (context.stopHooks.map (·.name))
      ∧ report.completed.Sublist (context.stopHooks.reverse.map (·.name))
      ∧ (report.failed.map Prod.fst).Sublist (context.stopHooks.reverse.map (·.name))
      ∧ report.timedOut.Sublist (context.stopHooks.reverse.map (·.name))
      ∧ (∀ r ∈ runs, r.report timeout = (runHooks release timeout [r.hook] r.found).1)
      ∧ ((∀ hook w w', (release hook w).1 = (release hook w').1) → ∀ w,
          report = .concat (context.stopHooks.reverse.map fun hook => (runHooks release timeout [hook] w).1))
      ∧ ∀ {τ : Type} (again : RunRelease E τ) (limit : Duration) (w : τ),
          ({ context with stopHooks := [] } : Context E).runStopHooks again limit w =
            ({ context with stopHooks := [] }, {}, w) := by
  let runs := hookRuns release timeout context.stopHooks.reverse world
  have hhooks : runs.map (·.hook) = context.stopHooks.reverse := map_hook_hookRuns release timeout _ world
  have hnames : context.stopHooks.reverse.map (·.name) = runs.map (·.hook.name) := by
    rw [← hhooks, List.map_map]
    rfl
  have halone : ∀ r ∈ runs, r.report timeout = (runHooks release timeout [r.hook] r.found).1 := by
    intro r hr
    rw [runHooks_singleton release ht, ← course_of_mem_hookRuns hr]
  refine ⟨runs, .ofRuns timeout runs, (runHooks release timeout context.stopHooks.reverse world).2, ?_, hhooks,
    runs_hookRuns ht _ world, StopReport.ofRuns_eq_concat ht runs, ?_, ?_, ?_, ?_, halone, ?_, ?_⟩
  . unfold runStopHooks
    rw [← runHooks_report]
  . apply (StopReport.names_ofRuns ht runs).trans
    rw [← hnames, List.map_reverse]
    apply List.reverse_perm
  . exact hnames ▸ StopReport.completed_ofRuns_sublist timeout runs
  . exact hnames ▸ StopReport.failed_ofRuns_sublist timeout runs
  . exact hnames ▸ StopReport.timedOut_ofRuns_sublist timeout runs
  . intro hsame w
    rw [StopReport.ofRuns_eq_concat ht, ← hhooks, List.map_map]
    congr 1
    apply List.map_congr_left
    intro r hr
    -- The world that the hook finds makes no difference to how it ends.
    rw [halone r hr, runHooks_singleton release ht, Function.comp_apply, runHooks_singleton release ht,
      hsame r.hook.release r.found w]
    rfl
  . intro τ again limit w
    rfl

end Context

/-! Four hooks, of which two have the same name, with one that takes too long. -/

namespace StopReport.Sample

def extension : Extension where
  Action := Unit
  retries := fun _ => false
  Provider := Unit
  Hook := HookCourse
  Value := Unit

/-- Each hook brings its own course, and those that are not abandoned are counted. -/
def perform : RunRelease extension Nat
  | .custom course, count => (course, count + 1)
  | .bridge _, count => (⟨.zero, .completed⟩, count + 1)

def hook (name : String) (takes : Nat) (ending : HookEnding) : StopHook extension :=
  ⟨name, .custom ⟨.ofMilliseconds takes, ending⟩⟩

def context : Context extension :=
  { (∅ : Context extension) with stopHooks := [hook "server" 3 .completed, hook "server" 10 (.failed "gone"),
      hook "cache" 5000 .completed, hook "log" 0 (.crashed "broken")] }

end StopReport.Sample

namespace Context

theorem stop_hooks_run_mixed :
    Duration.ofMilliseconds 20 ≠ .zero
    ∧ (StopReport.Sample.context.runStopHooks StopReport.Sample.perform (.ofMilliseconds 20) 0).2.1 =
        ⟨["server"], [("log", "broken"), ("server", "gone")], ["cache"]⟩
    ∧ (⟨["server"], [("log", "broken"), ("server", "gone")], ["cache"]⟩ : StopReport).names.Perm
        (StopReport.Sample.context.stopHooks.map (·.name)) := by
  have ht : Duration.ofMilliseconds 20 ≠ .zero := by decide
  have hr : (StopReport.Sample.context.runStopHooks StopReport.Sample.perform (.ofMilliseconds 20) 0).2.1 =
      ⟨["server"], [("log", "broken"), ("server", "gone")], ["cache"]⟩ := by rfl
  rcases stop_hooks_run StopReport.Sample.perform ht StopReport.Sample.context 0 with
    ⟨_, report, _, heq, _, _, _, hnames, _⟩
  rw [heq] at hr
  subst hr
  exact ⟨ht, by rw [heq], hnames⟩

end Context

end Turnstile
