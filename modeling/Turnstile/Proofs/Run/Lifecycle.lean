import Turnstile.Proofs.Run.Ending
import Turnstile.Proofs.Run.Custody

/-!
This module contains the life of runs, from the start until everybody has been told how it ended: who waits gets
one outcome for good, the run is stopped once, and once the loop has left nothing changes any more.
-/

namespace Turnstile

namespace Loop

variable {E : Extension} {l : Loop E}

/-- A loop that has ended can only be sent events. -/
theorem play_of_not_isOpen (h : l.isOpen = false) (move : Move E) :
    l.play move = { l with queue := (l.play move).queue } := by
  cases move with
  | arrive event => rfl
  | take | settle | emit | cancel | crash =>
    unfold isOpen at h
    simp only [play, take, settle, emit, cancel, crash]
    split at h
    . cases h
    . cases h
    . cases h
    . split <;> simp_all

/-- All that a move can do is what it can do at the beginning of a chronicle. -/
theorem exists_course (l : Loop E) (move : Move E) :
    ∃ d, Chronicle.Course (.begin l) move d ∧ d.loop = l.play move :=
  ⟨_, Chronicle.play_course _ move, Chronicle.play_loop _ move⟩

theorem play_phase_ne_crashed (h : l.phase ≠ .crashed) {move : Move E} (hmove : move ≠ .crash) :
    (l.play move).phase ≠ .crashed := by
  rcases l.exists_course move with ⟨d, course, hloop⟩
  rw [← hloop]
  cases course with
  | arrive | idle => exact h
  | hear provide hphase hqueue turn =>
    cases turn with
    | _ => exact nofun
  | settle | fail | emit | emitted | cancel => exact nofun
  | crash => exact absurd rfl hmove

end Loop

theorem Run.start_eq {E : Extension} {id : RunId} {machine : Machine} {context : Context E} {seed : Trail}
    {config : RunConfig} {r : Run E} (h : start id machine context seed config = .ok r) :
    Loop.start machine context seed config = .ok r.loop ∧ r = ⟨id, r.loop, config, .running, false⟩ := by
  unfold start at h
  cases hloop : Loop.start machine context seed config with
  | error error =>
    rw [hloop] at h
    cases h
  | ok l =>
    rw [hloop] at h
    cases h
    exact ⟨rfl, rfl⟩

namespace Custody

variable {E : Extension} {σ : Type} {release : RunRelease E σ} {c d e : Custody E σ} {deed : Deed E σ}
  {outcome : Outcome E} {trail : Trail} {n : Nat}

/-! ## What stays -/

/-- The second moment comes after the first one. -/
structure Follows (c d : Custody E σ) : Prop where
  config : d.run.config = c.run.config
  left : c.left = true → d.left = true
  released : c.run.released = true → d.run.released = true
  closed : c.run.loop.isOpen = false → d.run.loop = { c.run.loop with queue := d.run.loop.queue }

theorem Follows.refl (c : Custody E σ) : Follows c c :=
  ⟨rfl, id, id, fun _ => rfl⟩

theorem Follows.isOpen (h : Follows c d) (hclosed : c.run.loop.isOpen = false) :
    d.run.loop.isOpen = false := by
  rw [h.closed hclosed]
  exact hclosed

theorem Follows.trans (h : Follows c d) (h' : Follows d e) : Follows c e where
  config := h'.config.trans h.config
  left hleft := h'.left (h.left hleft)
  released hreleased := h'.released (h.released hreleased)
  closed hclosed := by
    have hd := h.closed hclosed
    have he := h'.closed (h.isOpen hclosed)
    rw [hd] at he
    exact he

theorem follows_shut (c : Custody E σ) (n : Nat) (world : σ) : Follows c (c.shut release n world) := by
  rcases c.shut_frame release n world with ⟨hloop, hconfig, hreleased, _, hleft, _⟩
  refine ⟨hconfig, fun h => hleft.trans h, fun h => hreleased.trans h, ?_⟩
  intro _
  rw [hloop]

theorem Course.follows (course : Course release c deed d) : Follows c d := by
  cases course with
  | take provide hphase =>
    refine ⟨rfl, id, id, ?_⟩
    intro hclosed
    simp [Loop.isOpen, hphase] at hclosed
  | leave => exact ⟨rfl, fun _ => rfl, id, fun _ => rfl⟩
  | move move => exact ⟨rfl, id, id, fun hclosed => Loop.play_of_not_isOpen hclosed move⟩
  | stop => exact ⟨rfl, id, fun _ => rfl, fun _ => rfl⟩
  | shut world => exact follows_shut c _ world
  | _ => exact ⟨rfl, id, id, fun _ => rfl⟩

theorem follows_playAll (release : RunRelease E σ) (c : Custody E σ) (deeds : List (Deed E σ)) :
    Follows c (c.playAll release deeds) := by
  apply playAll_induction (P := Follows c)
  . exact .refl c
  . intro d deed h
    exact h.trans (play_course release d deed).follows

theorem isOpen_of_outcome? (h : c.outcome? = some outcome) :
    c.run.loop.isOpen = false ∧ outcome ≠ .timedOut := by
  unfold outcome? Run.outcome? at h
  cases hphase : c.run.loop.phase with
  | waiting | invoking | emitting => simp [hphase] at h
  | finished result =>
    cases result with
    | ok value | error error =>
      simp only [hphase, Option.some.injEq] at h
      subst h
      refine ⟨by simp [Loop.isOpen, hphase], ?_⟩
      intro heq
      cases heq
  | cancelled | crashed =>
    simp only [hphase, Option.ite_none_right_eq_some, Option.some.injEq] at h
    rw [← h.2]
    refine ⟨by simp [Loop.isOpen, hphase], ?_⟩
    intro heq
    cases heq

theorem Follows.outcome? (h : Follows c d) (hc : c.outcome? = some outcome) : d.outcome? = some outcome := by
  have hloop := h.closed (isOpen_of_outcome? hc).1
  unfold Custody.outcome? Run.outcome? at hc ⊢
  rw [hloop]
  cases hphase : c.run.loop.phase with
  | waiting | invoking | emitting => simp [hphase] at hc
  | finished result =>
    rw [hphase] at hc
    cases result with
    | ok value | error error => exact hc
  | cancelled | crashed =>
    simp only [hphase, Option.ite_none_right_eq_some] at hc ⊢
    exact ⟨h.left hc.1, hc.2⟩

theorem Follows.trail_of_outcome? (h : Follows c d) (hc : c.outcome? = some outcome) :
    d.run.loop.trail = c.run.loop.trail := by
  rw [h.closed (isOpen_of_outcome? hc).1]

/-- The loop leaves only when it has ended. -/
def Parted (c : Custody E σ) : Prop :=
  c.left = true → c.run.loop.isOpen = false

theorem Parted.playAll (h : c.Parted) (deeds : List (Deed E σ)) : (c.playAll release deeds).Parted := by
  apply playAll_induction h
  intro c deed h hleft
  have course := play_course release c deed
  generalize c.play release deed = d at course hleft
  cases course with
  | leave provide hclosed => exact hclosed
  | shut world hn hl => exact (follows_shut c _ world).isOpen (h hl)
  | take provide hphase =>
    have := h hleft
    simp [Loop.isOpen, hphase] at this
  | move move =>
    show (c.run.loop.play move).isOpen = false
    rw [Loop.play_of_not_isOpen (h hleft) move]
    exact h hleft
  | _ => exact h hleft

/-! ## Waiting -/

/-- What somebody who waits has seen is still what there is to see. -/
def Fits (c : Custody E σ) : Waiter E → Prop
  | .watching => True
  | .reading outcome => c.outcome? = some outcome
  | .answered outcome trail => c.outcome? = some outcome ∧ trail = c.run.loop.trail

theorem Follows.fits {w : Waiter E} (h : Follows c d) (hw : c.Fits w) : d.Fits w := by
  cases w with
  | watching => trivial
  | reading outcome => exact h.outcome? hw
  | answered outcome trail => exact ⟨h.outcome? hw.1, hw.2.trans (h.trail_of_outcome? hw.1).symm⟩

/-- Some of those who wait may have waited in vain, and all others have seen the outcome, or will. -/
def Attended (vain : Nat → Prop) (c : Custody E σ) : Prop :=
  ∀ n w, c.waiters[n]? = some w →
    c.Fits w ∨ (vain n ∧ (w = .reading .timedOut ∨ ∃ trail, w = .answered .timedOut trail))

theorem Attended.play {vain : Nat → Prop} (h : Attended vain c) (hvain : c.outcome? = none → ∀ n, vain n)
    (deed : Deed E σ) : Attended vain (c.play release deed) := by
  have course := play_course release c deed
  generalize c.play release deed = d at course
  have hfits : ∀ n w, c.waiters[n]? = some w →
      d.Fits w ∨ (vain n ∧ (w = .reading .timedOut ∨ ∃ trail, w = .answered .timedOut trail)) := by
    intro n w hw
    exact (h n w hw).imp_left course.follows.fits
  cases course with
  | wait =>
    intro n w hw
    rcases Chronicle.getElem?_concat_cases hw with hw | ⟨_, rfl⟩
    . exact hfits n w hw
    . exact .inl trivial
  | @look m late outcome hm houtcome =>
    intro n w hw
    by_cases hn : m = n
    . subst hn
      rw [List.getElem?_set_self (List.getElem?_eq_some_iff.1 hm).1] at hw
      injection hw with hw
      subst hw
      rcases houtcome with houtcome | ⟨hnone, rfl⟩
      . exact .inl houtcome
      . exact .inr ⟨hvain hnone m, .inl rfl⟩
    . rw [List.getElem?_set_ne hn] at hw
      exact hfits n w hw
  | @read m outcome hm =>
    intro n w hw
    by_cases hn : m = n
    . subst hn
      rw [List.getElem?_set_self (List.getElem?_eq_some_iff.1 hm).1] at hw
      injection hw with hw
      subst hw
      rcases h m _ hm with hfit | ⟨hv, hread⟩
      . exact .inl ⟨hfit, rfl⟩
      . refine .inr ⟨hv, .inr ?_⟩
        rcases hread with hread | ⟨_, hread⟩
        . injection hread with hread
          exact ⟨_, by rw [hread]⟩
        . cases hread
    . rw [List.getElem?_set_ne hn] at hw
      exact hfits n w hw
  | @shut m world hm hleft =>
    intro n w hw
    rw [(c.shut_frame release m world).2.2.2.2.2] at hw
    exact hfits n w hw
  | _ => exact hfits

/-- Whoever waits from now on is given the outcome and the trail, and this as soon as he looks. -/
structure Answers (release : RunRelease E σ) (c : Custody E σ) (outcome : Outcome E) (trail : Trail) : Prop where
  only : ∀ more n other records, c.waiters.length ≤ n →
    (c.playAll release more).waiters[n]? = some (.answered other records) →
      other = outcome ∧ records = trail
  returns : ∀ more late, let d := c.playAll release more
    let n := d.waiters.length
    (d.playAll release [.wait, .look n late, .read n]).waiters[n]? = some (.answered outcome trail)

theorem answers_of_outcome? (hattended : Attended (fun _ => True) c) (h : c.outcome? = some outcome) :
    Answers release c outcome c.run.loop.trail := by
  have hlater : ∀ more, Follows c (c.playAll release more) := fun more => follows_playAll release c more
  constructor
  . intro more n other records hn hw
    -- Those in vain were there before, since from now on there is an outcome whenever somebody looks.
    have hfits : Follows c (c.playAll release more)
        ∧ Attended (· < c.waiters.length) (c.playAll release more) := by
      apply playAll_induction (P := fun d => Follows c d ∧ Attended (· < c.waiters.length) d)
      . refine ⟨.refl c, ?_⟩
        intro m w hm
        exact (hattended m w hm).imp_right fun hv => ⟨(List.getElem?_eq_some_iff.1 hm).1, hv.2⟩
      . intro d deed ⟨hfollows, hd⟩
        refine ⟨hfollows.trans (play_course release d deed).follows, hd.play ?_ deed⟩
        intro hnone
        rw [hfollows.outcome? h] at hnone
        cases hnone
    rcases hfits.2 n _ hw with ⟨hother, hrecords⟩ | ⟨hlt, _⟩
    . rw [(hlater more).outcome? h] at hother
      injection hother with hother
      rw [(hlater more).trail_of_outcome? h] at hrecords
      exact ⟨hother.symm, hrecords⟩
    . omega
  . intro more late d n
    have houtcome : d.outcome? = some outcome := (hlater more).outcome? h
    have htrail : d.run.loop.trail = c.run.loop.trail := (hlater more).trail_of_outcome? h
    have hwatching : (d.waiters ++ [Waiter.watching])[n]? = some .watching := List.getElem?_concat_length
    have hlook : (d.play release .wait).look n late
        = { d with waiters := (d.waiters ++ [Waiter.watching]).set n (.reading outcome) } := by
      unfold look
      rw [show (d.play release .wait).waiters[n]? = _ from hwatching,
        show (d.play release .wait).outcome? = _ from houtcome]
      rfl
    have hreading : ((d.waiters ++ [Waiter.watching]).set n (.reading outcome))[n]? = some (.reading outcome) :=
      List.getElem?_set_self (List.getElem?_eq_some_iff.1 hwatching).1
    show (((d.play release .wait).look n late).read n).waiters[n]? = _
    rw [hlook]
    unfold read
    rw [hreading]
    dsimp only
    rw [List.getElem?_set_self (List.getElem?_eq_some_iff.1 hreading).1, htrail]

/-! ## Stopping -/

/-- The stop hooks of the last context were run, each once and the newest first, and this was reported. -/
structure Shut (release : RunRelease E σ) (c : Custody E σ) (s : Shutdown E) : Prop where
  left : c.left = true
  lifecycle : c.run.lifecycle = .stopped
  context : s.context = { c.run.loop.context with stopHooks := [] }
  trail : s.trail = c.run.loop.trail
  hooks : c.hookRuns.map (·.hook) = c.run.loop.context.stopHooks.reverse
  courses : ∀ x ∈ c.hookRuns, x.course = (release x.hook.release x.found).1
  report : s.report = .ofRuns c.run.config.hookDuration c.hookRuns

/-- How far the one has come who was the first to stop the run. -/
inductive Standing (release : RunRelease E σ) (c : Custody E σ) : Prop where
  | running (hreleased : c.run.released = false) (hstoppers : c.stoppers = [])
    (hlifecycle : c.run.lifecycle = .running) (hhooks : c.hookRuns = [])
  | joining (hreleased : c.run.released = true) (hstopper : c.stoppers[0]? = some .joining)
    (hlifecycle : c.run.lifecycle = .running) (hhooks : c.hookRuns = [])
  | crashed {error : RunError} (hreleased : c.run.released = true) (hleft : c.left = true)
    (hphase : c.run.loop.phase = .crashed) (hstopper : c.stoppers[0]? = some (.returned (.error error)))
    (hlifecycle : c.run.lifecycle = .running) (hhooks : c.hookRuns = [])
  | stopped {s : Shutdown E} (hreleased : c.run.released = true)
    (hstopper : c.stoppers[0]? = some (.returned (.ok s))) (shut : Shut release c s)

/-- Only the first one who stops the run does something. -/
structure Stopping (release : RunRelease E σ) (c : Custody E σ) : Prop where
  standing : Standing release c
  later : ∀ n stopper, c.stoppers[n + 1]? = some stopper → stopper = .returned (.error .notRunning)

theorem Standing.of_follows (standing : Standing release c) (parted : c.Parted) (h : Follows c d)
    (hreleased : d.run.released = c.run.released) (hlifecycle : d.run.lifecycle = c.run.lifecycle)
    (hstoppers : c.stoppers <+: d.stoppers) (hsame : c.run.released = false → d.stoppers = c.stoppers)
    (hhooks : d.hookRuns = c.hookRuns) : Standing release d := by
  have hfirst : ∀ stopper, c.stoppers[0]? = some stopper → d.stoppers[0]? = some stopper := by
    intro stopper hstopper
    rcases hstoppers with ⟨rest, hrest⟩
    rw [← hrest, List.getElem?_append_left (List.getElem?_eq_some_iff.1 hstopper).1]
    exact hstopper
  cases standing with
  | running hr hs hl hh =>
    exact .running (hreleased.trans hr) ((hsame hr).trans hs) (hlifecycle.trans hl) (hhooks.trans hh)
  | joining hr hs hl hh =>
    exact .joining (hreleased.trans hr) (hfirst _ hs) (hlifecycle.trans hl) (hhooks.trans hh)
  | crashed hr hleft hp hs hl hh =>
    refine .crashed (hreleased.trans hr) (h.left hleft) ?_ (hfirst _ hs) (hlifecycle.trans hl) (hhooks.trans hh)
    rw [h.closed (parted hleft)]
    exact hp
  | stopped hr hs shut =>
    have hloop := h.closed (parted shut.left)
    have hl := hlifecycle.trans shut.lifecycle
    refine .stopped (hreleased.trans hr) (hfirst _ hs) ⟨h.left shut.left, hl, ?_, ?_, ?_, ?_, ?_⟩
    . rw [hloop]
      exact shut.context
    . rw [hloop]
      exact shut.trail
    . rw [hloop, hhooks]
      exact shut.hooks
    . rw [hhooks]
      exact shut.courses
    . rw [hhooks, h.config]
      exact shut.report

theorem exists_shut (release : RunRelease E σ) (hstopper : c.stoppers[0]? = some .joining) (hhooks : c.hookRuns = [])
    (hleft : c.left = true) (hphase : c.run.loop.phase ≠ .crashed) (world : σ) :
    ∃ s, (c.shut release 0 world).stoppers[0]? = some (.returned (.ok s))
      ∧ Shut release (c.shut release 0 world) s := by
  have hreport := runHooks_report release c.run.config.hookDuration
    c.run.loop.context.stopHooks.reverse world
  unfold shut
  split
  . next hcrashed => exact absurd hcrashed hphase
  . have hlt := (List.getElem?_eq_some_iff.1 hstopper).1
    refine ⟨_, List.getElem?_set_self hlt, ⟨hleft, rfl, rfl, rfl, ?_, ?_, ?_⟩⟩
    . simp only [hhooks, List.nil_append]
      exact map_hook_hookRuns release _ _ world
    . simp only [hhooks, List.nil_append]
      intro x hx
      exact course_of_mem_hookRuns hx
    . simp only [hhooks, List.nil_append]
      exact hreport

theorem Standing.shut (hreleased : c.run.released = true) (hstopper : c.stoppers[0]? = some .joining)
    (hlifecycle : c.run.lifecycle = .running) (hhooks : c.hookRuns = []) (hleft : c.left = true) (world : σ) :
    Standing release (c.shut release 0 world) := by
  by_cases hphase : c.run.loop.phase = .crashed
  . unfold Custody.shut
    rw [hphase]
    exact .crashed hreleased hleft hphase
      (List.getElem?_set_self (List.getElem?_eq_some_iff.1 hstopper).1) hlifecycle hhooks
  . rcases exists_shut release hstopper hhooks hleft hphase world with ⟨s, hs, shut⟩
    exact .stopped ((c.shut_frame release 0 world).2.2.1.trans hreleased) hs shut

theorem Stopping.play (stopping : Stopping release c) (parted : c.Parted) (deed : Deed E σ) :
    Stopping release (c.play release deed) := by
  have course := play_course release c deed
  generalize c.play release deed = d at course
  have follows := course.follows
  cases course with
  | stop hreleased =>
    cases stopping.standing with
    | running hr hs hl hh =>
      refine ⟨.joining rfl ?_ hl hh, ?_⟩
      . simp [hs]
      . simp [hs]
    | joining hr | crashed hr | stopped hr =>
      rw [hr] at hreleased
      cases hreleased
  | spare hreleased =>
    constructor
    . apply stopping.standing.of_follows parted follows rfl rfl (List.prefix_append _ _) _ rfl
      rw [hreleased]
      exact nofun
    . intro n stopper hn
      rcases Chronicle.getElem?_concat_cases hn with hn | ⟨_, rfl⟩
      . exact stopping.later n stopper hn
      . rfl
  | @shut n world hn hleft =>
    cases n with
    | succ n => cases stopping.later n _ hn
    | zero =>
      cases stopping.standing with
      | running hr hs => simp [hs] at hn
      | crashed _ _ _ hs | stopped _ hs =>
        rw [hn] at hs
        cases hs
      | joining hr hs hl hh =>
        refine ⟨.shut hr hs hl hh hleft world, ?_⟩
        intro n stopper hn
        have hstoppers : (c.shut release 0 world).stoppers[n + 1]? = c.stoppers[n + 1]? := by
          unfold Custody.shut
          split
          . exact List.getElem?_set_ne (by omega)
          . exact List.getElem?_set_ne (by omega)
        rw [hstoppers] at hn
        exact stopping.later n stopper hn
  | _ =>
    exact ⟨stopping.standing.of_follows parted follows rfl rfl (List.prefix_refl _) (fun _ => rfl) rfl,
      stopping.later⟩

theorem move?_ne_crash {move : Move E} (h : c.move? deed = some move) (hdeed : deed ≠ .crash) :
    move ≠ .crash := by
  cases deed with
  | crash => exact absurd rfl hdeed
  | go provide =>
    unfold move? at h
    grind
  | _ =>
    unfold move? at h
    grind

theorem phase_ne_crashed_playAll {deeds : List (Deed E σ)} (h : c.run.loop.phase ≠ .crashed)
    (hdeeds : ∀ deed ∈ deeds, deed ≠ .crash) : (c.playAll release deeds).run.loop.phase ≠ .crashed := by
  induction deeds generalizing c with
  | nil => exact h
  | cons deed rest ih =>
    rw [List.forall_mem_cons] at hdeeds
    apply ih _ hdeeds.2
    rw [loop_play]
    cases hmove : c.move? deed with
    | none => exact h
    | some move => exact Loop.play_phase_ne_crashed h (move?_ne_crash hmove hdeeds.1)

/-- The loop has been told to leave, and at most the failure of an action can still become the result. -/
structure Fading (failing : Prop) (c : Custody E σ) : Prop where
  released : c.run.released = true
  idle : c.busy = false
  invoking : ∀ i, c.run.loop.phase = .invoking i → failing
  result : ∀ result, c.run.loop.phase = .finished result → failing ∧ ∃ error, result = .error (.action error)

theorem Fading.play {failing : Prop} (fading : Fading failing c) (deed : Deed E σ) :
    Fading failing (c.play release deed) := by
  have course := play_course release c deed
  generalize c.play release deed = d at course
  cases course with
  | take provide hphase hbusy =>
    rw [fading.idle] at hbusy
    cases hbusy
  | pick provide hphase hreleased =>
    rw [fading.released] at hreleased
    cases hreleased
  | move move hmove htake =>
    rcases c.run.loop.exists_course move with ⟨x, course, hloop⟩
    rw [← hloop]
    refine ⟨fading.released, fading.idle, ?_, ?_⟩
    . cases course with
      | arrive | idle => exact fading.invoking
      | hear => exact absurd rfl (htake _)
      | _ =>
        intro i hi
        cases hi
    . cases course with
      | arrive | idle => exact fading.result
      | hear => exact absurd rfl (htake _)
      | fail error hphase =>
        intro result hresult
        injection hresult with hresult
        exact ⟨fading.invoking _ hphase, error, hresult.symm⟩
      | _ =>
        intro result hresult
        cases hresult
  | stop hreleased => exact ⟨rfl, fading.idle, fading.invoking, fading.result⟩
  | @shut n world hn hleft =>
    rcases c.shut_frame release n world with ⟨hloop, _, hreleased, hbusy, _⟩
    refine ⟨hreleased.trans fading.released, hbusy.trans fading.idle, ?_, ?_⟩
    . rw [hloop]
      exact fading.invoking
    . rw [hloop]
      exact fading.result
  | _ => exact ⟨fading.released, fading.idle, fading.invoking, fading.result⟩

end Custody

/-! ## Leaving -/

namespace Deed

variable {E : Extension} {σ : Type}

def isGo : Deed E σ → Bool
  | go _ => true
  | _ => false

/-- How many further steps the loop may have to make because of the deed. -/
def load : Deed E σ → Nat
  | settle (.ok (_, step)) => step.events.length + 2
  | _ => 0

def loads : List (Deed E σ) → Nat
  | [] => 0
  | deed :: rest => deed.load + loads rest

end Deed

namespace Custody

variable {E : Extension} {σ : Type} {release : RunRelease E σ} {c d : Custody E σ} {deed : Deed E σ}
  {outcome : Outcome E} {trail : Trail} {n : Nat}

/-- How many steps the loop makes at most until it has left, once it has been told to. -/
def rank (c : Custody E σ) : Nat :=
  if c.left then 0
  else match c.run.loop.phase with
    | .waiting => if c.busy then 3 else 2
    | .invoking _ => 2
    | .emitting _ events => events.length + 4
    | .finished _ | .cancelled | .crashed => 1

theorem rank_eq_zero_iff : c.rank = 0 ↔ c.left = true := by
  unfold rank
  split
  . next hleft => simp [hleft]
  . next hleft =>
    split
    . split <;> simp [hleft]
    . simp [hleft]
    . simp [hleft]
    . simp [hleft]
    . simp [hleft]
    . simp [hleft]

theorem rank_congr (hleft : d.left = c.left) (hbusy : d.busy = c.busy) (hloop : d.run.loop = c.run.loop) :
    d.rank = c.rank := by
  unfold rank
  rw [hleft, hbusy, hloop]

theorem rank_le_two (hbusy : c.busy = false) (h : ∀ p events, c.run.loop.phase ≠ .emitting p events) :
    c.rank ≤ 2 := by
  unfold rank
  split
  . omega
  . split
    . simp [hbusy]
    . omega
    . next p events hphase => exact absurd hphase (h p events)
    . omega
    . omega
    . omega

theorem phase_take {l : Loop E} (provide : Provide E) (hphase : l.phase = .waiting) (p : Provenance)
    (events : List Event) : (l.take provide).phase ≠ .emitting p events := by
  rcases l.exists_course (.take provide) with ⟨d, course, hloop⟩
  change d.loop = l.take provide at hloop
  rw [← hloop]
  cases course with
  | hear _ _ _ turn =>
    cases turn with
    | _ => exact nofun
  | idle =>
    show l.phase ≠ _
    rw [hphase]
    exact nofun

theorem rank_go (release : RunRelease E σ) (h : c.run.released = true) (provide : Provide E) :
    (c.go provide).rank ≤ c.rank - 1 := by
  cases hleft : c.left with
  | true =>
    have hlater : (c.go provide).left = true := (play_course release c (.go provide)).follows.left hleft
    rw [rank_eq_zero_iff.2 hlater]
    exact Nat.zero_le _
  | false =>
    unfold go
    cases hphase : c.run.loop.phase with
    | waiting =>
      cases hbusy : c.busy with
      | true =>
        have hrank : c.rank = 3 := by simp [rank, hleft, hphase, hbusy]
        rw [hrank]
        exact rank_le_two rfl (phase_take provide hphase)
      | false => simp [rank, hbusy, h, hleft, setLoop, Loop.cancel, hphase]
    | invoking i => simp [rank, h, hleft, setLoop, Loop.cancel, hphase]
    | emitting p events =>
      cases events with
      | nil =>
        simp only [rank, hleft, setLoop, Loop.emit, hphase]
        cases c.busy with
        | _ => decide
      | cons event rest => simp [rank, hleft, setLoop, Loop.emit, hphase]
    | finished | cancelled | crashed => simp [rank]

theorem rank_settle (c : Custody E σ) (outcome : Except ActionError (Context E × Step)) :
    rank (c.setLoop (c.run.loop.settle outcome)) ≤ c.rank + (Deed.settle outcome : Deed E σ).load := by
  cases hphase : c.run.loop.phase with
  | invoking i =>
    cases hleft : c.left with
    | true => simp [rank, setLoop, hleft]
    | false =>
      cases outcome with
      | error error => simp [rank, setLoop, Loop.settle, Loop.finish, hphase, hleft, Deed.load]
      | ok value =>
        simp only [rank, setLoop, Loop.settle, hphase, hleft, Deed.load]
        simp
        omega
  | _ =>
    have hloop : c.run.loop.settle outcome = c.run.loop := by simp [Loop.settle, hphase]
    rw [hloop]
    exact Nat.le_add_right _ _

theorem rank_crash (c : Custody E σ) : rank (c.setLoop c.run.loop.crash) ≤ c.rank := by
  cases hphase : c.run.loop.phase with
  | invoking i =>
    cases hleft : c.left with
    | _ => simp [rank, setLoop, Loop.crash, hphase, hleft]
  | _ =>
    have hloop : c.run.loop.crash = c.run.loop := by simp [Loop.crash, hphase]
    rw [hloop]
    exact Nat.le_refl _

theorem rank_play (release : RunRelease E σ) (c : Custody E σ) (hdeed : deed.isGo = false) :
    (c.play release deed).rank ≤ c.rank + deed.load := by
  have course := play_course release c deed
  generalize c.play release deed = d at course
  cases course with
  | take | pick | leave => cases hdeed
  | move move hmove htake =>
    cases deed with
    | settle outcome =>
      cases hmove
      exact c.rank_settle outcome
    | crash =>
      cases hmove
      exact c.rank_crash
    | submit event =>
      simp only [move?] at hmove
      split at hmove
      . cases hmove
      . cases hmove
        exact Nat.le_refl _
    | go provide => cases hdeed
    | _ => cases hmove
  | @shut n world hn hleft =>
    rcases c.shut_frame release n world with ⟨hloop, _, _, hbusy, hleft, _⟩
    rw [rank_congr hleft hbusy hloop]
    exact Nat.le_add_right _ _
  | _ =>
    apply Nat.le_trans (Nat.le_of_eq (rank_congr rfl rfl rfl))
    exact Nat.le_add_right _ _

theorem rank_playAll (release : RunRelease E σ) (h : c.run.released = true) (deeds : List (Deed E σ)) :
    (c.playAll release deeds).rank ≤ c.rank + Deed.loads deeds - deeds.countP Deed.isGo := by
  induction deeds generalizing c with
  | nil => exact Nat.le_refl _
  | cons deed rest ih =>
    have follows := (play_course release c deed).follows
    have hrest := ih (follows.released h)
    unfold Deed.loads
    rw [List.countP_cons]
    show ((c.play release deed).playAll release rest).rank ≤ _
    cases hgo : deed.isGo with
    | false =>
      have := rank_play release c hgo
      simp only [Bool.false_eq_true, ↓reduceIte]
      omega
    | true =>
      cases deed with
      | go provide =>
        have hstep : (c.play release (.go provide)).rank ≤ c.rank - 1 := c.rank_go release h provide
        rcases Nat.eq_zero_or_pos c.rank with hzero | hpos
        . -- Once the loop has left, it stays so, whatever is still to come.
          have hleft := follows_playAll release c (.go provide :: rest)
          have hgone := rank_eq_zero_iff.2 (hleft.left (rank_eq_zero_iff.1 hzero))
          exact Nat.le_trans (Nat.le_of_eq hgone) (Nat.zero_le _)
        . simp only [↓reduceIte]
          have : (Deed.go provide : Deed E σ).load = 0 := rfl
          omega
      | _ => cases hgo

/-- Whoever was the first to stop the run has only to wait for some steps of the loop. -/
theorem left_of_rank (h : c.run.released = true) {deeds : List (Deed E σ)}
    (hdeeds : c.rank + Deed.loads deeds ≤ deeds.countP Deed.isGo) :
    (c.playAll release deeds).left = true := by
  have := rank_playAll release h deeds
  apply rank_eq_zero_iff.1
  omega

/-! ## All of it -/

theorem Stopping.begin (release : RunRelease E σ) {r : Run E} {id : RunId} {machine : Machine}
    {context : Context E} {seed : Trail} {config : RunConfig} (h : Run.start id machine context seed config = .ok r) :
    Stopping release (begin r) ∧ r.loop.phase = .waiting := by
  rcases Run.start_eq h with ⟨hloop, hr⟩
  rw [hr]
  refine ⟨⟨.running rfl rfl rfl rfl, ?_⟩, ?_⟩
  . intro n stopper hn
    cases hn
  . rw [Loop.start_eq hloop]

theorem Stopping.playAll (stopping : Stopping release c) (parted : c.Parted) (deeds : List (Deed E σ)) :
    Stopping release (c.playAll release deeds) := by
  have both : (c.playAll release deeds).Parted ∧ Stopping release (c.playAll release deeds) := by
    apply playAll_induction (P := fun c => c.Parted ∧ Stopping release c)
    . exact ⟨parted, stopping⟩
    . intro c deed ⟨parted, stopping⟩
      exact ⟨parted.playAll [deed], stopping.play parted deed⟩
  exact both.2

theorem Attended.playAll (h : Attended (fun _ => True) c) (deeds : List (Deed E σ)) :
    Attended (fun _ => True) (c.playAll release deeds) := by
  apply playAll_induction (P := Attended fun _ => True) h
  intro c deed h
  exact h.play (fun _ _ => trivial) deed

theorem Fading.playAll {failing : Prop} (fading : Fading failing c) (deeds : List (Deed E σ)) :
    Fading failing (c.playAll release deeds) := by
  apply playAll_induction (P := Fading failing) fading
  intro c deed h
  exact h.play deed

theorem outcome?_of_not_isFinished (hparted : c.Parted) (hleft : c.left = true)
    (hresult : c.run.isFinished = false) : c.outcome? = some .stopped := by
  have hclosed := hparted hleft
  unfold Custody.outcome? Run.outcome?
  unfold Run.isFinished Loop.result? at hresult
  unfold Loop.isOpen at hclosed
  cases hphase : c.run.loop.phase with
  | waiting | invoking | emitting => simp [hphase] at hclosed
  | finished result => simp [hphase] at hresult
  | cancelled | crashed => simp [hleft]

/-- Whoever has been told something else than that he has waited in vain was told what there is to see. -/
theorem Attended.fits {vain : Nat → Prop} (attended : Attended vain c)
    (h : c.waiters[n]? = some (.answered outcome trail)) (houtcome : outcome ≠ .timedOut) :
    c.outcome? = some outcome ∧ trail = c.run.loop.trail := by
  rcases attended n _ h with hfits | ⟨_, hvain | ⟨_, hvain⟩⟩
  . exact hfits
  . cases hvain
  . injection hvain with hvain
    exact absurd hvain houtcome

theorem Stopping.shut_of_ok {s : Shutdown E} (stopping : Stopping release c)
    (h : c.stoppers[n]? = some (.returned (.ok s))) : Shut release c s := by
  cases n with
  | succ n => cases stopping.later n _ h
  | zero =>
    cases stopping.standing with
    | running _ hstoppers => simp [hstoppers] at h
    | joining _ hstopper | crashed _ _ _ hstopper =>
      rw [h] at hstopper
      cases hstopper
    | stopped _ hstopper shut =>
      rw [h] at hstopper
      cases hstopper
      exact shut

theorem Stopping.ok_of_returned {result : Except RunError (Shutdown E)} (stopping : Stopping release c)
    (hphase : c.run.loop.phase ≠ .crashed) (h : c.stoppers[0]? = some (.returned result)) :
    ∃ s, result = .ok s := by
  cases stopping.standing with
  | running _ hstoppers => simp [hstoppers] at h
  | joining _ hstopper =>
    rw [h] at hstopper
    cases hstopper
  | crashed _ _ hcrashed => exact absurd hcrashed hphase
  | @stopped s _ hstopper shut =>
    rw [h] at hstopper
    cases hstopper
    exact ⟨s, rfl⟩

theorem Stopping.running (stopping : Stopping release c)
    (h : ∀ result, c.stoppers[0]? ≠ some (.returned result)) :
    c.run.lifecycle = .running ∧ c.hookRuns = [] := by
  cases stopping.standing with
  | running _ _ hl hh | joining _ _ hl hh => exact ⟨hl, hh⟩
  | crashed _ _ _ hstopper | stopped _ hstopper => exact absurd hstopper (h _)

theorem Stopping.released_eq (stopping : Stopping release c) : c.run.released = !c.stoppers.isEmpty := by
  cases stopping.standing with
  | running hr hstoppers => simp [hr, hstoppers]
  | joining hr hstopper | crashed hr _ _ hstopper | stopped hr hstopper =>
    cases hstoppers : c.stoppers with
    | nil => simp [hstoppers] at hstopper
    | cons => exact hr

/-- As long as no action has crashed, the first one who stops the run succeeds once the loop has left. -/
theorem Stopping.join (stopping : Stopping release c) (hreleased : c.run.released = true)
    (hleft : c.left = true) (hphase : c.run.loop.phase ≠ .crashed) (world : σ) :
    ∃ s, (c.play release (.join 0 world)).stoppers[0]? = some (.returned (.ok s)) := by
  cases stopping.standing with
  | running hr =>
    rw [hr] at hreleased
    cases hreleased
  | crashed _ _ hcrashed => exact absurd hcrashed hphase
  | @stopped s hr hs =>
    refine ⟨s, ?_⟩
    have hidle : c.play release (.join 0 world) = c := by simp [Custody.play, Custody.join, hs]
    rw [hidle]
    exact hs
  | joining hr hs hl hh =>
    have hshut : c.play release (.join 0 world) = c.shut release 0 world := by
      simp [Custody.play, Custody.join, hs, hleft]
    rcases exists_shut release hs hh hleft hphase world with ⟨s, hs, _⟩
    rw [hshut]
    exact ⟨s, hs⟩

/--
Whatever happens in whatever order. Once somebody who waits has been told how the run has ended, whoever waits later
is told the same, with the same trail; and if the run has been stopped without a result, he is told that. The
first one who stops the run has only to wait until the loop has left, for which a few of its steps are enough. He
then runs the stop hooks, each once, and the run counts as stopped from then on; for everybody else it does not run any
more, and no hook is run again. After the loop has left no event is taken, and the trail stays as it is.
-/
theorem run_concludes {id : RunId} {machine : Machine} {context : Context E} {seed : Trail} {config : RunConfig}
    {r : Run E} (h : Run.start id machine context seed config = .ok r) (release : RunRelease E σ)
    {deeds : List (Deed E σ)} (hdeeds : ∀ deed ∈ deeds, deed ≠ .crash) :
    let c : Custody E σ := (begin r).playAll release deeds
    (∀ (n : Nat) outcome trail, c.waiters[n]? = some (.answered outcome trail) → outcome ≠ .timedOut →
      Answers release c outcome trail)
    ∧ (∀ s, c.stoppers[0]? = some (.returned (.ok s)) → c.run.isFinished = false →
      Answers release c .stopped c.run.loop.trail)
    ∧ (c.run.released = true → c.busy = false → c.run.isFinished = false → ∀ more,
      let d := c.playAll release more
      d.run.isFinished = false
        ∨ (∃ i, c.run.loop.phase = .invoking i)
          ∧ ∃ error, d.run.loop.result? = some (.error (.action error)))
    ∧ (c.stoppers = [] → (c.play release .stop).stoppers = [.joining])
    ∧ (∀ result, c.stoppers[0]? = some (.returned result) → ∃ s, result = .ok s ∧ Shut release c s)
    ∧ ((∀ result, c.stoppers[0]? ≠ some (.returned result)) →
      c.run.lifecycle = .running ∧ c.hookRuns = [])
    ∧ (c.stoppers[0]? = some .joining → ∀ more, (∀ deed ∈ more, deed ≠ .crash) →
      c.rank + Deed.loads more ≤ more.countP Deed.isGo → ∀ world,
        ∃ s, ((c.playAll release more).play release (.join 0 world)).stoppers[0]?
          = some (.returned (.ok s)))
    ∧ (∀ n stopper, c.stoppers[n + 1]? = some stopper → stopper = .returned (.error .notRunning))
    ∧ (c.left = true → ∀ more, let d := c.playAll release more
      d.left = true ∧ (∀ event, d.submit event = .error .notRunning)
        ∧ d.run.loop.trail = c.run.loop.trail) := by
  intro c
  rcases Stopping.begin release h with ⟨hbegin, hwaiting⟩
  have hnew : (begin r : Custody E σ).Parted := nofun
  have parted : c.Parted := hnew.playAll deeds
  have stopping : Stopping release c := hbegin.playAll hnew deeds
  have attended : Attended (fun _ => True) c := by
    apply Attended.playAll
    intro n w hw
    cases hw
  have hphase : c.run.loop.phase ≠ .crashed := by
    apply phase_ne_crashed_playAll _ hdeeds
    show r.loop.phase ≠ _
    rw [hwaiting]
    exact nofun
  refine ⟨?_, ?_, ?_, ?_, ?_, stopping.running, ?_, stopping.later, ?_⟩
  . intro n outcome trail hw hfinal
    rcases attended.fits hw hfinal with ⟨houtcome, htrail⟩
    rw [htrail]
    exact answers_of_outcome? attended houtcome
  . intro s hs hresult
    have hleft := (stopping.shut_of_ok hs).left
    exact answers_of_outcome? attended (outcome?_of_not_isFinished parted hleft hresult)
  . intro hreleased hbusy hresult more d
    have fading : Fading (∃ i, c.run.loop.phase = .invoking i) c := by
      refine ⟨hreleased, hbusy, fun i hi => ⟨i, hi⟩, ?_⟩
      intro result hfinished
      simp [Run.isFinished, Loop.result?, hfinished] at hresult
    have hlater : Fading _ d := fading.playAll more
    cases hd : d.run.loop.result? with
    | none => exact .inl (by simp [Run.isFinished, hd])
    | some result =>
      rcases hlater.result result (Loop.result?_eq_some_iff.1 hd) with ⟨hinvoking, error, rfl⟩
      exact .inr ⟨hinvoking, error, rfl⟩
  . intro hnone
    have hreleased := stopping.released_eq
    show c.stop.stoppers = _
    simp [stop, hreleased, hnone]
  . intro result hresult
    rcases stopping.ok_of_returned hphase hresult with ⟨s, rfl⟩
    exact ⟨s, rfl, stopping.shut_of_ok hresult⟩
  . intro hjoining more hmore hrank world
    have hreleased : c.run.released = true := by
      rw [stopping.released_eq]
      cases hstoppers : c.stoppers with
      | nil => simp [hstoppers] at hjoining
      | cons => rfl
    have hlater := stopping.playAll parted more
    apply hlater.join ((follows_playAll release c more).released hreleased) (left_of_rank hreleased hrank)
    exact phase_ne_crashed_playAll hphase hmore
  . intro hleft more d
    have follows := follows_playAll release c more
    have hgone : d.left = true := follows.left hleft
    refine ⟨hgone, ?_, ?_⟩
    . intro event
      simp [submit, hgone]
    . show (c.playAll release more).run.loop.trail = _
      rw [follows.closed (parted hleft)]

end Custody

/-!
A run that is stopped while its action is under way, between one who waits in vain and one who is told that it was
stopped. Stopping it once more is refused.
-/

namespace Sample

def hooked : Context extension :=
  context.addStopHook ⟨"tidy", .custom ()⟩

def hookedRun : Run extension :=
  ⟨⟨⟨0⟩⟩, { loop with context := hooked }, .standard, .running, false⟩

def release : RunRelease extension Nat :=
  fun _ world => (⟨.zero, .completed⟩, world + 1)

def hookedDeeds : List (Deed extension Nat) :=
  [.submit entering, .go provide, .go provide, .wait, .look 0 true, .read 0, .stop, .wait, .go provide,
    .go provide, .join 0 0, .look 1 false, .read 1, .stop]

def hookedCustody : Custody extension Nat :=
  (Custody.begin hookedRun).playAll release hookedDeeds

end Sample

namespace Custody

theorem run_concludes_hooked :
    Run.start ⟨⟨0⟩⟩ Sample.machine Sample.hooked [] .standard = .ok Sample.hookedRun
    ∧ (∀ deed ∈ Sample.hookedDeeds, deed ≠ .crash)
    ∧ Answers Sample.release Sample.hookedCustody .stopped Sample.hookedCustody.run.loop.trail
    ∧ (∃ s, Sample.hookedCustody.stoppers = [.returned (.ok s), .returned (.error .notRunning)]
      ∧ Shut Sample.release Sample.hookedCustody s)
    ∧ Sample.hookedCustody.hookRuns.map (·.hook.name) = ["tidy"] := by
  have hstart : Run.start ⟨⟨0⟩⟩ Sample.machine Sample.hooked [] .standard = .ok Sample.hookedRun := by rfl
  have hdeeds : ∀ deed ∈ Sample.hookedDeeds, deed ≠ .crash := by
    simp [Sample.hookedDeeds]
  have hstoppers : ∃ s, Sample.hookedCustody.stoppers = [.returned (.ok s), .returned (.error .notRunning)] := by
    exact ⟨_, rfl⟩
  have hfinished : Sample.hookedCustody.run.isFinished = false := by rfl
  rcases hstoppers with ⟨s, hstoppers⟩
  have hfirst : Sample.hookedCustody.stoppers[0]? = some (.returned (.ok s)) := by
    rw [hstoppers]
    rfl
  rcases run_concludes hstart Sample.release hdeeds with ⟨_, hanswers, _, _, hshut, _⟩
  refine ⟨hstart, hdeeds, hanswers s hfirst hfinished, ⟨s, hstoppers, ?_⟩, by rfl⟩
  rcases hshut _ hfirst with ⟨other, hother, shut⟩
  injection hother with hother
  subst hother
  exact shut

end Custody

end Turnstile
