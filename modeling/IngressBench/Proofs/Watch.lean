import IngressBench.Proofs.Program.Clock
import IngressBench.Proofs.Program.Pauses
import IngressBench.Proofs.Stop
import Mathlib.Tactic.Linarith

/-!
Waits come to an end by themselves. A wait is given a budget of looks so that it is a finite program;
what it is meant to do is the loop without a budget (`Watches`). On an exact clock that answers do not
turn back, a budget of as many looks as pauses fit into the time that is left is enough: the loop
without a budget ends as well, in the same way (`watchLoop_ends`), so that a larger budget makes no
difference (`watch_allowing`).

Every pause is as long as the interval or reaches the deadline. So the measure of the loop is how
many intervals the time that is left takes, and each pause lowers it (`rest_shortens`): there is one
look more than that at most (`Watches.looks_le`), and together the pauses do not last longer than the
wait may take (`Watches.rests_le`), whatever the looks cost.
-/
namespace IngressBench

variable {τ σ β : Type} [TimeScale τ]

/-- How a wait goes on from a history without a budget of looks: how often it looks, how long its
rests are, what it ends with, and the history then. -/
inductive Watches (w : World τ σ) (pace : Pace τ) (timeout deadline : τ)
    (look : Action τ (β × Bool)) : History τ σ → Nat → List τ →
      Except Failure (β × Option WaitFault) → History τ σ → Prop
  | failed {h h' : History τ σ} {x : Failure} (hlook : w.run look.run h = (.error x, h')) :
      Watches w pace timeout deadline look h 1 [] (.error x) h'
  | enough {h h' : History τ σ} {seen : β} (hlook : w.run look.run h = (.ok (seen, true), h')) :
      Watches w pace timeout deadline look h 1 [] (.ok (seen, none)) h'
  | late {h h' : History τ σ} {seen : β} (hlook : w.run look.run h = (.ok (seen, false), h'))
      (hlate : TimeScale.atMost (TimeScale.sub deadline h'.now) TimeScale.zero = true) :
      Watches w pace timeout deadline look h 1 [] (.ok (seen, some (timedOut timeout))) h'
  | cancelled {h h₁ h' : History τ σ} {seen : β} {rest : τ}
      (hlook : w.run look.run h = (.ok (seen, false), h₁))
      (hearly : TimeScale.atMost (TimeScale.sub deadline h₁.now) TimeScale.zero = false)
      (hlength : rest = TimeScale.least pace.interval (TimeScale.sub deadline h₁.now))
      (hrest : w.run (pace.rest rest).run h₁ = (.ok true, h')) :
      Watches w pace timeout deadline look h 1 [rest] (.ok (seen, some .cancelled)) h'
  | again {h h₁ h₂ h' : History τ σ} {seen : β} {rest : τ} {looks : Nat} {rests : List τ}
      {r : Except Failure (β × Option WaitFault)}
      (hlook : w.run look.run h = (.ok (seen, false), h₁))
      (hearly : TimeScale.atMost (TimeScale.sub deadline h₁.now) TimeScale.zero = false)
      (hlength : rest = TimeScale.least pace.interval (TimeScale.sub deadline h₁.now))
      (hrest : w.run (pace.rest rest).run h₁ = (.ok false, h₂))
      (later : Watches w pace timeout deadline look h₂ looks rests r h') :
      Watches w pace timeout deadline look h (looks + 1) (rest :: rests) r h'

/-- Times as they are, with other budgets of looks. -/
@[reducible] def TimeScale.allowing (more : τ → τ → Nat) : TimeScale τ :=
  { (inferInstance : TimeScale τ) with rounds := more }

/-- A wait ends as it would without a budget of looks, and it pauses as it would. -/
def EndsByItself (w : World τ σ) (pace : Pace τ) (timeout deadline : τ)
    (look : Action τ (β × Bool)) (h : History τ σ) (wait : Action τ (β × Option WaitFault)) : Prop :=
  ∃ looks rests, Watches w pace timeout deadline look h looks rests (w.run wait.run h).1
      (w.run wait.run h).2 ∧
    (pace.stoppable = true → w.pauses wait.run h = rests)

variable {w : World τ σ} {pace : Pace τ} {timeout deadline : τ} {look : Action τ (β × Bool)}
  {h h' : History τ σ} {looks : Nat} {rests : List τ} {r : Except Failure (β × Option WaitFault)}

/-- What a wait does depends on its own budget only. -/
theorem watchLoop_allowing (more : τ → τ → Nat) (pace : Pace τ) (timeout deadline : τ)
    (look : Action τ (β × Bool)) (budget : Nat) :
    @watchLoop τ β (TimeScale.allowing more) pace timeout deadline look budget =
      watchLoop pace timeout deadline look budget := by
  induction budget with
  | zero => rfl
  | succ budget ih =>
    unfold watchLoop
    rw [ih]
    rfl

/-- **A wait goes on in one way only.** -/
theorem Watches.unique {looks' : Nat} {rests' : List τ}
    {r' : Except Failure (β × Option WaitFault)} {h'' : History τ σ}
    (h₁ : Watches w pace timeout deadline look h looks rests r h')
    (h₂ : Watches w pace timeout deadline look h looks' rests' r' h'') :
    looks = looks' ∧ rests = rests' ∧ r = r' ∧ h' = h'' := by
  induction h₁ generalizing looks' rests' with
  | again hlook hearly hlength hrest _ ih =>
    cases h₂ with
    | again hlook' hearly' hlength' hrest' later =>
      cases hlook.symm.trans hlook'
      cases hlength.trans hlength'.symm
      cases hrest.symm.trans hrest'
      obtain ⟨rfl, rfl, hend⟩ := ih later
      exact ⟨rfl, rfl, hend⟩
    | _ => simp_all
  | _ => cases h₂ <;> simp_all

/-- A rest does not fail, and one that is not cut short takes the time that it was begun for. -/
theorem Pace.run_rest (pace : Pace τ) (time : τ) (h : History τ σ) :
    ∃ stopped h', w.run (pace.rest time).run h = (.ok stopped, h') ∧
      (stopped = false → h'.now = TimeScale.add h.now time) := by
  unfold Pace.rest
  cases pace.stoppable with
  | false => exact ⟨false, World.slept time h, rfl, fun _ => rfl⟩
  | true =>
    refine ⟨(w.reply (.pause time) h).1, (w.reply (.pause time) h).2, rfl, fun hwhole => ?_⟩
    cases hs : (w.stopWithin time h).stopped with
    | true =>
      rw [w.reply_pause_cut hs] at hwhole
      cases hwhole
    | false =>
      rw [w.reply_pause_whole hs]
      show TimeScale.add (w.stopWithin time h).now time = _
      rw [World.stopWithin_running hs]

theorem Pace.pauses_rest {pace : Pace τ} (hpace : pace.stoppable = true) (time : τ)
    (h : History τ σ) : w.pauses (pace.rest time).run h = [time] := by
  unfold Pace.rest
  rw [if_pos hpace]
  rfl

/-! ### Looks that do not pause -/

section
variable (hlook : look.Only Event.Still) {next : β × Bool → Action τ (β × Option WaitFault)}
  {h₁ : History τ σ}
include hlook

/-- A wait ends by itself if what follows its first look does. -/
theorem ends_look {v : β × Bool} (hseen : w.run look.run h = (.ok v, h₁))
    (hnext : ∃ looks rests, Watches w pace timeout deadline look h looks rests
        (w.run (next v).run h₁).1 (w.run (next v).run h₁).2 ∧
      (pace.stoppable = true → w.pauses (next v).run h₁ = rests)) :
    EndsByItself w pace timeout deadline look h (look >>= next) := by
  obtain ⟨looks, rests, hends, hrests⟩ := hnext
  refine ⟨looks, rests, ?_, fun hpace => ?_⟩
  · rw [World.run_step_ok hseen]
    exact hends
  · rw [World.pauses_step_ok hseen, w.pauses_of_still hlook, hrests hpace]
    rfl

/-- A look that fails is the last one. -/
theorem ends_failed {x : Failure} (hseen : w.run look.run h = (.error x, h₁)) :
    EndsByItself w pace timeout deadline look h (look >>= next) := by
  refine ⟨1, [], ?_, fun _ => ?_⟩
  · rw [World.run_step_error hseen]
    exact .failed hseen
  · rw [World.pauses_step_error hseen, w.pauses_of_still hlook]

/-- A look after which the wait is over. -/
theorem ends_last {v : β × Bool} {a : β × Option WaitFault}
    (hseen : w.run look.run h = (.ok v, h₁)) (hnext : next v = pure a)
    (hends : Watches w pace timeout deadline look h 1 [] (.ok a) h₁) :
    EndsByItself w pace timeout deadline look h (look >>= next) := by
  refine ends_look hlook hseen ⟨1, [], ?_, fun _ => ?_⟩
  · rw [hnext]
    exact hends
  · rw [hnext]
    rfl

end

/-! ### On an exact clock -/

section
variable [Field τ] [LinearOrder τ] [IsStrictOrderedRing τ] [FloorSemiring τ]

omit [TimeScale τ] in
/-- **A pause takes an interval from the time that is left**, or all of it. -/
theorem rest_shortens {interval left : τ} (hinterval : 0 < interval) (hleft : 0 < left) :
    ⌈(left - min interval left) / interval⌉₊ + 1 = ⌈left / interval⌉₊ := by
  rcases le_total interval left with hle | hle
  · have hmore : 0 ≤ left / interval - 1 := sub_nonneg.mpr ((one_le_div hinterval).mpr hle)
    rw [min_eq_left hle, sub_div, div_self hinterval.ne', ← Nat.ceil_add_one hmore,
      sub_add_cancel]
  · have hone : ⌈left / interval⌉₊ = 1 := by
      rw [Nat.ceil_eq_iff one_ne_zero]
      simpa using ⟨div_pos hleft hinterval, (div_le_one hinterval).mpr hle⟩
    rw [min_eq_right hle, sub_self, zero_div, Nat.ceil_zero, hone]

variable [TimeScale.Exact τ]

omit [IsStrictOrderedRing τ] in
/-- A rest that is not cut short moves the clock on by its length. -/
theorem now_of_rest {rest : τ} (hrest : w.run (pace.rest rest).run h = (.ok false, h')) :
    h'.now = h.now + rest := by
  obtain ⟨_, _, hrun, htime⟩ := pace.run_rest rest h
  cases hrest.symm.trans hrun
  rw [htime rfl, TimeScale.Exact.add_eq]

omit [IsStrictOrderedRing τ] in
/-- Before its deadline a wait has time left. -/
theorem left_of_early {deadline now : τ}
    (hearly : TimeScale.atMost (TimeScale.sub deadline now) TimeScale.zero = false) :
    0 < deadline - now := by
  rw [TimeScale.Exact.sub_eq, TimeScale.Exact.zero_eq] at hearly
  by_contra hlate
  rw [(TimeScale.Exact.atMost_iff _ _).mpr (not_lt.mp hlate)] at hearly
  cases hearly

variable (hw : w.Forward) (hlook : look.Only Event.Brisk)
include hw hlook

/-- A look leaves no more time than there was. -/
theorem left_of_look (deadline : τ) {r : Except Failure (β × Bool)}
    (h₁ : w.run look.run h = (r, h')) :
    deadline - h'.now ≤ deadline - h.now := by
  have hforward := World.run_forward hw hlook h
  rw [h₁] at hforward
  exact sub_le_sub_left hforward deadline

/-- **The pauses of a wait do not last longer than the time that is left.** -/
theorem Watches.rests_le (h₁ : Watches w pace timeout deadline look h looks rests r h') :
    rests.sum ≤ max 0 (deadline - h.now) := by
  induction h₁ with
  | failed _ => exact le_max_left _ _
  | enough _ => exact le_max_left _ _
  | late _ _ => exact le_max_left _ _
  | cancelled hseen _ hlength _ =>
    have hleft := left_of_look hw hlook deadline hseen
    rw [hlength, List.sum_singleton]
    simp only [TimeScale.least_eq, TimeScale.Exact.sub_eq]
    exact (min_le_right _ _).trans (hleft.trans (le_max_right _ _))
  | @again h h₁ h₂ _ _ rest _ rests _ hseen _ hlength hrest _ ih =>
    have hleft := left_of_look hw hlook deadline hseen
    have hnow := now_of_rest hrest
    simp only [TimeScale.least_eq, TimeScale.Exact.sub_eq] at hlength
    have hrest_le : rest ≤ deadline - h₁.now := hlength ▸ min_le_right _ _
    have hlater : max 0 (deadline - h₂.now) = deadline - h₂.now :=
      max_eq_right (by rw [hnow]; linarith)
    rw [List.sum_cons]
    refine le_trans ?_ (le_max_right _ _)
    calc rest + rests.sum ≤ rest + (deadline - h₂.now) := by rw [← hlater]; gcongr
      _ = deadline - h₁.now := by rw [hnow, sub_add_eq_sub_sub, add_sub_cancel]
      _ ≤ deadline - h.now := hleft

variable (hinterval : 0 < pace.interval)
include hinterval

/-- After a look and a whole rest fewer intervals are left. -/
theorem rounds_of_again {h₁ h₂ : History τ σ} {r : Except Failure (β × Bool)} {rest : τ}
    (hseen : w.run look.run h = (r, h₁))
    (hearly : TimeScale.atMost (TimeScale.sub deadline h₁.now) TimeScale.zero = false)
    (hlength : rest = TimeScale.least pace.interval (TimeScale.sub deadline h₁.now))
    (hrest : w.run (pace.rest rest).run h₁ = (.ok false, h₂)) :
    ⌈(deadline - h₂.now) / pace.interval⌉₊ + 1 ≤ ⌈(deadline - h.now) / pace.interval⌉₊ := by
  simp only [TimeScale.least_eq, TimeScale.Exact.sub_eq] at hlength
  have hleft := left_of_look hw hlook deadline hseen
  calc ⌈(deadline - h₂.now) / pace.interval⌉₊ + 1
      = ⌈(deadline - h₁.now - min pace.interval (deadline - h₁.now)) / pace.interval⌉₊ + 1 := by
        rw [now_of_rest hrest, hlength, sub_add_eq_sub_sub]
    _ = ⌈(deadline - h₁.now) / pace.interval⌉₊ := rest_shortens hinterval (left_of_early hearly)
    _ ≤ ⌈(deadline - h.now) / pace.interval⌉₊ :=
        Nat.ceil_le_ceil (div_le_div_of_nonneg_right hleft hinterval.le)

/-- **A wait looks once more than intervals are left**, at most. -/
theorem Watches.looks_le (h₁ : Watches w pace timeout deadline look h looks rests r h') :
    looks ≤ ⌈(deadline - h.now) / pace.interval⌉₊ + 1 := by
  induction h₁ with
  | failed _ => exact Nat.le_add_left _ _
  | enough _ => exact Nat.le_add_left _ _
  | late _ _ => exact Nat.le_add_left _ _
  | cancelled _ _ _ _ => exact Nat.le_add_left _ _
  | again hseen hearly hlength hrest _ ih =>
    have hfewer := rounds_of_again hw hlook hinterval hseen hearly hlength hrest
    omega

/-- **A budget of as many looks as intervals are left is enough**: the wait ends by itself, as it
would without a budget. -/
theorem watchLoop_ends (timeout deadline : τ) (budget : Nat) (h : History τ σ)
    (hbudget : ⌈(deadline - h.now) / pace.interval⌉₊ ≤ budget) :
    EndsByItself w pace timeout deadline look h (watchLoop pace timeout deadline look budget) := by
  have hstill : look.Only Event.Still := hlook.mono fun _ he => he.still
  induction budget generalizing h with
  | zero =>
    rcases hseen : w.run look.run h with ⟨⟨x⟩ | ⟨seen, enough⟩, h₁⟩
    · exact ends_failed hstill hseen
    cases enough with
    | true => exact ends_last hstill hseen rfl (.enough hseen)
    | false =>
      -- No interval is left, so that the deadline has passed.
      have hlate : deadline - h₁.now ≤ 0 := by
        have hnone : (deadline - h.now) / pace.interval ≤ 0 := Nat.ceil_eq_zero.mp (by omega)
        rw [div_le_iff₀ hinterval, zero_mul] at hnone
        exact (left_of_look hw hlook deadline hseen).trans hnone
      exact ends_last hstill hseen rfl (.late hseen (by simpa using hlate))
  | succ budget ih =>
    rcases hseen : w.run look.run h with ⟨⟨x⟩ | ⟨seen, enough⟩, h₁⟩
    · exact ends_failed hstill hseen
    cases enough with
    | true => exact ends_last hstill hseen rfl (.enough hseen)
    | false =>
      refine ends_look hstill hseen ?_
      have hclock : w.run Action.clock.run h₁ = (.ok h₁.now, h₁) := rfl
      simp only [Bool.false_eq_true, if_false]
      rw [World.run_step_ok hclock, World.pauses_step_ok hclock]
      cases hlate : TimeScale.atMost (TimeScale.sub deadline h₁.now) TimeScale.zero with
      | true => exact ⟨1, [], .late hseen hlate, fun _ => rfl⟩
      | false =>
        simp only [Bool.false_eq_true, if_false]
        obtain ⟨stopped, h₂, hrest, -⟩ := pace.run_rest (w := w)
          (TimeScale.least pace.interval (TimeScale.sub deadline h₁.now)) h₁
        rw [World.run_step_ok hrest, World.pauses_step_ok hrest]
        cases stopped with
        | true =>
          refine ⟨1, [_], .cancelled hseen hlate rfl hrest, fun hpace => ?_⟩
          rw [Pace.pauses_rest hpace]
          rfl
        | false =>
          have hfewer := rounds_of_again hw hlook hinterval hseen hlate rfl hrest
          obtain ⟨looks, rests, hends, hpauses⟩ := ih h₂ (by omega)
          refine ⟨looks + 1, _ :: rests, .again hseen hlate rfl hrest hends, fun hpace => ?_⟩
          rw [Pace.pauses_rest hpace]
          exact congrArg (_ :: ·) (hpauses hpace)

variable (pace)

/-- So a wait ends by itself, with its own budget or a larger one. -/
theorem watch_ends (timeout : τ) (h : History τ σ) :
    EndsByItself w pace timeout (TimeScale.add h.now timeout) look h (watch pace timeout look) := by
  refine watchLoop_ends hw hlook hinterval timeout _ _ h ?_
  rw [TimeScale.Exact.add_eq, add_sub_cancel_left]
  exact TimeScale.Exact.rounds_le _ _ hinterval

/-- **A larger budget of looks makes no difference.** -/
theorem watch_allowing {more : τ → τ → Nat}
    (hmore : ∀ interval timeout, TimeScale.rounds interval timeout ≤ more interval timeout)
    (timeout : τ) (h : History τ σ) :
    w.run (@watch τ β (TimeScale.allowing more) pace timeout look).run h =
      w.run (watch pace timeout look).run h := by
  obtain ⟨looks, rests, hends, -⟩ := watch_ends pace hw hlook hinterval timeout h
  have hbudget : ⌈(TimeScale.add h.now timeout - h.now) / pace.interval⌉₊ ≤
      more pace.interval timeout := by
    rw [TimeScale.Exact.add_eq, add_sub_cancel_left]
    exact (TimeScale.Exact.rounds_le _ _ hinterval).trans (hmore _ _)
  obtain ⟨looks', rests', hends', -⟩ := watchLoop_ends hw hlook hinterval timeout _ _ h hbudget
  obtain ⟨-, -, houtcome, hhistory⟩ := hends.unique hends'
  show w.run (@watchLoop τ β (TimeScale.allowing more) pace timeout _ look _).run h = _
  rw [watchLoop_allowing]
  exact (Prod.ext houtcome hhistory).symm

end
end IngressBench
