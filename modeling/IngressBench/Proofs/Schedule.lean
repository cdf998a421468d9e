import IngressBench.Proofs.Run.Sample
import IngressBench.Proofs.Watch
import Mathlib.Data.List.Chain

/-!
The schedule of a wait, step by step. On an exact clock a wait is a row of looks and rests
(`Schedule`). It begins with a look, or with a rest of one interval. A look that did not see enough
and ended before the deadline is followed by a rest, as long as the interval or up to the deadline;
a rest that was not cut short is followed by a look; any other step is the last one, and tells what
the wait ends with.

So a wait for a condition is punctual (`waitUntil_punctual`): the first check that tells something
else than that the condition does not hold settles it, it is late only after a check at the deadline
or later, and no pause of it, but for the one that it may begin with, reaches beyond the deadline.
-/
namespace IngressBench

variable {τ σ β : Type}

/-! ### Steps -/

/-- A step of a wait, between the histories before and after it. -/
inductive Stride (τ σ : Type) where
  /-- A look, and whether it saw enough. -/
  | look (before : History τ σ) (seen : Except Failure Bool) (after : History τ σ)
  /-- A rest of the given length, and whether it was cut short. -/
  | rest (before : History τ σ) (length : τ) (cut : Bool) (after : History τ σ)

namespace Stride

/-- The history after the step. -/
def after : Stride τ σ → History τ σ
  | look _ _ after | rest _ _ _ after => after

def isLook : Stride τ σ → Bool
  | look .. => true
  | rest .. => false

variable [TimeScale τ]

/-- The step is one of a wait in a world. -/
def MadeIn (w : World τ σ) (pace : Pace τ) (condition : Action τ Bool) : Stride τ σ → Prop
  | look before seen after => w.run condition.run before = (seen, after)
  | rest before length cut after => w.run (pace.rest length).run before = (.ok cut, after)

/-- How a wait begins, at once or after one interval. -/
inductive Begins (pace : Pace τ) (begun : History τ σ) : Bool → Stride τ σ → Prop
  | look {seen : Except Failure Bool} {after : History τ σ} :
      Begins pace begun true (.look begun seen after)
  | rest {cut : Bool} {after : History τ σ} :
      Begins pace begun false (.rest begun pace.interval cut after)

/-- How a wait goes on after a step that is not its last one. -/
inductive GoesOn [LinearOrder τ] [Sub τ] (pace : Pace τ) (deadline : τ) :
    Stride τ σ → Stride τ σ → Prop
  | rest {before between after : History τ σ} {cut : Bool} (early : between.now < deadline) :
      GoesOn pace deadline (.look before (.ok false) between)
        (.rest between (min pace.interval (deadline - between.now)) cut after)
  | look {before between after : History τ σ} {length : τ} {seen : Except Failure Bool} :
      GoesOn pace deadline (.rest before length false between) (.look between seen after)

/-- What a wait ends with after its last step: it has seen enough, or has a fault of its own, or
hands on the failure of a look. -/
inductive Concludes [LE τ] (timeout deadline : τ) :
    Stride τ σ → Except Failure (Option WaitFault) → Prop
  | enough {before after : History τ σ} :
      Concludes timeout deadline (.look before (.ok true) after) (.ok none)
  | failed {before after : History τ σ} {x : Failure} :
      Concludes timeout deadline (.look before (.error x) after) (.error x)
  | late {before after : History τ σ} (late : deadline ≤ after.now) :
      Concludes timeout deadline (.look before (.ok false) after) (.ok (some (timedOut timeout)))
  | cancelled {before after : History τ σ} {length : τ} :
      Concludes timeout deadline (.rest before length true after) (.ok (some .cancelled))

end Stride

/-- The steps of a wait from one of them on, up to its end. -/
structure Strides [TimeScale τ] [LinearOrder τ] [Sub τ] (w : World τ σ) (pace : Pace τ)
    (timeout deadline : τ) (condition : Action τ Bool) (steps : List (Stride τ σ))
    (e : Except Failure (Option WaitFault)) (ended : History τ σ) : Prop where
  made : ∀ s ∈ steps, s.MadeIn w pace condition
  goesOn : steps.IsChain (Stride.GoesOn pace deadline)
  concludes : ∃ last ∈ steps.getLast?, last.Concludes timeout deadline e ∧ last.after = ended

/-- All steps of a wait. -/
structure Schedule [TimeScale τ] [LinearOrder τ] [Sub τ] (w : World τ σ) (pace : Pace τ)
    (timeout deadline : τ) (condition : Action τ Bool) (immediate : Bool) (begun : History τ σ)
    (steps : List (Stride τ σ)) (e : Except Failure (Option WaitFault)) (ended : History τ σ) :
    Prop extends Strides w pace timeout deadline condition steps e ended where
  begins : ∃ first ∈ steps.head?, first.Begins pace begun immediate

/-- What a wait for a condition ends with. -/
def settled : Except Failure (Option WaitFault) → Except Failure Unit
  | .ok none => .ok ()
  | .ok (some fault) => .error (.wait fault)
  | .error x => .error x

variable [TimeScale τ] [Field τ] [LinearOrder τ] {w : World τ σ} {pace : Pace τ}
  {timeout deadline : τ} {condition : Action τ Bool} {immediate : Bool} {begun ended : History τ σ}
  {steps past later : List (Stride τ σ)} {s : Stride τ σ} {e : Except Failure (Option WaitFault)}

namespace Strides

/-- A step is the last one, or the wait goes on after it. -/
theorem later_cases (hs : Strides w pace timeout deadline condition steps e ended)
    (hsplit : steps = past ++ s :: later) :
    (later = [] ∧ s.Concludes timeout deadline e ∧ s.after = ended) ∨
      ∃ t more, later = t :: more ∧ s.GoesOn pace deadline t := by
  subst hsplit
  cases later with
  | nil =>
    obtain ⟨last, hlast, hconcludes⟩ := hs.concludes
    obtain rfl : s = last := by simpa using hlast
    exact .inl ⟨rfl, hconcludes⟩
  | cons t more =>
    have hchain := List.isChain_append_cons_cons.mp hs.goesOn
    exact .inr ⟨t, more, rfl, hchain.2.1⟩

/-- A last step. -/
theorem last (hmade : s.MadeIn w pace condition) (hconcludes : s.Concludes timeout deadline e) :
    Strides w pace timeout deadline condition [s] e s.after :=
  ⟨by simpa using hmade, .singleton s, by simpa using hconcludes⟩

/-- A step before others. -/
theorem cons (hmade : s.MadeIn w pace condition)
    (hnext : ∀ t ∈ steps.head?, s.GoesOn pace deadline t)
    (hs : Strides w pace timeout deadline condition steps e ended) :
    Strides w pace timeout deadline condition (s :: steps) e ended := by
  obtain ⟨last, hlast, hconcludes⟩ := hs.concludes
  refine ⟨List.forall_mem_cons.mpr ⟨hmade, hs.made⟩, ?_, last, ?_, hconcludes⟩
  · exact List.isChain_cons.mpr ⟨hnext, hs.goesOn⟩
  · exact List.mem_getLast?_cons hlast

/-- The steps after the first one. -/
theorem tail {t : Stride τ σ}
    (hs : Strides w pace timeout deadline condition (s :: t :: later) e ended) :
    Strides w pace timeout deadline condition (t :: later) e ended where
  made := (List.forall_mem_cons.mp hs.made).2
  goesOn := (List.isChain_cons_cons.mp hs.goesOn).2
  concludes := by simpa using hs.concludes

end Strides

namespace Schedule

/-- A step is the first one, or the wait came to it from another one. -/
theorem past_cases (hs : Schedule w pace timeout deadline condition immediate begun steps e ended)
    (hsplit : steps = past ++ s :: later) :
    (past = [] ∧ s.Begins pace begun immediate) ∨
      ∃ more t, past = more ++ [t] ∧ t.GoesOn pace deadline s := by
  subst hsplit
  rcases past.eq_nil_or_concat with rfl | ⟨more, t, rfl⟩
  · obtain ⟨first, hfirst, hbegins⟩ := hs.begins
    obtain rfl : s = first := by simpa using hfirst
    exact .inl ⟨rfl, hbegins⟩
  · have hchain := hs.goesOn
    simp only [List.concat_eq_append, List.append_assoc, List.singleton_append] at hchain ⊢
    exact .inr ⟨more, t, rfl, (List.isChain_append_cons_cons.mp hchain).2.1⟩

/-- A whole rest before a wait that looks at once. -/
theorem rested {before h : History τ σ} {length : τ}
    (hrest : w.run (pace.rest length).run before = (.ok false, h))
    (hs : Schedule w pace timeout deadline condition true h steps e ended) :
    Strides w pace timeout deadline condition (.rest before length false h :: steps) e ended := by
  refine hs.toStrides.cons (s := .rest ..) hrest fun t ht => ?_
  obtain ⟨first, hfirst, hbegins⟩ := hs.begins
  obtain rfl : t = first := Option.mem_unique ht hfirst
  cases hbegins
  exact .look

/-- A wait that looks at once ends with its first look; or that look was in vain and early, and
after a rest the wait is cancelled, or goes on as one that looks at once. -/
theorem look_cases (hs : Schedule w pace timeout deadline condition true begun steps e ended) :
    ∃ seen h later, steps = .look begun seen h :: later ∧
      ((later = [] ∧ (Stride.look begun seen h).Concludes timeout deadline e ∧ h = ended) ∨
        seen = .ok false ∧ h.now < deadline ∧ ∃ cut h₁ more,
          later = .rest h (min pace.interval (deadline - h.now)) cut h₁ :: more ∧
          w.run (pace.rest (min pace.interval (deadline - h.now))).run h = (.ok cut, h₁) ∧
          (cut = false → Schedule w pace timeout deadline condition true h₁ more e ended)) := by
  obtain ⟨first, hfirst, hbegins⟩ := hs.begins
  obtain ⟨later, rfl⟩ := List.head?_eq_some_iff.mp hfirst
  cases hbegins with
  | @look seen h =>
    refine ⟨seen, h, later, rfl, ?_⟩
    rcases hs.later_cases (List.nil_append _).symm with hlast | ⟨t, more, rfl, hgoes⟩
    · exact .inl hlast
    cases hgoes with
    | @rest _ _ h₁ cut hearly =>
      refine .inr ⟨rfl, hearly, cut, h₁, more, rfl, hs.made (.rest ..) (by simp), ?_⟩
      rintro rfl
      rcases hs.tail.later_cases (List.nil_append _).symm with
        ⟨-, hconcludes, -⟩ | ⟨u, rest, rfl, hgoes⟩
      · cases hconcludes
      · cases hgoes
        exact ⟨hs.tail.tail, _, rfl, .look⟩

end Schedule

variable [IsStrictOrderedRing τ] [FloorSemiring τ] [TimeScale.Exact τ]

/-- A wait goes on step by step as its schedule tells. -/
theorem Watches.schedule {look : Action τ (β × Bool)} {h h' : History τ σ} {looks : Nat}
    {rests : List τ} {r : Except Failure (β × Option WaitFault)}
    (hwatches : Watches w pace timeout deadline look h looks rests r h') :
    ∃ steps,
      Schedule w pace timeout deadline (Prod.snd <$> look) true h steps (r.map Prod.snd) h' := by
  have hsees : ∀ {h₁ h₂ : History τ σ} {seen : Except Failure (β × Bool)},
      w.run look.run h₁ = (seen, h₂) → w.run (Prod.snd <$> look).run h₁ = (seen.map Prod.snd, h₂) :=
    fun hlook => by rw [World.run_map, hlook]
  induction hwatches with
  | failed hlook => exact ⟨_, .last (s := .look _ _ _) (hsees hlook) .failed, by simpa using .look⟩
  | enough hlook => exact ⟨_, .last (s := .look _ _ _) (hsees hlook) .enough, by simpa using .look⟩
  | late hlook hlate =>
    exact ⟨_, .last (s := .look _ _ _) (hsees hlook) (.late (by simpa using hlate)),
      by simpa using .look⟩
  | @cancelled h h₁ h' seen rest hlook hearly hlength hrest =>
    have hnow : h₁.now < deadline := sub_pos.mp (left_of_early hearly)
    obtain rfl : rest = min pace.interval (deadline - h₁.now) := by simpa using hlength
    have hstop : Strides w pace timeout deadline (Prod.snd <$> look)
      [.rest h₁ (min pace.interval (deadline - h₁.now)) true h'] (.ok (some .cancelled)) h' :=
        .last (s := .rest ..) hrest .cancelled
    exact ⟨_, hstop.cons (s := .look ..) (hsees hlook) (by simpa using .rest hnow),
      by simpa using .look⟩
  | @again h h₁ h₂ h' seen rest _ _ _ hlook hearly hlength hrest _ ih =>
    have hnow : h₁.now < deadline := sub_pos.mp (left_of_early hearly)
    obtain rfl : rest = min pace.interval (deadline - h₁.now) := by simpa using hlength
    obtain ⟨steps, hsteps⟩ := ih
    exact ⟨_, (hsteps.rested hrest).cons (s := .look ..) (hsees hlook) (by simpa using .rest hnow),
      by simpa using .look⟩

omit [TimeScale τ] [Field τ] [LinearOrder τ] [IsStrictOrderedRing τ] [FloorSemiring τ]
  [TimeScale.Exact τ] in
/-- A look for a condition sees enough when the condition holds. -/
theorem enough_condition (condition : Action τ Bool) :
    Prod.snd <$> (do return ((), ← condition) : Action τ (Unit × Bool)) = condition := by
  simp

section
variable (hw : w.Forward) (hcondition : condition.Only Event.Brisk) (hinterval : 0 < pace.interval)
include hw hcondition hinterval

/-- The looks of a wait for a condition, and what it ends with. -/
theorem run_waitLoop (timeout : τ) {start : τ} {h : History τ σ} (hstart : start ≤ h.now) :
    ∃ steps e ended,
      Schedule w pace timeout (start + timeout) condition true h steps e ended ∧
      w.run (do
        match ← watchLoop pace timeout (start + timeout) (do return ((), ← condition))
          (TimeScale.rounds pace.interval timeout) with
        | ((), none) => return
        | ((), some fault) => throw (.wait fault) : Action τ Unit).run h = (settled e, ended) := by
  have hlook : (do return ((), ← condition) : Action τ (Unit × Bool)).Only Event.Brisk :=
    Action.only_bind hcondition fun _ => Action.only_pure _
  -- The budget is reckoned from the start; a wait that rested first has less time left than that.
  have hbudget : ⌈(start + timeout - h.now) / pace.interval⌉₊ ≤
      TimeScale.rounds pace.interval timeout := by
    refine le_trans (Nat.ceil_le_ceil ?_) (TimeScale.Exact.rounds_le _ _ hinterval)
    gcongr
    linarith
  obtain ⟨looks, rests, hwatches, -⟩ :=
    watchLoop_ends hw hlook hinterval timeout (start + timeout) _ h hbudget
  obtain ⟨steps, hsteps⟩ := hwatches.schedule
  rw [enough_condition] at hsteps
  refine ⟨steps, _, _, hsteps, ?_⟩
  rcases hrun : w.run (watchLoop pace timeout (start + timeout) (do return ((), ← condition))
    (TimeScale.rounds pace.interval timeout)).run h with ⟨⟨x⟩ | ⟨⟨⟩, _ | fault⟩, h'⟩
  · rw [World.run_step_error hrun]
    rfl
  · rw [World.run_step_ok hrun]
    rfl
  · rw [World.run_step_ok hrun]
    rfl

/-- **A wait for a condition goes on as its schedule tells**, up to its end. -/
theorem waitUntil_schedule (timeout : τ) (immediate : Bool) (begun : History τ σ) :
    ∃ steps e ended,
      Schedule w pace timeout (begun.now + timeout) condition immediate begun steps e ended ∧
      w.run (waitUntil pace timeout condition immediate).run begun = (settled e, ended) := by
  have hclock : w.run Action.clock.run begun = (.ok begun.now, begun) := rfl
  unfold waitUntil
  rw [World.run_step_ok hclock, TimeScale.Exact.add_eq]
  cases immediate with
  | true => exact run_waitLoop hw hcondition hinterval timeout le_rfl
  | false =>
    obtain ⟨cut, h, hrest, htime⟩ := pace.run_rest (w := w) pace.interval begun
    simp only [Bool.not_false, if_true]
    rw [World.run_step_ok hrest]
    cases cut with
    | true =>
      refine ⟨[.rest begun pace.interval true h], .ok (some .cancelled), h, ?_, rfl⟩
      exact ⟨.last (s := .rest ..) hrest .cancelled, by simpa using .rest⟩
    | false =>
      have hnow : begun.now ≤ h.now := by
        rw [htime rfl, TimeScale.Exact.add_eq]
        linarith
      obtain ⟨steps, e, ended, hs, hrun⟩ := run_waitLoop hw hcondition hinterval timeout hnow
      exact ⟨_, e, ended, ⟨hs.rested hrest, by simpa using .rest⟩, hrun⟩

end

/-! ### Rests -/

/-- A stop comes before the end of the time within which it is looked for. -/
theorem World.stopWithin_now_le (w : World τ σ) {time : τ} (htime : 0 ≤ time) (h : History τ σ) :
    (w.stopWithin time h).now ≤ h.now + time := by
  unfold World.stopWithin
  split
  · split
    · rename_i at_ _ hstop
      have hsoon : at_ ≤ h.now + time := by simp_all
      show TimeScale.greatest h.now at_ ≤ h.now + time
      rw [TimeScale.greatest_eq]
      exact max_le (by linarith) hsoon
    · linarith
  · linarith

omit [Field τ] [LinearOrder τ] [IsStrictOrderedRing τ] [FloorSemiring τ] [TimeScale.Exact τ] in
/-- A rest that was cut short was one of a stoppable wait, and the run is stopped. -/
theorem Pace.rest_cut {length : τ} {h h' : History τ σ}
    (hrest : w.run (pace.rest length).run h = (.ok true, h')) :
    pace.stoppable = true ∧ h'.stopped = true ∧ h'.now = (w.stopWithin length h).now := by
  unfold Pace.rest at hrest
  cases hpace : pace.stoppable with
  | false =>
    rw [hpace] at hrest
    cases hrest
  | true =>
    rw [hpace, if_pos rfl, World.run_pause] at hrest
    cases hs : (w.stopWithin length h).stopped with
    | false =>
      rw [w.reply_pause_whole hs] at hrest
      cases hrest
    | true =>
      rw [w.reply_pause_cut hs] at hrest
      cases hrest
      exact ⟨rfl, hs, rfl⟩

/-- A rest takes no longer than it was begun for. -/
theorem Pace.rest_now_le {length : τ} {cut : Bool} {h h' : History τ σ} (hlength : 0 ≤ length)
    (hrest : w.run (pace.rest length).run h = (.ok cut, h')) : h'.now ≤ h.now + length := by
  cases cut with
  | false => exact (now_of_rest hrest).le
  | true =>
    rw [(Pace.rest_cut hrest).2.2]
    exact w.stopWithin_now_le hlength h

namespace Schedule

omit [IsStrictOrderedRing τ] [FloorSemiring τ] [TimeScale.Exact τ] in
/-- A look that tells something else than that there's not enough is the last step. -/
theorem decided (hs : Schedule w pace timeout deadline condition immediate begun steps e ended)
    {before after : History τ σ} {seen : Except Failure Bool}
    (hsplit : steps = past ++ .look before seen after :: later) (hseen : seen ≠ .ok false) :
    later = [] ∧ settled e = seen.map fun _ => () := by
  rcases hs.later_cases hsplit with ⟨rfl, hconcludes, -⟩ | ⟨t, more, -, hgoes⟩
  · cases hconcludes with
    | late => exact absurd rfl hseen
    | enough | failed => exact ⟨rfl, rfl⟩
  · cases hgoes
    exact absurd rfl hseen

/-- A rest after a look begins before the deadline, and is over at the deadline. -/
theorem inTime (hinterval : 0 < pace.interval)
    (hs : Schedule w pace timeout deadline condition immediate begun steps e ended)
    {before after : History τ σ} {length : τ} {cut : Bool}
    (hsplit : steps = past ++ .rest before length cut after :: later)
    (hlater : immediate = false → past ≠ []) :
    before.now < deadline ∧ before.now + length ≤ deadline ∧ after.now ≤ deadline := by
  rcases hs.past_cases hsplit with ⟨rfl, hbegins⟩ | ⟨more, t, -, hgoes⟩
  · cases hbegins
    exact absurd rfl (hlater rfl)
  · have hmade : w.run (pace.rest length).run before = (.ok cut, after) :=
      hs.made (.rest before length cut after) (by simp [hsplit])
    cases hgoes with
    | rest hearly =>
      have hleft : 0 < deadline - before.now := sub_pos.mpr hearly
      have hshort : min pace.interval (deadline - before.now) ≤ deadline - before.now :=
        min_le_right _ _
      have hend := Pace.rest_now_le (lt_min hinterval hleft).le hmade
      exact ⟨hearly, by linarith, by linarith⟩

/-- **Without a stop, a wait whose looks are in vain and take no time looks once more than intervals
fit into it**, and ends at its deadline. -/
theorem looks_exactly (hinterval : 0 < pace.interval)
    (hs : Schedule w pace timeout deadline condition true begun steps e ended)
    (hbegun : begun.now ≤ deadline)
    (hvain : ∀ before seen after, .look before seen after ∈ steps →
      seen = .ok false ∧ after.now = before.now)
    (hwhole : ∀ before length cut after, .rest before length cut after ∈ steps → cut = false) :
    steps.countP Stride.isLook = ⌈(deadline - begun.now) / pace.interval⌉₊ + 1 ∧
      e = .ok (some (timedOut timeout)) ∧ ended.now = deadline := by
  -- A look in vain and a whole rest leave a wait that looks at once again, and has two steps less.
  induction hcount : steps.length using Nat.strong_induction_on generalizing steps begun with
  | _ count ih =>
    subst hcount
    obtain ⟨seen, h, later, rfl, hcases⟩ := hs.look_cases
    obtain ⟨rfl, hnow⟩ := hvain begun seen h (by simp)
    rcases hcases with ⟨rfl, hconcludes, rfl⟩ | ⟨-, hearly, cut, h₁, more, rfl, hrest, hmore⟩
    · cases hconcludes with
      | late hlate =>
        have hat : begun.now = deadline := le_antisymm hbegun (hnow ▸ hlate)
        simp [hat, Stride.isLook, hnow]
    · obtain rfl : cut = false := hwhole h _ cut h₁ (List.mem_cons_of_mem _ List.mem_cons_self)
      have hleft : 0 < deadline - h.now := sub_pos.mpr hearly
      have htime : h₁.now = h.now + min pace.interval (deadline - h.now) := now_of_rest hrest
      have hin : h₁.now ≤ deadline := by
        have hshort : min pace.interval (deadline - h.now) ≤ deadline - h.now := min_le_right _ _
        linarith
      have hshorter : more.length < more.length + 1 + 1 := by omega
      obtain ⟨hlooks, he, hended⟩ := ih more.length hshorter (hmore rfl) hin
        (fun b seen a hmem => hvain b seen a (by simp [hmem]))
        (fun b length cut a hmem => hwhole b length cut a (by simp [hmem])) rfl
      refine ⟨?_, he, hended⟩
      rw [List.countP_cons_of_pos rfl, List.countP_cons_of_neg Bool.false_ne_true, hlooks, htime,
        sub_add_eq_sub_sub, rest_shortens hinterval hleft, hnow]

end Schedule

/-! ### Punctual waits -/

/-- What is punctual about a wait for a condition that makes the given steps. -/
structure Punctual (w : World τ σ) (pace : Pace τ) (timeout : τ) (condition : Action τ Bool)
    (immediate : Bool) (begun : History τ σ) (steps : List (Stride τ σ))
    (e : Except Failure (Option WaitFault)) (r : Except Failure Unit) (ended : History τ σ) :
    Prop where
  /-- The steps follow a schedule with its deadline a timeout after the beginning. -/
  schedule : Schedule w pace timeout (begun.now + timeout) condition immediate begun steps e ended
  outcome : r = settled e
  /-- The first check that is not in vain is the last step, and the wait ends as it does. -/
  decided : ∀ past before seen after later, steps = past ++ .look before seen after :: later →
    seen ≠ .ok false → later = [] ∧ r = seen.map fun _ => ()
  /-- The wait is late only directly after a check in vain that ended at the deadline or later. -/
  late : ∀ fault, e = .ok (some fault) → fault.isCancelled = false → fault = timedOut timeout ∧
    begun.now + timeout ≤ ended.now ∧
      ∃ past before, steps = past ++ [.look before (.ok false) ended]
  /-- It is cancelled only from a rest that was cut short by the stop of the run. -/
  cancelled : ∀ fault, e = .ok (some fault) → fault.isCancelled = true → fault = .cancelled ∧
    ended.stopped = true ∧ ∃ past before length, steps = past ++ [.rest before length true ended]
  /-- A wait that does not check at once begins with a rest of one interval. -/
  opening : immediate = false → ∃ cut after later,
    steps = .rest begun pace.interval cut after :: later
  /-- Every other rest begins before the deadline, and does not reach beyond it. -/
  inTime : ∀ past before length cut after later,
    steps = past ++ .rest before length cut after :: later → (immediate = false → past ≠ []) →
      before.now < begun.now + timeout ∧
      before.now + length ≤ begun.now + timeout ∧ after.now ≤ begun.now + timeout
  /-- When all checks are in vain and take no time, and no rest is cut short, a wait that checks at
  once checks once more than intervals fit into it, and is late at its deadline. -/
  exactly : immediate = true →
    (∀ before seen after, .look before seen after ∈ steps →
      seen = .ok false ∧ after.now = before.now) →
    (∀ before length cut after, .rest before length cut after ∈ steps → cut = false) →
      steps.countP Stride.isLook = ⌈timeout / pace.interval⌉₊ + 1 ∧
        e = .ok (some (timedOut timeout)) ∧ ended.now = begun.now + timeout

/-- **A wait for a condition is punctual**, whatever its checks come to and however long they
take. -/
theorem waitUntil_punctual (hw : w.Forward) (hcondition : condition.Only Event.Brisk)
    (pace : Pace τ) (hinterval : 0 < pace.interval) (timeout : τ) (htimeout : 0 ≤ timeout)
    (immediate : Bool) (begun : History τ σ) :
    let run := w.run (waitUntil pace timeout condition immediate).run begun
    ∃ steps e, Punctual w pace timeout condition immediate begun steps e run.1 run.2 := by
  intro run
  obtain ⟨steps, e, ended, hs, hrun⟩ :=
    waitUntil_schedule hw hcondition hinterval timeout immediate begun
  have hended : run = (settled e, ended) := hrun
  rw [hended]
  refine ⟨steps, e, hs, rfl,
    fun past before seen after later hsplit hseen => hs.decided hsplit hseen, ?late, ?cancelled,
    ?opening, fun past before length cut after later hsplit hlater =>
      hs.inTime hinterval hsplit hlater, ?exactly⟩
  case late =>
    rintro fault rfl hfault
    obtain ⟨last, hlast, hconcludes, rfl⟩ := hs.concludes
    obtain ⟨past, rfl⟩ := List.getLast?_eq_some_iff.mp hlast
    cases hconcludes with
    | late hlate => exact ⟨rfl, hlate, past, _, rfl⟩
    | cancelled => cases hfault
  case cancelled =>
    rintro fault rfl hfault
    obtain ⟨last, hlast, hconcludes, rfl⟩ := hs.concludes
    obtain ⟨past, rfl⟩ := List.getLast?_eq_some_iff.mp hlast
    cases hconcludes with
    | late => cases hfault
    | @cancelled before after length =>
      have hrest : w.run (pace.rest length).run before = (.ok true, after) :=
        hs.made (.rest before length true after) (by simp)
      exact ⟨rfl, (Pace.rest_cut hrest).2.1, past, before, length, rfl⟩
  case opening =>
    rintro rfl
    obtain ⟨first, hfirst, hbegins⟩ := hs.begins
    obtain ⟨later, rfl⟩ := List.head?_eq_some_iff.mp hfirst
    cases hbegins
    exact ⟨_, _, later, rfl⟩
  case exactly =>
    rintro rfl hvain hwhole
    have hexactly := hs.looks_exactly hinterval (by linarith) hvain hwhole
    rwa [add_sub_cancel_left] at hexactly

namespace Sample

/-- Surroundings in which a condition holds at its third check, and answers take a quarter of a unit
of time. -/
def third : World ℚ Nat where
  answer q s := (match q with
    | .check => .ok (decide (s = 2))
    | q => reply (Ideal.answer {}) q, 1 / 4, s + 1)

end Sample

/-- A condition that holds when it is checked at the deadline is not found too late. -/
theorem waitUntil_punctual_third :
    let condition : Action ℚ Bool := Outside.answered .check id
    let begun : History ℚ Nat := { now := 0, state := 0 }
    let run := Sample.third.run (waitUntil ⟨1, true⟩ 3 condition false).run begun
    Sample.third.Forward ∧ condition.Only Event.Brisk ∧
      (∃ steps e, Punctual Sample.third ⟨1, true⟩ 3 condition false begun steps e run.1 run.2) ∧
      run.1 = .ok () ∧ run.2.now = 3 + 1 / 4 := by
  intro condition begun run
  have hforward : Sample.third.Forward := fun _ _ => by norm_num [Sample.third]
  have hcondition : condition.Only Event.Brisk := Outside.only_answered fun _ _ => trivial
  exact ⟨hforward, hcondition,
    waitUntil_punctual hforward hcondition ⟨1, true⟩ one_pos 3 (by norm_num) false begun,
    by decide +kernel, by decide +kernel⟩

end IngressBench
