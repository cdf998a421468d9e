import IngressBench.Proofs.Readiness.Readings
import IngressBench.Proofs.Schedule

/-!
A wait for a deployment tells that it is ready at the first reading that shows it, neither earlier
nor later. The readings are made on the schedule of the wait, one at each look; the first answer
that is a fault, or a deployment whose counts all agree, decides the wait (`awaitReady_decides`).
-/
namespace IngressBench

variable {τ σ : Type}

/-! ### Answers that decide -/

/-- The answer is a fault, or a deployment whose counts all agree. -/
def Decides : Except ApiFault Deployment → Prop
  | .ok d => d.Agrees
  | .error _ => True

/-- The first of some answers that decides a wait. -/
def FirstDeciding (answers : List (Except ApiFault Deployment)) (a : Except ApiFault Deployment) :
    Prop :=
  ∃ before after, answers = before ++ a :: after ∧ Decides a ∧ ∀ b ∈ before, ¬ Decides b

/-- An answer that was judged as not ready decides nothing. -/
theorem not_decides {a : Except ApiFault Deployment} {d : Deployment}
    (h : judged a = .ok (d, false)) : ¬ Decides a := by
  obtain ⟨rfl, hunready⟩ := judged_ok h
  intro hagrees
  have hready : d.isReady = .ok true := Deployment.isReady_iff.mpr hagrees
  cases hunready.symm.trans hready

/-- An answer that was judged as ready decides a wait. -/
theorem decides_ready {a : Except ApiFault Deployment} {d : Deployment}
    (h : judged a = .ok (d, true)) : a = .ok d ∧ Decides a := by
  obtain ⟨rfl, hready⟩ := judged_ok h
  exact ⟨rfl, Deployment.isReady_iff.mp hready⟩

/-- After answers that decide nothing only the last one can. -/
theorem firstDeciding_iff {vain : List (Except ApiFault Deployment)}
    {last a : Except ApiFault Deployment} (hvain : ∀ b ∈ vain, ¬ Decides b) :
    FirstDeciding (vain ++ [last]) a ↔ a = last ∧ Decides last := by
  constructor
  · intro hfirst
    obtain ⟨before, after, hsplit, ha, -⟩ := hfirst
    rcases append_eq_append_cons hsplit with ⟨between, rfl, -⟩ | ⟨between, rfl, hlast⟩
    · exact absurd ha (hvain a (by simp))
    · obtain rfl : a = last := by
        cases between with
        | nil => simpa using (List.cons.inj hlast).1.symm
        | cons b between => simp at hlast
      exact ⟨rfl, ha⟩
  · intro hlast
    obtain ⟨rfl, ha⟩ := hlast
    exact ⟨vain, [], rfl, ha, hvain⟩

/-- What the answers to the readings of a wait for a deployment decide: for the events of the wait,
and what it ends with. -/
structure DecidedBy (ns name : String) (evs : List (Event τ)) (r : Except Failure Unit) : Prop where
  /-- The wait ends well exactly when the first answer that decides it is a deployment. -/
  ready : r = .ok () ↔ ∃ d, FirstDeciding (readings evs) (.ok d)
  /-- Then that deployment is the last answer, and no pods are listed. -/
  last : ∀ d, FirstDeciding (readings evs) (.ok d) →
    (readings evs).getLast? = some (.ok d) ∧ ∀ e ∈ evs, ¬ e.Lists
  /-- When it is a fault, that is the failure of the wait, and nothing happens after the reading. -/
  failed : ∀ fault, FirstDeciding (readings evs) (.error fault) → r = .error fault.failure ∧
    (∃ before time,
      evs = before ++ [.asked (.api (.readDeployment ns name)) (.error fault) time]) ∧
    ∀ e ∈ evs, ¬ e.Lists

/-- A wait without an answer that decides it does not end well. -/
theorem DecidedBy.of_never {ns name : String} {evs : List (Event τ)} {x : Failure}
    (hnever : ∀ a, ¬ FirstDeciding (readings evs) a) : DecidedBy ns name evs (.error x) where
  ready := by simp [hnever]
  last d hd := absurd hd (hnever _)
  failed fault hfault := absurd hfault (hnever _)

/-- **The first answer that decides a wait for a deployment is its last one**, and tells how it
ends. -/
theorem awaitReady_decidedBy [TimeScale τ] {pace : Pace τ} {ns name : String} {timeout : τ}
    {evs : List (Event τ)} {r : Except Failure Unit}
    (h : (awaitReady pace ns name timeout).Leaves evs r) : DecidedBy ns name evs r := by
  obtain ⟨vain, last, hreadings, hvain, hends⟩ := awaitReady_reads h
  have hfirst : ∀ a, FirstDeciding (readings evs) a ↔ a = last ∧ Decides last := by
    rw [hreadings]
    exact fun a => firstDeciding_iff fun b hb => not_decides (hvain b hb).choose_spec
  rcases hends with ⟨d, hjudged, rfl, hunlisted⟩ |
    ⟨x, before, time, hjudged, rfl, hevs, hunlisted⟩ | ⟨d, x, hjudged, rfl⟩
  · obtain ⟨rfl, hdecides⟩ := decides_ready hjudged
    refine ⟨by simp [hfirst, hdecides], fun d' hd' => ?_, fun fault hfault => ?_⟩
    · obtain ⟨hd, -⟩ := (hfirst _).mp hd'
      rw [hreadings, hd, List.getLast?_concat]
      exact ⟨rfl, hunlisted⟩
    · cases ((hfirst _).mp hfault).1
  · cases last with
    | error fault =>
      refine ⟨by simp [hfirst], fun d' hd' => ?_, fun fault' hfault => ?_⟩
      · cases ((hfirst _).mp hd').1
      · cases ((hfirst _).mp hfault).1
        exact ⟨by cases hjudged; rfl, ⟨before, time, hevs⟩, hunlisted⟩
    | ok d =>
      refine .of_never fun a ha => ?_
      have hready : d.isReady = .ok true := Deployment.isReady_iff.mpr ((hfirst a).mp ha).2
      simp [judged, hready, Except.map] at hjudged
  · exact .of_never fun a ha => not_decides hjudged ((hfirst a).mp ha).2

/-! ### On the schedule -/

variable [TimeScale τ] [Field τ] [LinearOrder τ] [IsStrictOrderedRing τ] [FloorSemiring τ]
  [TimeScale.Exact τ] {w : World τ σ}

/-- The looks of a wait for a deployment are on schedule, and each is a reading; what comes after
the last step is a report. -/
structure Scheduled (w : World τ σ) (pace : Pace τ) (ns name : String) (timeout : τ)
    (begun h : History τ σ) (r : Except Failure Unit) (steps : List (Stride τ σ))
    (e : Except Failure (Option WaitFault)) (ended : History τ σ) : Prop where
  schedule : Schedule w pace timeout (begun.now + timeout) (Prod.snd <$> checkReady ns name) true
    begun steps e ended
  looks : ∀ before seen after, .look before seen after ∈ steps →
    ∃ (answer : Except ApiFault Deployment) (time : τ) (lines : List (Event τ)),
      after.events = lines ++ .asked (.api (.readDeployment ns name)) answer time :: before.events ∧
      readings lines = [] ∧ seen = (judged answer).map Prod.snd
  report : ∃ report, h.events = report ++ ended.events ∧ ∀ e ∈ report, e.Reports
  outcome : e = .ok none ↔ r = .ok ()

/-- **A wait for a deployment tells that it is ready at the first reading that shows it**, neither
earlier nor later. -/
theorem awaitReady_decides (hw : w.Forward) (pace : Pace τ) (hinterval : 0 < pace.interval)
    (ns name : String) (timeout : τ) (begun : History τ σ) :
    let run := w.run (awaitReady pace ns name timeout).run begun
    ∃ opening steps e ended evs,
      Scheduled w pace ns name timeout (World.logged .info opening begun) run.2 run.1 steps e
        ended ∧
      run.2.events = evs.reverse ++ begun.events ∧ DecidedBy ns name evs run.1 := by
  intro run
  obtain ⟨opening, report, hevents, hafter⟩ := run_awaitReady w pace ns name timeout begun
  obtain ⟨looks, rests, hwatches, -⟩ := watch_ends pace hw (brisk_checkReady ns name) hinterval
    timeout (World.logged .info opening begun)
  rw [TimeScale.Exact.add_eq] at hwatches
  obtain ⟨steps, hsteps⟩ := hwatches.schedule
  obtain ⟨evs, hleaves, hrun⟩ := w.run_leaves (awaitReady pace ns name timeout).run begun
  obtain ⟨hreports, houtcome⟩ := hafter.reports
  refine ⟨opening, steps, _, _, evs, ⟨hsteps, fun before seen after hlook => ?_,
    ⟨report, hevents, by simpa using hreports⟩, houtcome⟩, hrun, awaitReady_decidedBy hleaves⟩
  have hmade : w.run (Prod.snd <$> checkReady ns name).run before = (seen, after) :=
    hsteps.made (.look before seen after) hlook
  obtain ⟨answer, time, lines, hafter, hlines, hseen⟩ := run_checkReady w ns name before
  rw [World.run_map, hseen] at hmade
  obtain ⟨rfl, rfl⟩ := Prod.mk.inj hmade
  exact ⟨answer, time, lines, hafter, hlines, rfl⟩

namespace Sample

/-- Counts of a deployment that are not told at first, then too many, and then as wanted. -/
def counts : Nat → DeploymentStatus
  | 0 => {}
  | 1 => { replicas := some 3, ready := some 3, available := some 2 }
  | _ => { replicas := some 2, ready := some 2, available := some 2 }

/-- Surroundings in which a deployment has the replicas that are wanted at its third reading. -/
def converging : World ℚ Nat where
  answer q s := (match q with
    | .api (.readDeployment _ name) =>
      .ok { Ideal.deployment name 2 with status := some (counts s) }
    | q => reply (Ideal.answer {}) q, 1 / 4, s + 1)

end Sample

/-- A deployment that has too many replicas at first is not ready until all its counts agree. -/
theorem awaitReady_decides_converging :
    let begun : History ℚ Nat := { now := 0, state := 0 }
    let run := Sample.converging.run (awaitReady ⟨1, true⟩ "ingress-perf" "nginx" 10).run begun
    Sample.converging.Forward ∧
      (∃ opening steps e ended evs,
        Scheduled Sample.converging ⟨1, true⟩ "ingress-perf" "nginx" 10
          (World.logged .info opening begun) run.2 run.1 steps e ended ∧
        run.2.events = evs.reverse ++ begun.events ∧ DecidedBy "ingress-perf" "nginx" evs run.1) ∧
      run.1 = .ok () ∧ (readings run.2.events).length = 3 := by
  intro begun run
  have hforward : Sample.converging.Forward := fun _ _ => by norm_num [Sample.converging]
  exact ⟨hforward,
    awaitReady_decides hforward ⟨1, true⟩ one_pos "ingress-perf" "nginx" 10 begun,
    by decide +kernel, by decide +kernel⟩

end IngressBench
