import IngressBench.Proofs.Program.Clock
import IngressBench.Proofs.Signals.Waiting
import IngressBench.Proofs.Stop

/-!
The readings of a wait for a deployment. Every look of such a wait reads the deployment once, and
sees what the answer is judged to be (`checkReady_reads`). So the readings of a wait are a row of
answers that were judged as not ready, and a last one that the wait concludes from
(`awaitReady_reads`).
-/
namespace IngressBench

variable {τ σ : Type}

/-! ### Answers -/

/-- The answer of an event that is a reading of a deployment. -/
def Event.answer? : Event τ → Option (Except ApiFault Deployment)
  | .asked (.api (.readDeployment ..)) reply _ => some reply
  | _ => none

/-- The answers to the readings of deployments in a row of events. -/
def readings (evs : List (Event τ)) : List (Except ApiFault Deployment) :=
  evs.filterMap Event.answer?

@[simp] theorem readings_append (evs more : List (Event τ)) :
    readings (evs ++ more) = readings evs ++ readings more :=
  List.filterMap_append

/-- What a look sees that is given an answer. -/
def judged : Except ApiFault Deployment → Except Failure (Deployment × Bool)
  | .ok d => d.isReady.map (d, ·)
  | .error fault => .error fault.failure

theorem judged_ok {a : Except ApiFault Deployment} {d : Deployment} {ready : Bool}
    (h : judged a = .ok (d, ready)) : a = .ok d ∧ d.isReady = .ok ready := by
  cases a with
  | error fault => cases h
  | ok d' =>
    cases hready : d'.isReady with
    | error x => simp [judged, hready, Except.map] at h
    | ok ready' =>
      obtain ⟨rfl, rfl⟩ : d' = d ∧ ready' = ready := by simpa [judged, hready, Except.map] using h
      exact ⟨rfl, hready⟩

/-- The event is a listing of pods. -/
def Event.Lists : Event τ → Prop
  | .asked (.api (.listPods ..)) _ _ => True
  | _ => False

theorem readings_eq_nil {evs : List (Event τ)} (h : ∀ e ∈ evs, e.answer? = none) :
    readings evs = [] :=
  List.filterMap_eq_nil_iff.mpr h

theorem Event.Reports.answer? {e : Event τ} (h : e.Reports) : e.answer? = none := by
  cases e with
  | asked q reply time =>
    cases q with
    | api call => cases call <;> first | rfl | exact h.elim
    | _ => rfl
  | _ => rfl

/-! ### Looks -/

/-- **A look reads the deployment once**, and sees what the answer is judged to be. -/
theorem checkReady_reads {ns name : String} {evs : List (Event τ)}
    {seen : Except Failure (Deployment × Bool)} (h : (checkReady ns name).Leaves evs seen) :
    ∃ (answer : Except ApiFault Deployment) (time : τ) (lines : List (Event τ)),
      evs = .asked (.api (.readDeployment ns name)) answer time :: lines ∧
      seen = judged answer ∧ (∀ e ∈ lines, ∃ text, e = .logged .debug text) ∧
      ∀ x, seen = .error x → lines = [] := by
  rcases checkReady_leaves h with ⟨fault, time, rfl, rfl⟩ | ⟨d, time, x, rfl, hx, rfl⟩ |
    ⟨d, time, ready, text, rfl, hready, rfl⟩
  · exact ⟨.error fault, time, [], rfl, rfl, by simp, by simp⟩
  · exact ⟨.ok d, time, [], rfl, by simp [judged, hx, Except.map], by simp, by simp⟩
  · exact ⟨.ok d, time, _, rfl, by simp [judged, hready, Except.map], by simp, by simp⟩

/-- The readings of a look. -/
theorem checkReady_readings {ns name : String} {evs : List (Event τ)}
    {seen : Except Failure (Deployment × Bool)} (h : (checkReady ns name).Leaves evs seen) :
    ∃ answer, readings evs = [answer] ∧ seen = judged answer := by
  obtain ⟨answer, time, lines, rfl, hjudged, hlines, -⟩ := checkReady_reads h
  have hnone : readings lines = [] := readings_eq_nil fun e he => by
    obtain ⟨text, rfl⟩ := hlines e he
    rfl
  exact ⟨answer, congrArg (answer :: ·) hnone, hjudged⟩

theorem only_checkReady {ns name : String} {P : Event τ → Prop}
    (hread : ∀ answer time, P (.asked (.api (.readDeployment ns name)) answer time))
    (hline : ∀ text, P (.logged .debug text)) :
    (checkReady ns name : Action τ (Deployment × Bool)).Only P := by
  intro evs seen h
  obtain ⟨answer, time, lines, rfl, -, hlines, -⟩ := checkReady_reads h
  refine List.forall_mem_cons.mpr ⟨hread answer time, fun e he => ?_⟩
  obtain ⟨text, rfl⟩ := hlines e he
  exact hline text

/-- A look lists no pods. -/
theorem checkReady_unlisted (ns name : String) :
    (checkReady ns name : Action τ (Deployment × Bool)).Only fun e => ¬ e.Lists :=
  only_checkReady (fun _ _ => id) fun _ => id

/-- No time passes by itself at a look. -/
theorem brisk_checkReady (ns name : String) :
    (checkReady ns name : Action τ (Deployment × Bool)).Only Event.Brisk :=
  only_checkReady (fun _ _ => trivial) fun _ => trivial

/-- A look in a world reads the deployment once. -/
theorem run_checkReady [TimeScale τ] (w : World τ σ) (ns name : String) (h : History τ σ) :
    ∃ (answer : Except ApiFault Deployment) (time : τ) (lines : List (Event τ)),
      (w.run (checkReady ns name).run h).2.events =
        lines ++ .asked (.api (.readDeployment ns name)) answer time :: h.events ∧
      readings lines = [] ∧ (w.run (checkReady ns name).run h).1 = judged answer := by
  obtain ⟨evs, hl, hevents⟩ := w.run_leaves (checkReady ns name).run h
  obtain ⟨answer, time, lines, rfl, hjudged, hlines, -⟩ := checkReady_reads hl
  refine ⟨answer, time, lines.reverse, by simp [hevents], readings_eq_nil fun e he => ?_, hjudged⟩
  obtain ⟨text, rfl⟩ := hlines e (List.mem_reverse.mp he)
  rfl

/-! ### Waits -/

/-- The answers of the polls of a wait were judged as not ready. -/
theorem Polls.readings_vain {ns name : String} {evs : List (Event τ)}
    (h : Polls (checkReady ns name) evs) :
    ∀ a ∈ readings evs, ∃ d, judged a = .ok (d, false) := by
  induction h with
  | none => simp [readings]
  | @more evs rest d time hl _ ih =>
    obtain ⟨answer, hanswer, hjudged⟩ := checkReady_readings hl
    have hrest : readings (.slept time :: rest) = readings rest := rfl
    rw [readings_append, hanswer, hrest]
    exact List.forall_mem_cons.mpr ⟨⟨d, hjudged.symm⟩, ih⟩

/-- What follows the watch of a wait is a report, and a failure unless the watch saw enough. -/
theorem AfterWatch.reports {ns name : String}
    {seen : Except Failure (Deployment × Option WaitFault)} {report : List (Event τ)}
    {r : Except Failure Unit} (h : AfterWatch ns name seen report r) :
    (∀ e ∈ report, e.Reports) ∧ (seen.map Prod.snd = .ok none ↔ r = .ok ()) := by
  cases h with
  | ready | failed => simp [Except.map]
  | unready hr =>
    obtain ⟨hreports, ⟨x, rfl, -⟩, -⟩ := throwNotReady_leaves hr
    exact ⟨hreports, by simp [Except.map]⟩

/-- The readings of a wait are those of its watch. -/
theorem AfterWatch.readings_eq {ns name : String}
    {seen : Except Failure (Deployment × Option WaitFault)} {report : List (Event τ)}
    {r : Except Failure Unit} (h : AfterWatch ns name seen report r) (opening : String)
    (watching : List (Event τ)) :
    readings (.logged .info opening :: (watching ++ report)) = readings watching := by
  have hreport : readings report = [] :=
    readings_eq_nil fun e he => (h.reports.1 e he).answer?
  show readings (watching ++ report) = _
  rw [readings_append, hreport, List.append_nil]

section
variable [TimeScale τ] {pace : Pace τ} {ns name : String} {timeout : τ} {evs : List (Event τ)}

/-- The last look of a watch, too, reads the deployment once. -/
theorem LastLook.reads {seen : Except Failure (Deployment × Option WaitFault)}
    (h : LastLook pace timeout (checkReady ns name) evs seen) :
    ∃ answer, readings evs = [answer] ∧
      judged answer = seen.map fun s => (s.1, s.2.isNone) := by
  cases h with
  | enough hl | late hl | failed hl =>
    obtain ⟨answer, hanswer, hjudged⟩ := checkReady_readings hl
    exact ⟨answer, hanswer, hjudged.symm⟩
  | cancelled notice _ hl =>
    obtain ⟨answer, hanswer, hjudged⟩ := checkReady_readings hl
    refine ⟨answer, ?_, hjudged.symm⟩
    rw [readings_append, hanswer]
    simp [readings, Function.comp_def, Event.answer?]

/-- **The readings of a watch are in vain but for the last one**, and what the watch sees is what
that one is judged to be. -/
theorem watch_reads {seen : Except Failure (Deployment × Option WaitFault)}
    (h : (watch pace timeout (checkReady ns name)).Leaves evs seen) :
    ∃ vain last, readings evs = vain ++ [last] ∧ (∀ a ∈ vain, ∃ d, judged a = .ok (d, false)) ∧
      judged last = seen.map fun s => (s.1, s.2.isNone) := by
  obtain ⟨polls, last, rfl, hpolls, hlast⟩ := watch_leaves h
  obtain ⟨answer, hanswer, hjudged⟩ := hlast.reads
  exact ⟨readings polls, answer, by rw [readings_append, hanswer], hpolls.readings_vain, hjudged⟩

/-- A watch that fails ends with the reading that it fails from. -/
theorem watch_failed {x : Failure}
    (h : (watch pace timeout (checkReady ns name)).Leaves evs (.error x)) :
    ∃ before answer time,
      evs = before ++ [.asked (.api (.readDeployment ns name)) answer time] ∧
        judged answer = .error x := by
  obtain ⟨polls, last, rfl, -, hlast⟩ := watch_leaves h
  cases hlast with
  | failed hl =>
    obtain ⟨answer, time, lines, rfl, hjudged, -, hnone⟩ := checkReady_reads hl
    obtain rfl := hnone x rfl
    exact ⟨polls, answer, time, rfl, hjudged.symm⟩

/-- A watch lists no pods. -/
theorem watch_unlisted (pace : Pace τ) (ns name : String) (timeout : τ) :
    (watch pace timeout (checkReady ns name)).Only fun e => ¬ e.Lists :=
  only_watch (checkReady_unlisted ns name) (fun _ => id) (fun _ _ => id) id

/-- **The readings of a wait are in vain but for the last one**, from which it concludes. -/
theorem awaitReady_reads {r : Except Failure Unit}
    (h : (awaitReady pace ns name timeout).Leaves evs r) :
    ∃ vain last, readings evs = vain ++ [last] ∧ (∀ a ∈ vain, ∃ d, judged a = .ok (d, false)) ∧
      ((∃ d, judged last = .ok (d, true) ∧ r = .ok () ∧ ∀ e ∈ evs, ¬ e.Lists) ∨
        (∃ x before time, judged last = .error x ∧ r = .error x ∧
          evs = before ++ [.asked (.api (.readDeployment ns name)) last time] ∧
          ∀ e ∈ evs, ¬ e.Lists) ∨
        ∃ d x, judged last = .ok (d, false) ∧ r = .error x) := by
  obtain ⟨opening, watching, report, seen, rfl, hwatch, hends⟩ := awaitReady_leaves h
  obtain ⟨vain, last, hreadings, hvain, hjudged⟩ := watch_reads hwatch
  have hunlisted : ∀ e ∈ Event.logged .info opening :: watching, ¬ e.Lists :=
    List.forall_mem_cons.mpr ⟨id, watch_unlisted pace ns name timeout _ _ hwatch⟩
  refine ⟨vain, last, (hends.readings_eq opening watching).trans hreadings, hvain, ?_⟩
  cases hends with
  | ready =>
    rw [List.append_nil]
    exact .inl ⟨_, hjudged, rfl, hunlisted⟩
  | @failed x =>
    obtain ⟨before, answer, time, rfl, -⟩ := watch_failed hwatch
    obtain ⟨-, rfl⟩ : readings before = vain ∧ answer = last := by
      simpa [readings, Event.answer?] using hreadings
    refine .inr (.inl ⟨x, .logged .info opening :: before, time, hjudged, rfl, by simp, ?_⟩)
    rwa [List.append_nil]
  | unready hr =>
    obtain ⟨-, ⟨x, rfl, -⟩, -⟩ := throwNotReady_leaves hr
    exact .inr (.inr ⟨_, x, hjudged, rfl⟩)

end

/-- A wait for a deployment is a line of the log, its watch, and what follows the watch. -/
theorem run_awaitReady [TimeScale τ] (w : World τ σ) (pace : Pace τ) (ns name : String)
    (timeout : τ) (begun : History τ σ) :
    let run := w.run (awaitReady pace ns name timeout).run begun
    ∃ opening report,
      let watched := w.run (watch pace timeout (checkReady ns name)).run
        (World.logged .info opening begun)
      run.2.events = report ++ watched.2.events ∧
        AfterWatch ns name watched.1 report.reverse run.1 := by
  intro run
  refine ⟨s!"Waiting for replicas from deployment {name} in ns {ns} to be ready", ?_⟩
  have hrun : run = _ := w.run_log_bind _ _ _ begun
  rw [hrun]
  generalize World.logged _ _ begun = opened
  rcases hwatch : w.run (watch pace timeout (checkReady ns name)).run opened with
    ⟨⟨x⟩ | ⟨d, fault⟩, h⟩
  · rw [World.run_step_error hwatch]
    exact ⟨[], rfl, .failed⟩
  rw [World.run_step_ok hwatch]
  cases fault with
  | none => exact ⟨[], rfl, .ready⟩
  | some fault =>
    obtain ⟨evs, hl, hevents⟩ :=
      w.run_leaves (do throw (← notReadyFailure ns name fault d) : Action τ Unit).run h
    exact ⟨evs.reverse, hevents, .unready (by rwa [List.reverse_reverse])⟩

end IngressBench
