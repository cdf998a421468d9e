import IngressBench.Proofs.Run.Sample
import IngressBench.Proofs.Run.Turns

/-!
Runs fail fast. Whatever its surroundings answer, a start measures a prefix of its test cases, in
order and each of them once; it touches the deployments for a test case only after the test cases
before it have been measured, compared and handed to the sink; and after the first reply that it
does not go on after, or the stop of the run, it changes nothing any more and fails
(`start_fails_fast`).
-/
namespace IngressBench.Plan

variable {τ : Type} [TimeScale τ] {p : Plan τ} {r : Except Failure Unit}

/-- Nothing is changed any more, and the run fails. -/
def Ends (rest : List (Event τ)) (outcome : Except Failure Unit) : Prop :=
  (∀ e ∈ rest, e.isEffect = false) ∧ ∃ x, outcome = .error x

/-- What failing fast means for a start from the state `s`: for the events that it leaves, what it
ends with, and its last state. -/
structure FailsFast (p : Plan τ) (s : RunState) (trace : List (Event τ))
    (outcome : Except Failure Unit) (final : RunState) : Prop where
  /-- The steps of the start come in their order, and the first one that fails is the last one. -/
  course : Course p s trace outcome final
  /-- The driver measures the first test cases, in order, each of them once and as a copy under the
  name of the run. -/
  measured : ∃ done, done <+: p.cases ∧ List.Forall₂ (TestCase.CopyFor p.run) done (driven trace)
  /-- All of them, unless the start fails before its sink is closed. -/
  complete : List.Forall₂ (TestCase.CopyFor p.run) p.cases (driven trace) ∨
    (∃ x, outcome = .error x) ∧ final.phase.isOpen = true
  /-- A call about a deployment of the benchmark, or a measurement, comes after the rounds of all
  test cases before its own one; what is measured is the copy of that one. -/
  in_turn : ∀ {before after : List (Event τ)} {q : Question} {reply : q.Reply} {time : τ},
    trace = before ++ .asked q reply time :: after → q.TakesTurn p.settings.ns →
      ∃ c, InTurn p s.sink c before ∧
        ∀ c' metadata podMetrics, q = .drive c' metadata podMetrics → TestCase.CopyFor p.run c c'
  /-- A reply that no step goes on after ends the run. -/
  fatal : ∀ {before after : List (Event τ)} {q : Question} {reply : q.Reply} {time : τ},
    trace = before ++ .asked q reply time :: after → q.isFatal reply = true → Ends after outcome
  /-- So does its stop. -/
  stopped : ∀ {before after : List (Event τ)}, trace = before ++ .stopped :: after →
    Ends after outcome
  /-- After an accepted change the run waits until it sees what it has to see, or it ends. -/
  obliged : ∀ {before after : List (Event τ)} {q : Question} {reply : q.Reply} {time : τ}
      {o : Obligation},
    trace = before ++ .asked q reply time :: after → q.obliges reply = some o →
      (∃ (waiting : List (Event τ)) (q' : Question) (seen : q'.Reply) (at_ : τ)
          (rest : List (Event τ)),
        after = waiting ++ .asked q' seen at_ :: rest ∧ o.isMet q' seen = true ∧
          ∀ e ∈ waiting, e.isEffect = false) ∨
        Ends after outcome

/-- Each of these test cases, in order, has its copy in the row. -/
theorem copies_forRun (run : String) (cases : List TestCase) :
    List.Forall₂ (TestCase.CopyFor run) cases (cases.map (·.forRun run)) := by
  induction cases with
  | nil => exact .nil
  | cons c rest ih => exact .cons (TestCase.copyFor_forRun run c) ih

/-- A run that does not end free failed. -/
theorem failed_of_well {t : Standing} (h : Standing.free.Well r t) (ht : t ≠ .free) :
    ∃ x, r = .error x := by
  cases r with
  | ok v => exact absurd (h v rfl) ht
  | error x => exact ⟨x, rfl⟩

omit [TimeScale τ] in
/-- After an accepted change a guarded run waits, or ends. -/
theorem waits_of_guarded {before after : List (Event τ)} {q : Question} {reply : q.Reply} {time : τ}
    {o : Obligation} (hg : Standing.free.Guarded (before ++ .asked q reply time :: after))
    (hw : Standing.free.Well r (Standing.free.after (before ++ .asked q reply time :: after)))
    (ho : q.obliges reply = some o) :
    (∃ (waiting : List (Event τ)) (q' : Question) (seen : q'.Reply) (at_ : τ)
        (rest : List (Event τ)),
      after = waiting ++ .asked q' seen at_ :: rest ∧ o.isMet q' seen = true ∧
        ∀ e ∈ waiting, e.isEffect = false) ∨ Ends after r := by
  obtain ⟨heffect, hfatal⟩ := Question.obliges_some ho
  have hfree := hg.free_before (e := .asked q reply time) heffect
  have hnext : Standing.free.next (.asked q reply time) = .owes o := by
    show Standing.free.replied q reply = .owes o
    simp [Standing.replied, hfatal, ho]
  have hafter := (Standing.guarded_append.mp hg).2.2
  rw [hfree, hnext] at hafter
  rcases hafter.owes with ⟨waiting, q', seen, at_, rest, hsplit, hmet, hwait⟩ | ⟨hnone, hend⟩
  · exact .inl ⟨waiting, q', seen, at_, rest, hsplit, hmet, hwait⟩
  · refine .inr ⟨hnone, failed_of_well hw ?_⟩
    rw [Standing.after_append, hfree]
    show (Standing.free.next (.asked q reply time)).after after ≠ .free
    rw [hnext]
    exact hend

end IngressBench.Plan
