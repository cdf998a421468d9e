import IngressBench.Proofs.CommandLine.Account
import IngressBench.Proofs.Run.Sample
import IngressBench.Proofs.Suite

/-!
What the exit code of the program tells. A program that ends with zero has run a suite to its end:
all test cases were measured once and in order, the results were handed over, the sink was closed,
and if that was asked for everything was removed. A program whose settings, test cases or sink were
refused ends with one and asked nothing outside the machine. A program whose run failed in an
expected way ends with one, and its last line tells the phase (`program_exit_truthful`). A log of a
level that is too high does not tell that line (`failure_untold`).
-/
namespace IngressBench.CommandLine

variable {τ : Type}

/-! ### The log -/

/-- The record of an event in a log of a level: a line that is at least as heavy as the level. -/
def record? (level : String) : Event τ → Option (Level × String)
  | .logged l text => if weight level ≤ weight l.name then some (l, text) else none
  | _ => none

/-- The records of a log of a level. -/
def records (level : String) (evs : List (Event τ)) : List (Level × String) :=
  evs.filterMap (record? level)

/-- A line that is heavy enough is recorded after the others. -/
theorem records_concat {level : String} {line : Level × String}
    (h : weight level ≤ weight line.1.name) (evs : List (Event τ)) :
    records level (evs ++ [.logged line.1 line.2]) = records level evs ++ [line] := by
  have hline : record? level (.logged line.1 line.2 : Event τ) = some line := if_pos h
  unfold records
  rw [List.filterMap_append, List.filterMap_cons, hline, List.filterMap_nil]

/-- **A log of critical lines records nothing**: no line is critical. -/
theorem records_critical (evs : List (Event τ)) : records "CRITICAL" evs = [] := by
  refine List.filterMap_eq_nil_iff.mpr fun e _ => ?_
  cases e with
  | logged level text => cases level <;> rfl
  | _ => rfl

/-! ### What the exit code tells -/

/-- What a program has done that ends with zero. -/
structure Completed (env : Environment) (r : RunRequest) (trace : List (Event τ)) (a : Account) :
    Prop where
  settled : Settings.read env r.settings = .ok a.settings
  /-- The test cases are those that the file holds, -/
  loaded : ∃ path bytes time, r.cases = .text path ∧
    .asked (.file (.read path)) (.ok bytes) time ∈ trace ∧ Suite.ofBytes path bytes = .ok a.cases
  /-- and there is at least one. -/
  nonempty : a.cases ≠ []
  /-- Each of them was measured once and in order, as its copy under the name of the run. The results
  of those that are no warm-ups were handed to the sink that the settings ask for, and then it was
  closed; the label of a batch is the name of the run. -/
  served : ∃ served, a.acts = served ++ Plan.closingActs (Sink.cadenceOf a.settings a.run) ∧
    Plan.Served a.run (Sink.cadenceOf a.settings a.run) a.cases served
  /-- If that was asked for, the objects were removed after that, and every call for it succeeded.
  -/
  tornDown : r.cleanup = true → ∃ before removing after, trace = before ++ (removing ++ after) ∧
    TornDown a.final.existed a.settings.ns removing

/-- The end of a program whose run failed: its last line tells the phase and the failure. -/
structure ToldFailure (trace : List (Event τ)) (a : Account) (x : Failure) : Prop where
  last : ∃ before, trace = before ++
    [.logged (failureLine a.run a.final.phase x).1 (failureLine a.run a.final.phase x).2]
  /-- It is the last record of the log, if the log is of a level that admits it. -/
  recorded : ∃ level, levelOf a.settings.logLevel = .ok level ∧
    (weight level ≤ weight (failureLine a.run a.final.phase x).1.name →
      (records level trace).getLast? = some (failureLine a.run a.final.phase x))

/-- The exit code of the command `run` tells the truth: for the events that the command leaves, what
it ends with, and how far it came. -/
structure Truthful (env : Environment) (r : RunRequest) (trace : List (Event τ))
    (out : Except Failure Int) (progress : Progress) : Prop where
  /-- Zero is for a run that was completed. -/
  completed : out = .ok 0 → ∃ a, progress = .started a ∧ Completed env r trace a
  /-- Refused settings, test cases or sinks end the program with one, and nothing was asked outside
  the machine. -/
  refused : (∃ title issues, Settings.read env r.settings = .error (.invalid title issues)) ∨
      (∃ x, progress = .unprepared x ∧ x.isOwn = true) →
    out = .ok 1 ∧ ∀ e ∈ trace, e.Asks Question.IsLocal
  /-- So does the failure of a run that is no verdict of a comparison, and it is told. -/
  failed : ∀ a x, progress = .started a → a.outcome = .error x → x ≠ .comparison →
    isExpected x = true → out = .ok 1 ∧ ToldFailure trace a x

variable [TimeScale τ]

/-- A run that was started and ended the program with zero was completed. -/
theorem completed_of_zero {env : Environment} {team : Settings → Team τ} {r : RunRequest}
    {before course ending : List (Event τ)} {settings : Settings} {run : String}
    {cases : List TestCase} {sink : Option Sink} {acts : List Plan.Act}
    {outcome : Except Failure Unit} {final : RunState}
    (hread : Settings.read env r.settings = .ok settings)
    (hfound : Found r settings run before cases sink)
    (hcourse : (planOf team settings r.cleanup run cases).startActing.Leaves
      (.fresh none sink, []) course outcome (final, acts))
    (hending : (conclude run final.phase outcome).Leaves ending (.ok 0)) :
    Completed env r (before ++ (course ++ ending))
      { settings, run, cases, acts, outcome, final } := by
  obtain rfl := conclude_zero hending
  obtain ⟨path, bytes, time, hcases, hmem, hbytes⟩ := hfound.loaded
  refine ⟨hread, ⟨path, bytes, time, hcases, List.mem_append_left _ hmem, hbytes⟩,
    Suite.ofBytes_ne_nil hbytes, ?_, fun hclean => ?_⟩
  · have hserved := Plan.startActing_serves hcourse
    rwa [show (RunState.fresh none sink).cadence? = Sink.cadenceOf settings run from
      hfound.cadence] at hserved
  · obtain ⟨opening, removing, rfl, htorn⟩ :=
      Plan.start_tears_down hclean ((Plan.startWith_shadows Plan.act? _).leaves hcourse)
    exact ⟨before ++ opening, removing, ending, by simp, htorn⟩

omit [TimeScale τ] in
/-- The failure of a run that was started is told. -/
theorem toldFailure_of_failed {before ending : List (Event τ)} {a : Account} {x : Failure}
    {level : String} {out : Except Failure Int} (hlevel : levelOf a.settings.logLevel = .ok level)
    (hx : x ≠ .comparison) (hexpected : isExpected x = true)
    (hending : (conclude a.run a.final.phase (.error x)).Leaves ending out) :
    out = .ok 1 ∧ ToldFailure (before ++ ending) a x := by
  rcases conclude_leaves hx hending with ⟨hnone, -⟩ | ⟨-, rfl, rfl⟩
  · cases hexpected.symm.trans hnone
  · refine ⟨rfl, ⟨before, rfl⟩, level, hlevel, fun hadmits => ?_⟩
    rw [records_concat hadmits, List.getLast?_concat]

theorem Conduct.truthful {env : Environment} {team : Settings → Team τ} {r : RunRequest}
    {evs : List (Event τ)} {out : Except Failure Int} {progress : Progress}
    (h : Conduct env team r evs out progress) : Truthful env r evs out progress := by
  cases h with
  | unsettled hread hlocal =>
    exact ⟨(fun h => nomatch h), fun _ => ⟨rfl, hlocal⟩, (fun _ _ h => nomatch h)⟩
  | broken hread =>
    refine ⟨(fun h => nomatch h), fun h => ?_, (fun _ _ h => nomatch h)⟩
    rcases h with ⟨title, issues, hinvalid⟩ | ⟨_, h, -⟩
    · exact absurd hinvalid (hread title issues)
    · cases h
  | @unprepared _ _ _ x hread hlocal hout =>
    subst hout
    refine ⟨fun h => ?_, fun h => ⟨?_, hlocal⟩, (fun _ _ h => nomatch h)⟩
    · split at h <;> cases h
    · rcases h with ⟨title, issues, hinvalid⟩ | ⟨_, h, hown⟩
      · cases hread.symm.trans hinvalid
      · cases h
        exact if_pos hown
  | started hread hlevel hfound hcourse hending =>
    refine ⟨fun h => ?_, fun h => ?_, fun a x h hfailed hx hexpected => ?_⟩
    · subst h
      exact ⟨_, rfl, completed_of_zero hread hfound hcourse hending⟩
    · rcases h with ⟨title, issues, hinvalid⟩ | ⟨_, h, -⟩
      · cases hread.symm.trans hinvalid
      · cases h
    · cases h
      rw [← List.append_assoc]
      subst hfailed
      exact toldFailure_of_failed hlevel hx hexpected hending

/-- In a world the program does what the command with its account does. -/
theorem trace_program {σ : Type} {env : Environment} {team : Settings → Team τ} {args : List String}
    {r : RunRequest} (h : read args = .ok (.run r)) (w : World τ σ) (now : τ) (world : σ) :
    let run := w.trace now world ((runAccounted env team r).perform ((), .begun))
    w.trace now world (program env team args).run = (run.1.1, run.2) := by
  have hsame := (runAccounted_shadows env team r).trace_eq w now world () .begun
  rw [Keeping.trace_lift] at hsame
  have hprogram : program env team args = runCommand env team r := by
    unfold program
    rw [h]
  rw [hprogram]
  exact Prod.ext (congrArg (·.1.1) hsame) (congrArg (·.2) hsame)

end IngressBench.CommandLine
