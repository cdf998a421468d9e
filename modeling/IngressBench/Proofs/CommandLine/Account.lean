import IngressBench.CommandLine.Run
import IngressBench.Proofs.Run.Acts

/-!
The command `run` with an account of how far it came: whether its test cases and its sink could be
had, and what the run did that was started. A command that keeps an account does what the command
without it does (`runAccounted_shadows`), and it takes one of five courses (`runAccounted_leaves`).
-/
namespace IngressBench

/-- A question to the files or the terminal of the program: nothing else is asked before a run is
started. -/
def Question.IsLocal : Question → Prop
  | .file _ | .say .. | .freshId | .setLevel _ => True
  | _ => False

/-- When the sink that settings ask for stores its documents, if they ask for one. -/
def Sink.cadenceOf (settings : Settings) (run : String) : Option Cadence :=
  match settings.searchServer.filter fun s => !s.isEmpty, settings.resultsDir with
  | some _, _ => some .streaming
  | none, some _ => some (.batch run)
  | none, none => none

namespace CommandLine

variable {τ : Type} [TimeScale τ]

/-- A run that was started: what it was asked for, what it did for its results, what it ended with,
and its last state. -/
structure Account where
  settings : Settings
  run : String
  cases : List TestCase
  acts : List Plan.Act
  outcome : Except Failure Unit
  final : RunState

/-- The failure of a run, if it failed. -/
def Account.failure? (a : Account) : Option Failure :=
  match a.outcome with
  | .ok () => none
  | .error x => some x

/-- How far the command came. -/
inductive Progress where
  | begun
  /-- The test cases or the sink could not be had. -/
  | unprepared (failure : Failure)
  | started (account : Account)

/-- The account of a run that was started. -/
def Progress.account? : Progress → Option Account
  | .started account => some account
  | _ => none

/-! ### The command with its account -/

/-- A step of the command that keeps an account. -/
abbrev Accounted (τ α : Type) := Keeping (Unit × Progress) τ α

/-- A step about which nothing is accounted. -/
def aside {α : Type} (a : Action τ α) : Accounted τ α :=
  Keeping.beside (Keeping.lift a)

/-- The plan of a run. -/
def planOf (team : Settings → Team τ) (settings : Settings) (cleanup : Bool) (run : String)
    (cases : List TestCase) : Plan τ where
  run := run
  cleanup := cleanup
  cases := cases
  settings := settings
  limits := Limits.ofSettings settings
  team := team settings

def prepareAccounted (r : RunRequest) (settings : Settings) (run : String) :
    Accounted τ (Except Failure (List TestCase × Option Sink)) :=
  Keeping.noting (fun _ prepared progress => match prepared with
      | .ok (.error failure) => .unprepared failure
      | _ => progress)
    (Keeping.lift (Action.attempt (prepare r settings run)))

def startAccounted (plan : Plan τ) (sink : Option Sink) :
    Accounted τ (Except Failure Unit × RunState) :=
  Keeping.ofProgram fun _ => do
    let (outcome, final, acts) ← plan.startActing.perform (.fresh none sink, [])
    return (.ok (outcome, final), (), .started {
      settings := plan.settings, run := plan.run, cases := plan.cases, acts, outcome, final })

def executeAccounted (team : Settings → Team τ) (settings : Settings) (cleanup : Bool)
    (run : String) (cases : List TestCase) (sink : Option Sink) : Accounted τ Int := do
  aside (Action.log .info s!"Starting ingress-perf run {run} with {cases.length} test cases")
  aside (Action.ask (.announce run cleanup cases settings.document (sink.map sinkName)))
  aside (Action.ask .handleSignals)
  let (outcome, state) ← startAccounted (planOf team settings cleanup run cases) sink
  aside (conclude run state.phase outcome)

/-- The command once it has its settings. -/
def settledAccounted (team : Settings → Team τ) (r : RunRequest) (settings : Settings) :
    Accounted τ Int := do
  let level ← aside (Action.ofExcept (levelOf settings.logLevel))
  aside (Action.ask (.setLevel level))
  let run ← aside (runName r)
  match ← prepareAccounted r settings run with
  | .ok (cases, sink) => executeAccounted team settings r.cleanup run cases sink
  | .error failure => do
    if !failure.isOwn then throw failure
    aside (Action.log .error failure.message)
    return 1

def runAccounted (env : Environment) (team : Settings → Team τ) (r : RunRequest) :
    Accounted τ Int := do
  match ← aside (readSettings env r) with
  | none => return 1
  | some settings => settledAccounted team r settings

/-! ### The account changes nothing -/

open Keeping (shadows_beside shadows_lift_bind shadows_noting shadows_bind shadows_pure)

theorem startAccounted_shadows (plan : Plan τ) (sink : Option Sink) :
    (startAccounted plan sink).Shadows
      (Keeping.lift (ExceptT.lift (plan.start.perform (.fresh none sink)))) := by
  intro _ progress
  -- Either side is the run of the plan, followed by what is kept of it.
  have hlift : (Keeping.lift (ExceptT.lift (plan.start.perform (.fresh none sink)))).perform () =
      (plan.start.perform (.fresh none sink)).bind fun ended => .done (.ok ended, ()) :=
    Program.bind_assoc ..
  have hacting : (startAccounted plan sink).perform ((), progress) =
      (plan.startActing.perform (.fresh none sink, [])).bind fun ended =>
        .done (.ok (ended.1, ended.2.1), (), .started {
          settings := plan.settings, run := plan.run, cases := plan.cases, acts := ended.2.2
          outcome := ended.1, final := ended.2.1 }) := rfl
  rw [hacting, hlift, ← Plan.startWith_shadows Plan.act? plan (.fresh none sink) [], Program.bind_assoc,
    Program.bind_assoc]
  rfl

theorem executeAccounted_shadows (team : Settings → Team τ) (settings : Settings) (cleanup : Bool)
    (run : String) (cases : List TestCase) (sink : Option Sink) :
    (executeAccounted team settings cleanup run cases sink).Shadows
      (Keeping.lift (execute team settings cleanup run cases sink)) := by
  refine shadows_lift_bind fun _ => shadows_lift_bind fun _ => shadows_lift_bind fun _ => ?_
  rw [Keeping.lift_bind]
  exact shadows_bind (startAccounted_shadows _ sink) fun _ => shadows_beside _

/-- **A command that keeps an account does what the command without it does.** -/
theorem runAccounted_shadows (env : Environment) (team : Settings → Team τ) (r : RunRequest) :
    (runAccounted env team r).Shadows (Keeping.lift (runCommand env team r)) := by
  refine shadows_lift_bind fun settled => ?_
  cases settled with
  | none => exact shadows_pure _
  | some settings =>
    refine shadows_lift_bind fun level => shadows_lift_bind fun _ => shadows_lift_bind fun run => ?_
    rw [Keeping.lift_bind]
    refine shadows_bind (shadows_noting _ _) fun prepared => ?_
    cases prepared with
    | ok found => exact executeAccounted_shadows team settings r.cleanup run found.1 found.2
    | error failure =>
      -- Whether the failure is the program's own is asked in a step of its own.
      have htold : Keeping.Shadows
          (do aside (Action.log .error failure.message); return 1 : Accounted τ Int)
          (Keeping.lift do Action.log .error failure.message; return 1) :=
        shadows_lift_bind fun _ => shadows_pure _
      dsimp only
      split
      · rw [Keeping.lift_bind]
        exact shadows_bind (fun _ _ => rfl) fun _ => htold
      · exact htold

/-! ### What the command leaves -/

open IngressBench.Action (asks_bind asks_ask asks_pure asks_throw asks_log asks_ofExcept
  asks_attempt)

omit [TimeScale τ] in
/-- Settings are read without a question; if they cannot be used this is told. -/
theorem readSettings_leaves {env : Environment} {r : RunRequest} {evs : List (Event τ)}
    {out : Except Failure (Option Settings)} (h : (readSettings env r).Leaves evs out) :
    (∃ settings, Settings.read env r.settings = .ok settings ∧ evs = [] ∧
        out = .ok (some settings)) ∨
      (∃ title issues, Settings.read env r.settings = .error (.invalid title issues) ∧
        out = .ok none ∧ ∀ e ∈ evs, e.Asks Question.IsLocal) ∨
      ∃ x, Settings.read env r.settings = .error x ∧ (∀ title issues, x ≠ .invalid title issues) ∧
        out = .error x ∧ evs = [] := by
  unfold readSettings at h
  cases hread : Settings.read env r.settings with
  | ok settings =>
    rw [hread] at h
    obtain ⟨rfl, rfl⟩ := Action.leaves_pure.mp h
    exact .inl ⟨settings, rfl, rfl, rfl⟩
  | error x =>
    rw [hread] at h
    cases x with
    | invalid title issues =>
      obtain ⟨_, _, rest, h₁, rfl⟩ := Action.leaves_ask_bind.mp h
      obtain ⟨rfl, rfl⟩ := Action.leaves_pure.mp h₁
      exact .inr (.inl ⟨title, issues, rfl, rfl, List.forall_mem_singleton.mpr trivial⟩)
    | _ =>
      obtain ⟨rfl, rfl⟩ := Action.leaves_throw.mp h
      exact .inr (.inr ⟨_, rfl, fun _ _ => nofun, rfl, rfl⟩)

omit [TimeScale τ] in
theorem asks_runName (r : RunRequest) : (runName r : Action τ String).Asks Question.IsLocal := by
  unfold runName
  cases r.uuid.bind Document.text? with
  | none => exact asks_ask trivial
  | some name =>
    dsimp only
    cases name.isEmpty with
    | true => exact asks_ask trivial
    | false => exact asks_pure _

omit [TimeScale τ] in
theorem asks_unlessThere (path : String) (e : FileError) :
    (Directory.unlessThere path e : Action τ _).Asks Question.IsLocal := by
  unfold Directory.unlessThere
  split
  · exact asks_pure _
  · exact asks_bind (asks_ask trivial) fun _ => asks_pure _

omit [TimeScale τ] in
theorem asks_makeAll (depth : Nat) (path : String) :
    (Directory.makeAll depth path : Action τ _).Asks Question.IsLocal := by
  induction depth generalizing path with
  | zero =>
    rw [Directory.makeAll]
    refine asks_bind (asks_ask trivial) fun made => ?_
    cases made with
    | ok _ => exact asks_pure _
    | error e =>
      dsimp only
      split
      · exact asks_unlessThere path e
      · exact asks_pure _
  | succ depth ih =>
    rw [Directory.makeAll]
    refine asks_bind (asks_ask trivial) fun made => ?_
    cases made with
    | ok _ => exact asks_pure _
    | error e =>
      dsimp only
      split
      · exact asks_unlessThere path e
      refine asks_bind (ih _) fun around => ?_
      cases around with
      | error _ => exact asks_pure _
      | ok _ =>
        refine asks_bind (asks_ask trivial) fun again => ?_
        cases again with
        | ok _ => exact asks_pure _
        | error e' =>
          dsimp only
          split
          · exact asks_pure _
          · exact asks_unlessThere path e'

omit [TimeScale τ] in
/-- Preparing a run asks the files only. -/
theorem asks_prepare (r : RunRequest) (settings : Settings) (run : String) :
    (prepare r settings run : Action τ _).Asks Question.IsLocal := by
  refine asks_bind (asks_ofExcept _) fun path => asks_bind ?_ fun cases => asks_bind ?_ fun _ =>
    asks_pure _
  · refine asks_bind (asks_ask trivial) fun answer => ?_
    cases answer with
    | ok bytes => exact asks_ofExcept _
    | error e => exact asks_throw _
  · unfold Sink.ofSettings
    split
    · refine asks_bind (asks_bind (asks_log _ _) fun _ => ?_) fun _ => asks_pure _
      split
      · exact asks_throw _
      · exact asks_pure _
    · refine asks_bind (asks_bind (asks_log _ _) fun _ => ?_) fun _ => asks_pure _
      refine asks_bind (asks_attempt (asks_bind (asks_makeAll _ _) fun made => ?_)) fun made => ?_
      · cases made with
        | ok _ => exact asks_pure _
        | error e => exact asks_throw _
      · cases made with
        | ok _ => exact asks_pure _
        | error x => cases x <;> exact asks_throw _
    · exact asks_pure _

/-! #### What is prepared -/

/-- What a command found that is ready to start a run: the test cases that a file holds, and the
sink that the settings ask for. -/
structure Found (r : RunRequest) (settings : Settings) (run : String) (evs : List (Event τ))
    (cases : List TestCase) (sink : Option Sink) : Prop where
  loaded : ∃ path bytes time, r.cases = .text path ∧
    .asked (.file (.read path)) (.ok bytes) time ∈ evs ∧ Suite.ofBytes path bytes = .ok cases
  cadence : sink.map Sink.cadence = Sink.cadenceOf settings run

omit [TimeScale τ] in
theorem Found.mono {r : RunRequest} {settings : Settings} {run : String} {evs evs' : List (Event τ)}
    {cases : List TestCase} {sink : Option Sink} (h : Found r settings run evs cases sink)
    (hsub : evs ⊆ evs') : Found r settings run evs' cases sink := by
  obtain ⟨path, bytes, time, hcases, hread, hbytes⟩ := h.loaded
  exact ⟨⟨path, bytes, time, hcases, hsub hread, hbytes⟩, h.cadence⟩

omit [TimeScale τ] in
theorem ofServer_leaves {settings : Settings} {server : String} {evs : List (Event τ)} {sink : Sink}
    (h : (Sink.ofServer settings server).Leaves evs (.ok sink)) : sink.cadence = .streaming := by
  obtain ⟨_, h₁, -⟩ := Action.leaves_log_bind.mp h
  split at h₁
  · cases (Action.leaves_throw.mp h₁).2
  · cases (Action.leaves_pure.mp h₁).2
    rfl

omit [TimeScale τ] in
theorem ofDirectory_leaves {path run : String} {evs : List (Event τ)} {sink : Sink}
    (h : (Sink.ofDirectory path run).Leaves evs (.ok sink)) : sink.cadence = .batch run := by
  obtain ⟨_, h₁, -⟩ := Action.leaves_log_bind.mp h
  obtain ⟨made, _, _, -, h₂, -⟩ := Action.leaves_attempt_bind.mp h₁
  cases made with
  | ok _ =>
    cases (Action.leaves_pure.mp h₂).2
    rfl
  | error x => cases x <;> cases (Action.leaves_throw.mp h₂).2

omit [TimeScale τ] in
/-- A sink is made exactly when the settings ask for one, and stores when they say. -/
theorem ofSettings_leaves {settings : Settings} {run : String} {evs : List (Event τ)}
    {sink : Option Sink} (h : (Sink.ofSettings settings run).Leaves evs (.ok sink)) :
    sink.map Sink.cadence = Sink.cadenceOf settings run := by
  have hmade : ∀ {a : Action τ Sink} {cadence : Cadence} {evs : List (Event τ)},
      (∀ evs made, a.Leaves evs (.ok made) → made.cadence = cadence) →
        Action.Leaves (do return some (← a)) evs (.ok sink) →
          sink.map Sink.cadence = some cadence := by
    intro a cadence evs ha h
    obtain ⟨made, _, _, hmade, h₁, -⟩ := Action.leaves_bind_ok.mp h
    cases (Action.leaves_pure.mp h₁).2
    exact congrArg some (ha _ _ hmade)
  unfold Sink.ofSettings at h
  unfold Sink.cadenceOf
  cases hserver : settings.searchServer.filter fun s => !s.isEmpty with
  | some server =>
    rw [hserver] at h
    exact hmade (fun _ _ => ofServer_leaves) h
  | none =>
    rw [hserver] at h
    cases hdirectory : settings.resultsDir with
    | some path =>
      rw [hdirectory] at h
      exact hmade (fun _ _ => ofDirectory_leaves) h
    | none =>
      rw [hdirectory] at h
      cases (Action.leaves_pure.mp h).2
      rfl

omit [TimeScale τ] in
theorem prepare_leaves {r : RunRequest} {settings : Settings} {run : String}
    {evs : List (Event τ)} {cases : List TestCase} {sink : Option Sink}
    (h : (prepare r settings run).Leaves evs (.ok (cases, sink))) :
    Found r settings run evs cases sink := by
  rcases Action.leaves_ofExcept_bind.mp h with ⟨_, -, -, hr⟩ | ⟨path, hpath, h₁⟩
  · cases hr
  have hcases : r.cases = .text path := by
    unfold suitePath at hpath
    split at hpath
    · cases hpath
      assumption
    · cases hpath
  obtain ⟨found, first, rest, hload, h₂, rfl⟩ := Action.leaves_bind_ok.mp h₁
  obtain ⟨_, _, _, hsink, h₃, -⟩ := Action.leaves_bind_ok.mp h₂
  cases (Action.leaves_pure.mp h₃).2
  refine ⟨?_, ofSettings_leaves hsink⟩
  obtain ⟨answer, time, _, h₄, rfl⟩ := Action.leaves_ask_bind.mp hload
  cases answer with
  | error e => cases (Action.leaves_throw.mp h₄).2
  | ok bytes =>
    exact ⟨path, bytes, time, hcases, List.mem_append_left _ List.mem_cons_self,
      (Action.leaves_ofExcept.mp h₄).2.symm⟩

/-! #### How it concludes -/

/-- The line about a run that failed. -/
def failureLine (run : String) (phase : Phase) (failure : Failure) : Level × String :=
  if failure.isCancelled then (.warning, s!"Run {run} cancelled in phase {phase.name}")
  else (.error, s!"Run {run} failed in phase {phase.name}: {failure.message}")

omit [TimeScale τ] in
theorem told_leaves {level : Level} {text : String} {evs : List (Event τ)}
    {out : Except Failure Int}
    (h : Action.Leaves (do Action.log level text; return 1) evs out) :
    evs = [.logged level text] ∧ out = .ok 1 := by
  obtain ⟨_, h₁, rfl⟩ := Action.leaves_log_bind.mp h
  obtain ⟨rfl, rfl⟩ := Action.leaves_pure.mp h₁
  exact ⟨rfl, rfl⟩

omit [TimeScale τ] in
/-- How the command concludes from a failure that is no verdict of a comparison: an unexpected one
goes on, and an expected one is told by its line and ends the program with one. -/
theorem conclude_leaves {run : String} {phase : Phase} {x : Failure} {evs : List (Event τ)}
    {out : Except Failure Int} (hx : x ≠ .comparison)
    (h : (conclude run phase (.error x)).Leaves evs out) :
    isExpected x = false ∧ out = .error x ∨ isExpected x = true ∧ out = .ok 1 ∧
      evs = [.logged (failureLine run phase x).1 (failureLine run phase x).2] := by
  unfold conclude at h
  split at h
  · contradiction
  · rename_i heq
    exact absurd (Except.error.inj heq) hx
  · rename_i heq
    obtain rfl := Except.error.inj heq
    cases hexpected : isExpected x with
    | false =>
      rw [hexpected, if_pos (by decide)] at h
      rcases Action.leaves_bind.mp h with ⟨y, hy, rfl⟩ | ⟨_, _, _, hthrown, -⟩
      · cases (Action.leaves_throw.mp hy).2
        exact .inl ⟨rfl, rfl⟩
      · cases (Action.leaves_throw.mp hthrown).2
    | true =>
      rw [hexpected, if_neg (by decide)] at h
      refine .inr ⟨rfl, ?_⟩
      unfold failureLine
      cases hcancelled : x.isCancelled with
      | true =>
        rw [hcancelled, if_pos rfl] at h
        exact (told_leaves h).symm
      | false =>
        rw [hcancelled, if_neg Bool.false_ne_true] at h
        exact (told_leaves h).symm

omit [TimeScale τ] in
/-- **Only a run that ended well ends the program with zero.** -/
theorem conclude_zero {run : String} {phase : Phase} {outcome : Except Failure Unit}
    {evs : List (Event τ)} (h : (conclude run phase outcome).Leaves evs (.ok 0)) :
    outcome = .ok () := by
  cases outcome with
  | ok _ => rfl
  | error x =>
    by_cases hx : x = .comparison
    · subst hx
      obtain ⟨_, h₁, -⟩ := Action.leaves_log_bind.mp h
      cases (Action.leaves_pure.mp h₁).2
    · rcases conclude_leaves hx h with ⟨-, hout⟩ | ⟨-, hout, -⟩ <;> cases hout

/-! #### The whole command -/

/-- What the command leaves, what it ends with, and its account. -/
inductive Conduct (env : Environment) (team : Settings → Team τ) (r : RunRequest) :
    List (Event τ) → Except Failure Int → Progress → Prop
  | unsettled {evs : List (Event τ)} {title : String} {issues : List Issue}
      (hread : Settings.read env r.settings = .error (.invalid title issues))
      (hlocal : ∀ e ∈ evs, e.Asks Question.IsLocal) :
      Conduct env team r evs (.ok 1) .begun
  | broken {evs : List (Event τ)} {x : Failure}
      (hread : ∀ title issues, Settings.read env r.settings ≠ .error (.invalid title issues)) :
      Conduct env team r evs (.error x) .begun
  | unprepared {evs : List (Event τ)} {out : Except Failure Int} {settings : Settings} {x : Failure}
      (hread : Settings.read env r.settings = .ok settings)
      (hlocal : ∀ e ∈ evs, e.Asks Question.IsLocal)
      (hout : out = if x.isOwn then .ok 1 else .error x) :
      Conduct env team r evs out (.unprepared x)
  | started {before course ending : List (Event τ)} {out : Except Failure Int}
      {settings : Settings} {level run : String} {cases : List TestCase} {sink : Option Sink}
      {acts : List Plan.Act} {outcome : Except Failure Unit} {final : RunState}
      (hread : Settings.read env r.settings = .ok settings)
      (hlevel : levelOf settings.logLevel = .ok level)
      (hfound : Found r settings run before cases sink)
      (hcourse : (planOf team settings r.cleanup run cases).startActing.Leaves
        (.fresh none sink, []) course outcome (final, acts))
      (hending : (conclude run final.phase outcome).Leaves ending out) :
      Conduct env team r (before ++ (course ++ ending)) out
        (.started { settings, run, cases, acts, outcome, final })

theorem startAccounted_leaves {plan : Plan τ} {sink : Option Sink} {u u' : Unit}
    {progress progress' : Progress} {evs : List (Event τ)}
    {r : Except Failure (Except Failure Unit × RunState)}
    (h : (startAccounted plan sink).Leaves (u, progress) evs r (u', progress')) :
    ∃ outcome final acts,
      plan.startActing.Leaves (.fresh none sink, []) evs outcome (final, acts) ∧
      r = .ok (outcome, final) ∧ progress' = .started {
        settings := plan.settings, run := plan.run, cases := plan.cases, acts, outcome
        final } := by
  obtain ⟨⟨outcome, final, acts⟩, first, rest, hstart, ⟨rfl, hr⟩, rfl⟩ :=
    Program.leaves_bind.mp (Keeping.leaves_ofProgram.mp h)
  cases hr
  exact ⟨outcome, final, acts, by rwa [List.append_nil], rfl, rfl⟩

section
variable {α β : Type} {progress progress' : Progress} {evs : List (Event τ)}

omit [TimeScale τ] in
/-- A step aside leaves what it leaves, and what comes after it does so with the same account. -/
theorem leaves_aside_bind {a : Action τ α} {f : α → Accounted τ β} {r : Except Failure β}
    (h : (aside a >>= f).Leaves ((), progress) evs r ((), progress')) :
    (∃ x, a.Leaves evs (.error x) ∧ r = .error x ∧ progress' = progress) ∨
      ∃ v first rest, a.Leaves first (.ok v) ∧
        (f v).Leaves ((), progress) rest r ((), progress') ∧ evs = first ++ rest := by
  rcases Keeping.leaves_beside_bind.mp h with ⟨x, hx, hr, hsame⟩ | ⟨v, _, first, rest, hv, hf, hevs⟩
  · exact .inl ⟨x, (Keeping.leaves_lift.mp hx).1, hr, hsame⟩
  · exact .inr ⟨v, first, rest, (Keeping.leaves_lift.mp hv).1, hf, hevs⟩

omit [TimeScale τ] in
/-- A question aside does not fail. -/
theorem leaves_aside_ask_bind {q : Question} {f : q.Reply → Accounted τ β} {r : Except Failure β}
    (h : (aside (Action.ask q) >>= f).Leaves ((), progress) evs r ((), progress')) :
    ∃ v time rest, (f v).Leaves ((), progress) rest r ((), progress') ∧
      evs = .asked q v time :: rest := by
  rcases leaves_aside_bind h with ⟨x, hx, -⟩ | ⟨v, _, rest, hv, hf, rfl⟩
  · obtain ⟨_, _, _, hr⟩ := Action.leaves_ask.mp hx
    cases hr
  · obtain ⟨_, time, rfl, hr⟩ := Action.leaves_ask.mp hv
    cases hr
    exact ⟨v, time, rest, hf, rfl⟩

omit [TimeScale τ] in
/-- Neither does a line of the log. -/
theorem leaves_aside_log_bind {level : Level} {text : String} {f : Unit → Accounted τ β}
    {r : Except Failure β}
    (h : (aside (Action.log level text) >>= f).Leaves ((), progress) evs r ((), progress')) :
    ∃ rest, (f ()).Leaves ((), progress) rest r ((), progress') ∧
      evs = .logged level text :: rest := by
  rcases leaves_aside_bind h with ⟨x, hx, -⟩ | ⟨_, _, rest, hv, hf, rfl⟩
  · cases (Action.leaves_log.mp hx).2
  · obtain ⟨rfl, -⟩ := Action.leaves_log.mp hv
    exact ⟨rest, hf, rfl⟩

end

/-- What a run leaves that is started: lines and questions of the program, the start, and the
conclusion. -/
theorem executeAccounted_leaves {team : Settings → Team τ} {settings : Settings} {cleanup : Bool}
    {run : String} {cases : List TestCase} {sink : Option Sink} {progress progress' : Progress}
    {evs : List (Event τ)} {out : Except Failure Int}
    (h : (executeAccounted team settings cleanup run cases sink).Leaves ((), progress) evs out
      ((), progress')) :
    ∃ heading course ending outcome final acts, evs = heading ++ (course ++ ending) ∧
      (planOf team settings cleanup run cases).startActing.Leaves (.fresh none sink, []) course
        outcome (final, acts) ∧
      (conclude run final.phase outcome).Leaves ending out ∧
      progress' = .started { settings, run, cases, acts, outcome, final } := by
  obtain ⟨_, h₁, rfl⟩ := leaves_aside_log_bind h
  obtain ⟨_, _, _, h₂, rfl⟩ := leaves_aside_ask_bind h₁
  obtain ⟨_, _, _, h₃, rfl⟩ := leaves_aside_ask_bind h₂
  rcases Keeping.leaves_bind.mp h₃ with ⟨_, hx, -⟩ | ⟨_, ⟨_, _⟩, course, _, hstart, h₄, rfl⟩
  · obtain ⟨_, _, _, -, hr, -⟩ := startAccounted_leaves hx
    cases hr
  obtain ⟨outcome, final, acts, hcourse, hr, rfl⟩ := startAccounted_leaves hstart
  cases hr
  obtain ⟨hconclude, rfl⟩ := Keeping.leaves_beside.mp h₄
  obtain ⟨hending, -⟩ := Keeping.leaves_lift.mp hconclude
  exact ⟨[_, _, _], course, _, outcome, final, acts, rfl, hcourse, hending, rfl⟩

omit [TimeScale τ] in
/-- What the command leaves when its test cases or its sink could not be had. -/
theorem refused_leaves {x : Failure} {progress progress' : Progress} {evs : List (Event τ)}
    {out : Except Failure Int}
    (h : Keeping.Leaves (do
      if !x.isOwn then throw x
      aside (Action.log .error x.message)
      return 1 : Accounted τ Int) ((), progress) evs out ((), progress')) :
    progress' = progress ∧ (∀ e ∈ evs, e.Asks Question.IsLocal) ∧
      out = if x.isOwn then .ok 1 else .error x := by
  cases hown : x.isOwn with
  | false =>
    rw [hown, if_pos (by decide)] at h
    rcases Keeping.leaves_bind.mp h with ⟨y, hy, rfl⟩ | ⟨_, _, _, _, hthrown, -⟩
    · obtain ⟨rfl, hr, hs⟩ := Keeping.leaves_throw.mp hy
      cases hr
      cases hs
      exact ⟨rfl, by simp, rfl⟩
    · cases (Keeping.leaves_throw.mp hthrown).2.1
  | true =>
    rw [hown, if_neg (by decide)] at h
    obtain ⟨_, h₁, rfl⟩ := leaves_aside_log_bind h
    obtain ⟨rfl, rfl, hs⟩ := Keeping.leaves_pure.mp h₁
    cases hs
    exact ⟨rfl, List.forall_mem_singleton.mpr trivial, rfl⟩

omit [TimeScale τ] in
/-- Preparing a run is accounted when it fails. -/
theorem leaves_prepareAccounted_bind {r : RunRequest} {settings : Settings} {run : String}
    {f : Except Failure (List TestCase × Option Sink) → Accounted τ Int}
    {progress progress' : Progress} {evs : List (Event τ)} {out : Except Failure Int}
    (h : (prepareAccounted r settings run >>= f).Leaves ((), progress) evs out ((), progress')) :
    (∃ found first rest, (prepare r settings run).Leaves first (.ok found) ∧
      (f (.ok found)).Leaves ((), progress) rest out ((), progress') ∧ evs = first ++ rest) ∨
    ∃ x first rest, (prepare r settings run).Leaves first (.error x) ∧
      (f (.error x)).Leaves ((), .unprepared x) rest out ((), progress') ∧ evs = first ++ rest := by
  rcases Keeping.leaves_bind.mp h with ⟨x, hx, -⟩ | ⟨found, ⟨_, _⟩, first, rest, hfirst, hf, hevs⟩
  · obtain ⟨hattempt, -⟩ := Keeping.leaves_noting.mp hx
    obtain ⟨_, -, hr⟩ := Action.leaves_attempt.mp (Keeping.leaves_lift.mp hattempt).1
    cases hr
  obtain ⟨hattempt, rfl⟩ := Keeping.leaves_noting.mp hfirst
  obtain ⟨_, hprepare, hr⟩ := Action.leaves_attempt.mp (Keeping.leaves_lift.mp hattempt).1
  cases hr
  cases found with
  | ok found => exact .inl ⟨found, first, rest, hprepare, hf, hevs⟩
  | error x => exact .inr ⟨x, first, rest, hprepare, hf, hevs⟩

/-- A command that has its settings is broken off, or could not prepare its run, or starts it. -/
theorem settledAccounted_leaves {env : Environment} {team : Settings → Team τ} {r : RunRequest}
    {settings : Settings} (hread : Settings.read env r.settings = .ok settings)
    {progress : Progress} {evs : List (Event τ)} {out : Except Failure Int}
    (h : (settledAccounted team r settings).Leaves ((), .begun) evs out ((), progress)) :
    Conduct env team r evs out progress := by
  have hvalid : ∀ title issues, Settings.read env r.settings ≠ .error (.invalid title issues) :=
    fun _ _ heq => nomatch hread.symm.trans heq
  rcases leaves_aside_bind h with ⟨x, -, rfl, rfl⟩ | ⟨level, _, _, hleveling, h₁, rfl⟩
  · exact .broken hvalid
  obtain ⟨rfl, hlevel⟩ := Action.leaves_ofExcept.mp hleveling
  obtain ⟨reply, time, _, h₂, rfl⟩ := leaves_aside_ask_bind h₁
  rcases leaves_aside_bind h₂ with ⟨x, -, rfl, rfl⟩ | ⟨run, naming, _, hnaming, h₃, rfl⟩
  · exact .broken hvalid
  rcases leaves_prepareAccounted_bind h₃ with
    ⟨found, preparing, _, hprepare, h₄, rfl⟩ | ⟨x, preparing, _, hprepare, h₄, rfl⟩
  · obtain ⟨heading, course, ending, outcome, final, acts, rfl, hcourse, hending, rfl⟩ :=
      executeAccounted_leaves h₄
    have hbefore : preparing ⊆
        .asked (.setLevel level) reply time :: (naming ++ (preparing ++ heading)) := fun _ he =>
      List.mem_cons_of_mem _ (List.mem_append_right _ (List.mem_append_left _ he))
    simpa using Conduct.started hread hlevel.symm ((prepare_leaves hprepare).mono hbefore)
      hcourse hending
  · obtain ⟨rfl, hrefused, hout⟩ := refused_leaves h₄
    refine .unprepared hread ?_ hout
    simp only [List.nil_append, List.forall_mem_cons, List.forall_mem_append]
    exact ⟨trivial, asks_runName r _ _ hnaming, asks_prepare r settings run _ _ hprepare, hrefused⟩

/-- **Every command takes one of these courses.** -/
theorem runAccounted_leaves {env : Environment} {team : Settings → Team τ} {r : RunRequest}
    {progress : Progress} {evs : List (Event τ)} {out : Except Failure Int}
    (h : (runAccounted env team r).Leaves ((), .begun) evs out ((), progress)) :
    Conduct env team r evs out progress := by
  rcases leaves_aside_bind h with ⟨x, hx, rfl, rfl⟩ | ⟨_, _, _, hsettling, h₁, rfl⟩
  · rcases readSettings_leaves hx with ⟨_, _, _, hr⟩ | ⟨_, _, _, hr, _⟩ | ⟨y, hread, hother, -, -⟩
    · cases hr
    · cases hr
    · refine .broken fun title issues heq => hother title issues ?_
      exact Except.error.inj (hread.symm.trans heq)
  rcases readSettings_leaves hsettling with
    ⟨settings, hread, rfl, hr⟩ | ⟨title, issues, hread, hr, hlocal⟩ | ⟨_, _, _, hr, _⟩
  · cases hr
    exact settledAccounted_leaves hread h₁
  · cases hr
    obtain ⟨rfl, rfl, hs⟩ := Keeping.leaves_pure.mp h₁
    cases hs
    exact .unsettled hread (by rwa [List.append_nil])
  · cases hr

end CommandLine
end IngressBench
