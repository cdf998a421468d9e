import IngressBench.Proofs.Run.Changes
import IngressBench.Proofs.Run.Recorded
import IngressBench.Proofs.Run.Stages

/-!
Runs with a register of their helpers: every call of the tuner, the driver and the comparator is
kept, with what the call ended with. Nothing is kept of the other stages (`startEntered_eq`). The
register holds what no event tells when a helper is the run's own.

What a test case enters depends on the profile that is applied when it begins (`CaseCalls`), and a
run enters its test cases one after the other (`CasesCalls`). Where a helper is in the surroundings
its entries are its questions with their replies (`startEntered_told`).
-/
namespace IngressBench

/-- A call of a helper, and what it ended with. -/
inductive HelperCall where
  | tuned (profile : String) (outcome : Except Failure Unit)
  | measured (case : TestCase) (outcome : Except Failure (List Result))
  | compared (case : TestCase) (results : List Result) (outcome : Except Failure Bool)

/-- A question to a helper of the surroundings is, with its reply, a call of this helper. -/
def Event.helper? {τ : Type} : Event τ → Option HelperCall
  | .asked (.tune profile) reply _ => some (.tuned profile reply)
  | .asked (.drive c ..) reply _ => some (.measured c reply)
  | .asked (.compare c results) reply _ => some (.compared c results reply)
  | _ => none

namespace Plan

variable {τ α β : Type} [TimeScale τ]

/-- The call of a helper that an entry tells, if it tells one. -/
def call? : Entry → Option HelperCall
  | .tuned profile outcome => some (.tuned profile outcome)
  | .measured c outcome => some (.measured c outcome)
  | .compared c results outcome => some (.compared c results outcome)
  | _ => none

/-- A run that keeps the calls of its helpers. -/
def startEntered (p : Plan τ) : Recorded HelperCall τ Unit :=
  p.startWith call?

/-- Nothing but the test cases has a part in the register. -/
theorem startEntered_eq (p : Plan τ) : p.startEntered = (do
    let learnt ← Keeping.beside p.connect
    Keeping.beside p.deployAssets
    Keeping.beside (reach .running)
    p.runCasesWith call? learnt.1 learnt.2 1 p.cases
    Keeping.beside p.wrapUp) := by
  unfold startEntered startWith
  rw [connectWith_beside fun _ => rfl, deployWith_beside fun _ => rfl, reachWith_beside fun _ => rfl,
    wrapUpWith_beside (fun _ => rfl) _ fun _ _ => rfl]

/-! ### What is entered -/

/-- What is entered when a test case is tuned, by the profile that is applied before. -/
inductive TuneCalls (c : TestCase) (applied : String) :
    List HelperCall → Except Failure Unit → String → Prop
  | idle (h : c.tuning = "" ∨ c.tuning = applied) : TuneCalls c applied [] (.ok ()) applied
  | applied (h : ¬ (c.tuning = "" ∨ c.tuning = applied)) :
      TuneCalls c applied [.tuned c.tuning (.ok ())] (.ok ()) c.tuning
  | refused {x : Failure} (h : ¬ (c.tuning = "" ∨ c.tuning = applied)) :
      TuneCalls c applied [.tuned c.tuning (.error x)] (.error x) applied

/-- What is entered when results are compared. -/
inductive JudgeCalls (p : Plan τ) (c : TestCase) (results : List Result) :
    List HelperCall → Except Failure Unit → Prop
  | unjudged (h : p.team.compare = none) : JudgeCalls p c results [] (.ok ())
  | judged {verdict : Bool} (h : p.team.compare.isSome = true) :
      JudgeCalls p c results [.compared c results (.ok verdict)] (.ok ())
  | failed {x : Failure} (h : p.team.compare.isSome = true) :
      JudgeCalls p c results [.compared c results (.error x)] (.error x)

/-- What a test case enters, by the profile that is applied before and the one afterwards. -/
inductive CaseCalls (p : Plan τ) (c : TestCase) (applied : String) :
    List HelperCall → Except Failure Unit → String → Prop
  | unscaled {x : Failure} : CaseCalls p c applied [] (.error x) applied
  | untuned {tuning : List HelperCall} {x : Failure} {applied' : String}
      (htuning : TuneCalls c applied tuning (.error x) applied') :
      CaseCalls p c applied tuning (.error x) applied'
  | unmeasured {tuning : List HelperCall} {x : Failure} {applied' : String}
      (htuning : TuneCalls c applied tuning (.ok ()) applied') :
      CaseCalls p c applied (tuning ++ [.measured c (.error x)]) (.error x) applied'
  | warm {tuning : List HelperCall} {results : List Result} {applied' : String}
      (htuning : TuneCalls c applied tuning (.ok ()) applied') (hwarm : c.warmup = true) :
      CaseCalls p c applied (tuning ++ [.measured c (.ok results)]) (.ok ()) applied'
  | judged {tuning judging : List HelperCall} {results : List Result}
      {verdict r : Except Failure Unit} {applied' : String}
      (htuning : TuneCalls c applied tuning (.ok ()) applied') (hwarm : c.warmup = false)
      (hjudging : JudgeCalls p c results judging verdict)
      (hfailed : ∀ x, verdict = .error x → r = .error x) :
      CaseCalls p c applied (tuning ++ .measured c (.ok results) :: judging) r applied'

/-- What test cases enter one after the other, up to the first one that fails. -/
inductive CasesCalls (p : Plan τ) :
    List TestCase → String → List HelperCall → Except Failure Unit → String → Prop
  | none {applied : String} : CasesCalls p [] applied [] (.ok ()) applied
  | more {c : TestCase} {rest : List TestCase} {applied applied₁ applied' : String}
      {calls later : List HelperCall} {r : Except Failure Unit}
      (first : CaseCalls p (c.forRun p.run) applied calls (.ok ()) applied₁)
      (others : CasesCalls p rest applied₁ later r applied') :
      CasesCalls p (c :: rest) applied (calls ++ later) r applied'
  | broken {c : TestCase} {rest : List TestCase} {applied applied' : String}
      {calls : List HelperCall} {x : Failure}
      (first : CaseCalls p (c.forRun p.run) applied calls (.error x) applied') :
      CasesCalls p (c :: rest) applied calls (.error x) applied'

section
variable {p : Plan τ} {s s' : RunState} {calls calls' : List HelperCall} {evs : List (Event τ)}
  {r : Except Failure Unit} {c : TestCase}

omit [TimeScale τ] in
theorem tuneEntered_leaves (h : (p.tuneWith call? c).Leaves (s, calls) evs r (s', calls')) :
    ∃ new, calls' = calls ++ new ∧ TuneCalls c s.tuning new r s'.tuning := by
  rcases Keeping.leaves_beside_bind.mp h with ⟨x, hx, -⟩ | ⟨v, s₁, _, _, hgot, h₁, rfl⟩
  · cases (Keeping.leaves_get.mp hx).2.1
  obtain ⟨rfl, hv, rfl⟩ := Keeping.leaves_get.mp hgot
  obtain rfl := Except.ok.inj hv
  by_cases hidle : c.tuning = "" ∨ c.tuning = v.tuning
  · rw [if_neg (by simpa using fun hempty => hidle.resolve_left hempty)] at h₁
    obtain ⟨-, rfl, hs⟩ := Keeping.leaves_pure.mp h₁
    cases hs
    exact ⟨[], (List.append_nil _).symm, .idle hidle⟩
  · rw [if_pos (by simpa [not_or] using hidle)] at h₁
    rcases leaves_calling_bind h₁ with ⟨x, -, rfl, rfl, rfl⟩ | ⟨_, _, _, -, h₂, rfl⟩
    · exact ⟨_, rfl, .refused hidle⟩
    · obtain ⟨hset, rfl⟩ := Keeping.leaves_beside.mp h₂
      obtain ⟨-, rfl, rfl⟩ := Keeping.leaves_modify.mp hset
      exact ⟨_, rfl, .applied hidle⟩

omit [TimeScale τ] in
theorem compareEntered_leaves {results : List Result}
    (h : (p.compareWith call? c results).Leaves (s, calls) evs r (s', calls')) :
    ∃ new, calls' = calls ++ new ∧ JudgeCalls p c results new r ∧ s'.tuning = s.tuning := by
  unfold compareWith at h
  cases hcompare : p.team.compare with
  | none =>
    rw [hcompare] at h
    obtain ⟨-, rfl, hs⟩ := Keeping.leaves_pure.mp h
    cases hs
    exact ⟨[], (List.append_nil _).symm, .unjudged hcompare, rfl⟩
  | some comparator =>
    rw [hcompare] at h
    have hsome : p.team.compare.isSome = true := by rw [hcompare]; rfl
    rcases leaves_calling_bind h with ⟨x, -, rfl, rfl, rfl⟩ | ⟨verdict, _, _, -, h₁, rfl⟩
    · exact ⟨_, rfl, .failed hsome, rfl⟩
    cases verdict with
    | true =>
      obtain ⟨-, rfl, hs⟩ := Keeping.leaves_pure.mp h₁
      cases hs
      exact ⟨_, rfl, .judged hsome, rfl⟩
    | false =>
      obtain ⟨_, h₂, rfl⟩ := Keeping.leaves_beside_log_bind.mp h₁
      obtain ⟨hset, rfl⟩ := Keeping.leaves_beside.mp h₂
      obtain ⟨-, rfl, rfl⟩ := Keeping.leaves_modify.mp hset
      exact ⟨_, rfl, .judged hsome, rfl⟩

omit [TimeScale τ] in
theorem withSink_tuning {step : Keeping Sink τ Unit} (h : (withSink step).Leaves s evs r s') :
    s'.tuning = s.tuning := by
  rcases withSink_leaves h with ⟨-, -, -, rfl⟩ | ⟨_, _, -, -, rfl⟩ <;> rfl

variable {metadata : ClusterMetadata} {metrics : MetricsServer}

/-- **What a test case enters.** -/
theorem runCaseEntered_leaves
    (h : (p.runCaseWith call? metadata metrics c).Leaves (s, calls) evs r (s', calls')) :
    ∃ new, calls' = calls ++ new ∧ CaseCalls p c s.tuning new r s'.tuning := by
  rcases Keeping.leaves_beside_bind.mp h with ⟨x, hx, rfl, rfl⟩ | ⟨_, s₁, _, _, hscaled, h₁, rfl⟩
  · obtain ⟨-, rfl⟩ := Keeping.leaves_lift.mp hx
    exact ⟨[], (List.append_nil _).symm, .unscaled⟩
  obtain ⟨-, rfl⟩ := Keeping.leaves_lift.mp hscaled
  rcases Keeping.leaves_bind.mp h₁ with ⟨x, hx, rfl⟩ | ⟨_, ⟨s₂, calls₂⟩, _, _, htuned, h₂, rfl⟩
  · obtain ⟨tuning, rfl, htuning⟩ := tuneEntered_leaves hx
    exact ⟨tuning, rfl, .untuned htuning⟩
  obtain ⟨tuning, rfl, htuning⟩ := tuneEntered_leaves htuned
  rcases leaves_calling_bind h₂ with ⟨x, -, rfl, rfl, rfl⟩ | ⟨results, _, _, -, h₃, rfl⟩
  · exact ⟨_, List.append_assoc .., .unmeasured htuning⟩
  cases hwarm : c.warmup with
  | true =>
    rw [hwarm, if_pos rfl] at h₃
    obtain ⟨hlog, rfl⟩ := Keeping.leaves_beside.mp h₃
    obtain ⟨hlogged, rfl⟩ := Keeping.leaves_lift.mp hlog
    obtain ⟨-, rfl⟩ := Action.leaves_log.mp hlogged
    exact ⟨_, List.append_assoc .., .warm htuning hwarm⟩
  | false =>
    rw [hwarm, if_neg Bool.false_ne_true] at h₃
    rcases Keeping.leaves_bind.mp h₃ with ⟨x, hx, rfl⟩ | ⟨_, ⟨s₃, calls₃⟩, _, _, hjudged, h₄, rfl⟩
    · obtain ⟨judging, rfl, hjudging, hsame⟩ := compareEntered_leaves hx
      rw [hsame]
      exact ⟨_, by simp [call?], .judged htuning hwarm hjudging fun _ h => h⟩
    · obtain ⟨judging, rfl, hjudging, hsame⟩ := compareEntered_leaves hjudged
      rw [withSinkWith_beside fun _ _ => rfl] at h₄
      obtain ⟨hstoring, rfl⟩ := Keeping.leaves_beside.mp h₄
      rw [withSink_tuning hstoring, hsame]
      exact ⟨_, by simp [call?], .judged htuning hwarm hjudging fun _ h => nomatch h⟩

/-- **What test cases enter**, by induction on them. -/
theorem runCasesEntered_leaves {number : Nat} {cases : List TestCase}
    (h : (p.runCasesWith call? metadata metrics number cases).Leaves (s, calls) evs r (s', calls')) :
    ∃ new, calls' = calls ++ new ∧ CasesCalls p cases s.tuning new r s'.tuning := by
  induction cases generalizing number s calls evs with
  | nil =>
    obtain ⟨-, rfl, hs⟩ := Keeping.leaves_pure.mp h
    cases hs
    exact ⟨[], (List.append_nil _).symm, .none⟩
  | cons c rest ih =>
    obtain ⟨_, h₁, rfl⟩ := Keeping.leaves_beside_log_bind.mp h
    obtain ⟨_, h₂, rfl⟩ := Keeping.leaves_beside_log_bind.mp h₁
    rcases Keeping.leaves_bind.mp h₂ with ⟨x, hx, rfl⟩ | ⟨_, ⟨s₁, calls₁⟩, _, _, hcase, h₃, rfl⟩
    · obtain ⟨new, rfl, hbroken⟩ := runCaseEntered_leaves hx
      exact ⟨new, rfl, .broken hbroken⟩
    · obtain ⟨new, rfl, hfirst⟩ := runCaseEntered_leaves hcase
      obtain ⟨later, rfl, hrest⟩ := ih h₃
      exact ⟨new ++ later, List.append_assoc .., .more hfirst hrest⟩

theorem wrapUp_tuning (h : p.wrapUp.Leaves s evs r s') : s'.tuning = s.tuning := by
  cases wrapUp_leaves h with
  | unstored hstoring => exact withSink_tuning hstoring
  | kept _ hstoring => exact (withSink_tuning hstoring :)
  | unremoved _ hstoring hremoving =>
    rw [(teardown_leaves hremoving).1]
    exact (withSink_tuning hstoring :)
  | removed _ hstoring hremoving =>
    rw [(teardown_leaves hremoving).1]
    exact (withSink_tuning hstoring :)

/-- What a start enters: nothing if it fails before its first test case, and otherwise what its test
cases enter; the start ends as they do if one of them fails. -/
inductive StartCalls (p : Plan τ) (applied : String) :
    List HelperCall → Except Failure Unit → RunState → Prop
  | unopened {x : Failure} {s' : RunState} (hphase : s'.phase.isOpen = true)
      (htuning : s'.tuning = applied) : StartCalls p applied [] (.error x) s'
  | broken {calls : List HelperCall} {x : Failure} {s' : RunState}
      (hcases : CasesCalls p p.cases applied calls (.error x) s'.tuning)
      (hphase : s'.phase = .running) : StartCalls p applied calls (.error x) s'
  | closed {calls : List HelperCall} {r : Except Failure Unit} {s' : RunState}
      (hcases : CasesCalls p p.cases applied calls (.ok ()) s'.tuning) :
      StartCalls p applied calls r s'

/-- **What a start enters.** -/
theorem startEntered_leaves (hs : s.phase.isOpen = true)
    (h : p.startEntered.Leaves (s, []) evs r (s', calls')) :
    StartCalls p s.tuning calls' r s' := by
  rw [startEntered_eq] at h
  rcases Keeping.leaves_beside_bind.mp h with
    ⟨x, hx, rfl, rfl⟩ | ⟨⟨metadata, metrics⟩, s₁, _, _, hconnecting, h₁, rfl⟩
  · obtain ⟨_, -, ⟨-, rfl⟩ | ⟨⟨_, hv⟩, -⟩⟩ := connect_leaves hx
    · exact .unopened hs rfl
    · cases hv
  obtain ⟨_, -, ⟨⟨_, hv⟩, -⟩ | ⟨-, -, rfl⟩⟩ := connect_leaves hconnecting
  · cases hv
  rcases Keeping.leaves_beside_bind.mp h₁ with ⟨x, hx, rfl, rfl⟩ | ⟨_, s₂, _, _, hdeploying, h₂, rfl⟩
  · obtain ⟨_, -, -, rfl⟩ | ⟨_, hr, -⟩ := deployAssets_leaves hx
    · exact .unopened rfl rfl
    · cases hr
  obtain ⟨_, hr, -⟩ | ⟨_, -, -, rfl⟩ := deployAssets_leaves hdeploying
  · cases hr
  rcases Keeping.leaves_beside_bind.mp h₂ with ⟨x, hx, -⟩ | ⟨_, s₃, _, _, hreaching, h₃, rfl⟩
  · cases (Keeping.leaves_modify.mp hx).2.1
  obtain ⟨-, -, rfl⟩ := Keeping.leaves_modify.mp hreaching
  rcases Keeping.leaves_bind.mp h₃ with ⟨x, hx, rfl⟩ | ⟨_, ⟨s₄, calls₄⟩, _, _, hcases, h₄, rfl⟩
  · obtain ⟨new, rfl, hnew⟩ := runCasesEntered_leaves hx
    exact .broken hnew (runCases_along ((runCasesWith_shadows call? p _ _ _ _).leaves hx)).phase_eq
  · obtain ⟨new, rfl, hnew⟩ := runCasesEntered_leaves hcases
    obtain ⟨hclosing, rfl⟩ := Keeping.leaves_beside.mp h₄
    rw [← wrapUp_tuning hclosing] at hnew
    exact .closed hnew

end

/-! ### Stages that ask no helper -/

/-- A stage that asks no helper, and after which the verdict of the run is what it was. -/
structure Quiet (m : Stage τ α) : Prop where
  asks : m.Asks fun q => q.Common ∨ q.Stores
  keeps : m.Keeps fun s s' => s'.passed = s.passed

omit [TimeScale τ] in
theorem quiet_lift {work : Action τ α} (h : work.Asks Question.Common) :
    Quiet (Keeping.lift work) where
  asks := Keeping.asks_lift (h.mono fun _ => .inl)
  keeps := Keeping.keeps_lift (R := fun s s' : RunState => s'.passed = s.passed) (fun _ => rfl) work

omit [TimeScale τ] in
theorem quiet_log (level : Level) (text : String) :
    Quiet (Keeping.lift (Action.log level text) : Stage τ Unit) :=
  quiet_lift (Action.asks_log level text)

omit [TimeScale τ] in
theorem quiet_get : Quiet (get : Stage τ RunState) where
  asks := Keeping.asks_get
  keeps := Keeping.keeps_get fun _ => rfl

omit [TimeScale τ] in
theorem quiet_modify {f : RunState → RunState} (h : ∀ s, (f s).passed = s.passed) :
    Quiet (modify f : Stage τ Unit) where
  asks := Keeping.asks_modify f
  keeps := Keeping.keeps_modify h

omit [TimeScale τ] in
theorem quiet_withSink {step : Keeping Sink τ Unit} (h : step.Asks Question.Stores) :
    Quiet (withSink step) where
  asks := asks_withSink (h.mono fun _ => .inr)
  keeps _ _ _ _ hl := by
    rcases withSink_leaves hl with ⟨-, -, -, rfl⟩ | ⟨_, _, -, -, rfl⟩ <;> rfl

section
variable {p : Plan τ}

omit [TimeScale τ] in
theorem quiet_connect (h : p.team.connect.Asks Question.Common) : Quiet p.connect where
  asks := (asks_connect_of common_of_learns h).mono fun _ => .inl
  keeps _ _ _ _ hl := by
    obtain ⟨_, -, ⟨-, rfl⟩ | ⟨-, -, rfl⟩⟩ := connect_leaves hl <;> rfl

omit [TimeScale τ] in
theorem quiet_deployAssets : Quiet p.deployAssets where
  asks := asks_deployAssets.mono fun q h => .inl (common_of_creates q h)
  keeps _ _ _ _ hl := by
    obtain ⟨_, -, -, rfl⟩ | ⟨_, -, -, rfl⟩ := deployAssets_leaves hl <;> rfl

theorem wrapUp_passed {s s' : RunState} {evs : List (Event τ)} {r : Except Failure Unit}
    (h : p.wrapUp.Leaves s evs r s') : s'.passed = s.passed := by
  have hclose : Quiet (withSink Sink.close : Stage τ Unit) := quiet_withSink Sink.asks_close
  cases wrapUp_leaves h with
  | unstored hstoring => exact hclose.keeps _ _ _ _ hstoring
  | kept _ hstoring => exact (hclose.keeps _ _ _ _ hstoring :)
  | unremoved _ hstoring hremoving =>
    rw [(teardown_leaves hremoving).1]
    exact (hclose.keeps _ _ _ _ hstoring :)
  | removed _ hstoring hremoving =>
    rw [(teardown_leaves hremoving).1]
    exact (hclose.keeps _ _ _ _ hstoring :)

theorem quiet_wrapUp : Quiet p.wrapUp where
  asks := asks_wrapUp.mono fun q h => h.symm.imp_left (common_of_removes q)
  keeps _ _ _ _ hl := wrapUp_passed hl

/-! ### What holds of all that is entered -/

variable {P : RunState → List (Event τ) → List HelperCall → RunState → Prop} (hP : Composes P)
  (hquiet : ∀ s evs s', (∀ e ∈ evs, e.Asks fun q => q.Common ∨ q.Stores) → s'.passed = s.passed →
    P s evs [] s')
include hquiet

omit [TimeScale τ] in
theorem enters_quiet {m : Stage τ α} (hm : Quiet m) : Enters P (Keeping.beside m) :=
  enters_beside fun _ _ _ _ h => hquiet _ _ _ (hm.asks _ _ _ _ h) (hm.keeps _ _ _ _ h)

variable (hconnect : p.team.connect.Asks Question.Common)
  (htune : ∀ s profile evs r, (p.team.tune profile).Leaves evs r →
    P s evs [.tuned profile r] s)
  (hdrive : ∀ s c metadata server podMetrics evs r,
    (p.team.drive c metadata server podMetrics).Leaves evs r → P s evs [.measured c r] s)
  (hcompare : ∀ c results, Enters P (p.compareWith call? c results))
include hP htune hdrive hcompare

theorem runCaseEntered_enters (metadata : ClusterMetadata) (metrics : MetricsServer)
    (c : TestCase) : Enters P (p.runCaseWith call? metadata metrics c) := by
  have htuning : Enters P (p.tuneWith call? c) := by
    refine enters_bind hP (enters_quiet hquiet quiet_get) fun s => ?_
    split
    · refine enters_bind hP (enters_calling fun s => htune s _) fun _ => ?_
      exact enters_quiet hquiet (quiet_modify fun _ => rfl)
    · exact enters_pure hP _
  refine enters_bind hP (enters_quiet hquiet (quiet_lift (asks_reconcile_of common_of_handles
    common_of_handles _ _ _ _))) fun _ => enters_bind hP htuning fun _ => ?_
  refine enters_bind hP (enters_calling fun s => hdrive s c _ _ _) fun results => ?_
  split
  · exact enters_quiet hquiet (quiet_log _ _)
  · refine enters_bind hP (hcompare c results) fun _ => ?_
    rw [withSinkWith_beside fun _ _ => rfl]
    exact enters_quiet hquiet (quiet_withSink (Sink.asks_accept _))

theorem runCasesEntered_enters (metadata : ClusterMetadata) (metrics : MetricsServer)
    (number : Nat) (cases : List TestCase) :
    Enters P (p.runCasesWith call? metadata metrics number cases) := by
  induction cases generalizing number with
  | nil => exact enters_pure hP _
  | cons c rest ih =>
    refine enters_bind hP (enters_quiet hquiet (quiet_log _ _)) fun _ => ?_
    refine enters_bind hP (enters_quiet hquiet (quiet_log _ _)) fun _ => ?_
    exact enters_bind hP (runCaseEntered_enters hP hquiet htune hdrive hcompare metadata metrics _)
      fun _ => ih (number + 1)

include hconnect in
/-- **What holds of every call of a helper holds of all that a start enters.** -/
theorem startEntered_enters : Enters P p.startEntered := by
  rw [startEntered_eq]
  refine enters_bind hP (enters_quiet hquiet (quiet_connect hconnect)) fun learnt => ?_
  refine enters_bind hP (enters_quiet hquiet quiet_deployAssets) fun _ => ?_
  refine enters_bind hP (enters_quiet hquiet (quiet_modify fun _ => rfl)) fun _ => ?_
  refine enters_bind hP (runCasesEntered_enters hP hquiet htune hdrive hcompare _ _ _ _) fun _ => ?_
  exact enters_quiet hquiet quiet_wrapUp

end

/-! ### What events tell about the register -/

section
variable {p : Plan τ} {read : Event τ → Option β} {entry : HelperCall → Option β}
  (hquiet : ∀ e : Event τ, (e.Asks fun q => q.Common ∨ q.Stores) → read e = none)
  (hconnect : p.team.connect.Asks Question.Common)
  (htune : ∀ profile evs r, (p.team.tune profile).Leaves evs r →
    evs.filterMap read = [HelperCall.tuned profile r].filterMap entry)
  (hdrive : ∀ c metadata server podMetrics evs r,
    (p.team.drive c metadata server podMetrics).Leaves evs r →
      evs.filterMap read = [HelperCall.measured c r].filterMap entry)
  (hcompare : ∀ comparator, p.team.compare = some comparator → ∀ c results evs r,
    (comparator c results).Leaves evs r →
      evs.filterMap read = [HelperCall.compared c results r].filterMap entry)
include hquiet hconnect htune hdrive hcompare

/-- **What can be read off the events can be read off the register**, if that is so for each
helper. -/
theorem startEntered_tells :
    Enters (fun _ evs new _ => evs.filterMap read = new.filterMap entry) p.startEntered := by
  have hnone : ∀ {evs : List (Event τ)}, (∀ e ∈ evs, e.Asks fun q => q.Common ∨ q.Stores) →
      evs.filterMap read = [] := fun h =>
    List.filterMap_eq_nil_iff.mpr fun e he => hquiet e (h e he)
  refine startEntered_enters ⟨fun _ => rfl, fun h h' => ?_⟩ (fun _ _ _ h _ => hnone h) hconnect
    (fun _ => htune) (fun _ => hdrive) fun c results s calls evs r s' calls' hl => ?_
  · rw [List.filterMap_append, List.filterMap_append, h, h']
  unfold compareWith at hl
  cases hsome : p.team.compare with
  | none =>
    rw [hsome] at hl
    obtain ⟨rfl, -, hs⟩ := Keeping.leaves_pure.mp hl
    cases hs
    exact ⟨[], (List.append_nil _).symm, rfl⟩
  | some comparator =>
    rw [hsome] at hl
    rcases leaves_calling_bind hl with ⟨x, hx, -, -, rfl⟩ | ⟨verdict, first, rest, hv, h₁, rfl⟩
    · exact ⟨_, rfl, hcompare comparator hsome c results _ _ hx⟩
    -- After the verdict there is at most a line of the log.
    have hrest : rest.filterMap read = [] ∧
        calls' = calls ++ [.compared c results (.ok verdict)] := by
      cases verdict with
      | true =>
        obtain ⟨rfl, -, hs⟩ := Keeping.leaves_pure.mp h₁
        cases hs
        exact ⟨rfl, rfl⟩
      | false =>
        obtain ⟨_, h₂, rfl⟩ := Keeping.leaves_beside_log_bind.mp h₁
        obtain ⟨hset, rfl⟩ := Keeping.leaves_beside.mp h₂
        obtain ⟨rfl, -, -⟩ := Keeping.leaves_modify.mp hset
        exact ⟨hnone (List.forall_mem_singleton.mpr trivial), rfl⟩
    refine ⟨_, hrest.2, ?_⟩
    rw [List.filterMap_append, hrest.1, List.append_nil]
    exact hcompare comparator hsome c results _ _ hv

end

/-- **In an observed team with a tuner of the surroundings the register of a start is what its events
tell.** -/
theorem startEntered_told {p : Plan τ} (hp : p.team.Observed) (htune : p.team.tune = Outside.tune) :
    Enters (fun _ evs new _ => evs.filterMap Event.helper? = new) p.startEntered := by
  have htells : Enters (fun _ evs new _ => evs.filterMap Event.helper? = new.filterMap some)
      p.startEntered := by
    refine startEntered_tells (fun e he => ?_) (hp.asks_connect.mono common_of_learns)
      (fun profile evs r h => ?_) (fun c metadata server podMetrics evs r h => ?_)
      fun comparator hsome c results evs r h => ?_
    · cases e with
      | asked q reply time =>
        cases q <;> first | rfl | exact (he.elim id id).elim
      | _ => rfl
    · rw [htune] at h
      obtain ⟨time, rfl⟩ := Outside.tune_leaves h
      rfl
    · obtain ⟨time, rfl⟩ := hp.drive_leaves h
      rfl
    · rcases hp.compare with hnone | houtside
      · cases hnone.symm.trans hsome
      · cases houtside.symm.trans hsome
        obtain ⟨time, rfl⟩ := Outside.compare_leaves h
        rfl
  intro s calls evs r s' calls' h
  obtain ⟨new, hnew, hread⟩ := htells _ _ _ _ _ _ h
  exact ⟨new, hnew, hread.trans List.filterMap_some⟩

end Plan
end IngressBench
