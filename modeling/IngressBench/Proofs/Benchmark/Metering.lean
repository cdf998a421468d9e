import IngressBench.Proofs.Benchmark.Rounds

/-!
How little the metrics server matters. A measurement asks it once a sample, and goes on as if it had
not, unless a value inside the answer is not of the form that is looked for: such an answer is a
refusal, and ends the measurement. So of two worlds that differ in the answers of the metrics server
only, a measurement does the same in both, and ends the same but for the processor time of the routers,
exactly when it meets the same refusals (`Load.run_unmoved_iff`).

The two runs go side by side until a refusal comes that only one of them meets (`Program.Twins`,
`Parts`). The one that meets it does nothing any more (`Load.endsAt_refused`), and the other one has
something left to do, or ends well (`Load.goesOn_run`).
-/
namespace IngressBench

variable {τ σ₁ σ₂ : Type}

/-- The result without the processor time of the routers. -/
def Result.unmetered (r : Result) : Result :=
  { r with routerCpu := none }

namespace Load

variable {ns : String} {c : TestCase} {metadata : ClusterMetadata} {routers : Routers}
  {command : List String} {pods : List (Option String)} {number left : Nat}
  {evs evs₁ evs₂ : List (Event τ)} {call : HttpCall} {reply : Except HttpFault HttpAnswer}

/-! ### Refusals -/

/-- The failure of a reply with a value inside it that is not of its form. -/
def refusal (call : HttpCall) (reply : Except HttpFault HttpAnswer) : Option Failure :=
  match MetricsServer.told call reply with
  | .error x => if x.isMisshapen then some x else none
  | .ok _ => none

/-- Whether a query is refused, and with which failure. -/
def query? : Event τ → Option (Option Failure)
  | .asked (.http call) reply _ => some (refusal call reply)
  | _ => none

/-- The queries of a row: the failure of each of them that is refused. -/
def refusals (evs : List (Event τ)) : List (Option Failure) :=
  evs.filterMap query?

theorem refusals_append (first rest : List (Event τ)) :
    refusals (first ++ rest) = refusals first ++ refusals rest :=
  List.filterMap_append

theorem metered_error_iff {x : Failure} :
    metered call reply = .error x ↔ refusal call reply = some x := by
  unfold metered refusal
  cases htold : MetricsServer.told call reply with
  | ok _ => simp
  | error y =>
    have hexplains := MetricsServer.told_error htold
    cases y <;> simp_all [MetricsServer.Explains, isTolerated, Failure.isMisshapen]

theorem metered_ok_iff : (∃ cpu, metered call reply = .ok cpu) ↔ refusal call reply = none := by
  rw [Option.eq_none_iff_forall_ne_some]
  constructor
  · rintro ⟨cpu, hcpu⟩ x hx
    rw [metered_error_iff.mpr hx] at hcpu
    cases hcpu
  · intro h
    cases hmetered : metered call reply with
    | ok cpu => exact ⟨cpu, rfl⟩
    | error x => exact absurd (metered_error_iff.mp hmetered) (h x)

/-- The failure that an event ends the measurement with, if it is a refusal. -/
def refused? (e : Event τ) : Option Failure :=
  (query? e).join

theorem query?_of_asks (e : Event τ) (h : e.Asks fun q => ∀ call, q ≠ .http call) :
    query? e = none := by
  unfold query?
  split
  · exact absurd rfl (h _)
  · rfl

theorem refused?_of_asks (e : Event τ) (h : e.Asks fun q => ∀ call, q ≠ .http call) :
    refused? e = none := by
  rw [refused?, query?_of_asks e h]
  rfl

theorem query?_logged {lines : List (Level × String)} {e : Event τ} (h : e ∈ logged lines) :
    query? e = none := by
  obtain ⟨_, -, rfl⟩ := List.mem_map.mp h
  rfl

/-! ### What a refusal ends -/

theorem endsAt_routerCpu {server : MetricsServer} {seconds : Int}
    (hseconds : wholeSeconds c.duration = .ok seconds) :
    (routerCpu server c : Action τ (Option Float)).EndsAt refused? := by
  intro before e after r x h hx
  obtain ⟨reply, time, rfl, hevs⟩ := routerCpu_leaves hseconds h
  have hquery : query? e = some (some x) := Option.join_eq_some_iff.mp hx
  cases before with
  | nil =>
    obtain ⟨rfl, rfl⟩ := List.cons.inj hevs
    have hrefused : refusal (routerCall server seconds) reply = some x := Option.some.inj hquery
    have hmetered := metered_error_iff.mpr hrefused
    rw [warnings_of_error hmetered]
    exact ⟨rfl, hmetered⟩
  | cons _ before =>
    obtain ⟨-, hlines⟩ := List.cons.inj hevs
    have hmem : e ∈ logged (warnings (routerCall server seconds) reply) :=
      hlines ▸ List.mem_append_right before List.mem_cons_self
    rw [query?_logged hmem] at hquery
    cases hquery

variable [TimeScale τ]

/-- **A refusal ends the measurement.** -/
theorem endsAt_refused (metrics : Option MetricsServer) (podMetrics : Bool) :
    (run ns c metadata metrics podMetrics : Action τ (List Result)).EndsAt refused? := by
  apply endsAt_run
  · intro e he
    exact refused?_of_asks e (he.mono fun q hq call hcall => hq (hcall ▸ trivial))
  · intro command pod
    refine Action.endsAt_of_only (Action.Only.mono (asks_runIn ?_ ns command pod) refused?_of_asks)
    exact fun _ _ => nofun
  · intro server seconds hseconds
    exact endsAt_routerCpu hseconds

/-! ### What goes on -/

/-- A query that is answered as it should be, or in a way that is tolerated. -/
def Served (e : Event τ) : Prop :=
  query? e = some none

omit [TimeScale τ] in
theorem not_served_of_asks (e : Event τ) (h : e.Asks fun q => ∀ call, q ≠ .http call) :
    ¬ Served e := by
  intro hserved
  rw [Served, query?_of_asks e h] at hserved
  cases hserved

omit [TimeScale τ] in
theorem outlasts_routerCpu {server : MetricsServer} {seconds : Int}
    (hseconds : wholeSeconds c.duration = .ok seconds) :
    (routerCpu server c : Action τ (Option Float)).Outlasts Served := by
  intro evs r h hmem
  obtain ⟨e, he, hserved⟩ := hmem
  obtain ⟨reply, time, rfl, rfl⟩ := routerCpu_leaves hseconds h
  rcases List.mem_cons.mp he with rfl | he
  · exact metered_ok_iff.mpr (Option.some.inj hserved)
  · rw [Served, query?_logged he] at hserved
    cases hserved

omit [TimeScale τ] in
/-- **A sample whose query is served ends well.** -/
theorem outlasts_sample {seconds : Int} (hseconds : wholeSeconds c.duration = .ok seconds) :
    (sample ns c metadata routers command pods number : Action τ Result).Outlasts Served := by
  have hquiet : ∀ {β : Type} {a : Action τ β}, (a.Asks fun q => ∀ call, q ≠ .http call) →
      a.Only fun e => ¬ Served e := fun ha => Action.Only.mono ha not_served_of_asks
  have hlast : ∀ result : Result, Action.Fails (fun _ => False) (do
      Action.log .info (sampleLine result)
      return result : Action τ Result) := fun _ =>
    Action.fails_bind (Action.fails_perform _) fun _ _ _ => Action.fails_pure _
  refine Action.outlasts_after (hquiet (Action.asks_log _ _)) fun _ => ?_
  refine Action.outlasts_after (hquiet (asks_runAll (fun _ _ => nofun) _ _ _)) fun outs => ?_
  refine Action.outlasts_after (hquiet (Action.asks_ofExcept _)) fun metrics => ?_
  refine Action.outlasts_after (hquiet (Action.asks_ask fun _ => nofun)) fun now => ?_
  refine Action.outlasts_after (hquiet (Action.asks_ofExcept _)) fun result => ?_
  cases routers with
  | none =>
    intro evs r h _
    cases r with
    | ok v => exact ⟨v, rfl⟩
    | error x => exact (hlast result _ _ h).elim
  | some server =>
    exact Action.outlasts_before (outlasts_routerCpu hseconds) fun cpu => hlast _

omit [TimeScale τ] in
theorem runAll_busy (hpods : pods ≠ []) {r : Except Failure (List Document)}
    (h : (runAll ns command pods : Action τ (List Document)).Leaves evs r) : work evs ≠ [] := by
  cases pods with
  | nil => exact absurd rfl hpods
  | cons pod rest =>
    unfold runAll at h
    rcases Action.leaves_bind.mp h with ⟨x, hx, -⟩ | ⟨d, first, second, hd, -, rfl⟩
    · obtain ⟨reply, time, rfl, -⟩ := runIn_hears hx
      exact List.cons_ne_nil _ _
    · obtain ⟨reply, time, rfl, -⟩ := runIn_hears hd
      exact List.cons_ne_nil _ _

omit [TimeScale τ] in
theorem work_ne_nil_of_left {first : List (Event τ)} (h : work first ≠ [])
    (rest : List (Event τ)) : work (first ++ rest) ≠ [] := by
  rw [work_append]
  exact List.append_ne_nil_of_left_ne_nil h _

omit [TimeScale τ] in
/-- A sample that has commands to run has something to do. -/
theorem sample_busy (hsize : 0 < pods.length * c.procs) {r : Except Failure Result}
    (h : (sample ns c metadata routers command pods number : Action τ Result).Leaves evs r) :
    work evs ≠ [] := by
  have htargets : targets pods c.procs ≠ [] := by
    apply List.ne_nil_of_length_pos
    rwa [length_targets]
  obtain ⟨rest, h₁, rfl⟩ := Action.leaves_log_bind.mp h
  show work rest ≠ []
  rcases Action.leaves_bind.mp h₁ with ⟨x, hx, -⟩ | ⟨outs, first, second, houts, -, rfl⟩
  · exact runAll_busy htargets hx
  · exact work_ne_nil_of_left (runAll_busy htargets houts) second

theorem samples_busy (hsize : 0 < pods.length * c.procs) {r : Except Failure (List Result)}
    (h : (samples ns c metadata routers command pods number (left + 1) :
      Action τ (List Result)).Leaves evs r) : work evs ≠ [] := by
  rcases samples_cases h with ⟨x, hx, -⟩ | ⟨result, first, rest, later, hresult, -, -, rfl⟩
  · exact sample_busy hsize hx
  · exact work_ne_nil_of_left (sample_busy hsize hresult) _

/-- **After a query that is served, samples end well or have something left to do**; by induction on
the samples that are left. -/
theorem goesOn_samples {seconds : Int} (hseconds : wholeSeconds c.duration = .ok seconds)
    (hsize : 0 < pods.length * c.procs) {before after : List (Event τ)} {e : Event τ}
    {r : Except Failure (List Result)} (he : Served e)
    (h : (samples ns c metadata routers command pods number left :
      Action τ (List Result)).Leaves (before ++ e :: after) r) :
    (∃ results, r = .ok results) ∨ work after ≠ [] := by
  induction left generalizing number before r with
  | zero =>
    obtain ⟨hnone, -⟩ := Action.leaves_pure.mp h
    simp at hnone
  | succ left ih =>
    rcases samples_cases h with ⟨x, hx, -⟩ | ⟨result, first, rest, later, hresult, hlater, rfl, hevs⟩
    · obtain ⟨_, hok⟩ := outlasts_sample hseconds _ _ hx ⟨e, by simp, he⟩
      cases hok
    rcases append_eq_append_cons hevs.symm with ⟨between, -, rfl⟩ | ⟨between, -, hrest⟩
    · -- The query belongs to the first sample.
      cases left with
      | zero =>
        obtain ⟨-, rfl⟩ := Action.leaves_pure.mp hlater
        exact .inl ⟨_, rfl⟩
      | succ left =>
        refine .inr ?_
        rw [work_append, work_append]
        simp [samples_busy hsize hlater]
    · rcases append_eq_append_cons hrest with ⟨between, hpause, -⟩ | ⟨between, -, rfl⟩
      · -- A pause is no query.
        have hmem : e ∈ (pauseBefore c left : List (Event τ)) := by simp [hpause]
        unfold pauseBefore at hmem
        split at hmem
        · obtain rfl := List.mem_singleton.mp hmem
          cases he
        · cases hmem
      · rcases ih hlater with ⟨results, rfl⟩ | hwork
        · exact .inl ⟨_, rfl⟩
        · exact .inr hwork

theorem goesOn_run (hc : c.Accepted) (metrics : Option MetricsServer) (podMetrics : Bool)
    {before after : List (Event τ)} {e : Event τ} {r : Except Failure (List Result)}
    (he : Served e) (h : (run ns c metadata metrics podMetrics : Action τ (List Result)).Leaves
      (before ++ e :: after) r) : (∃ results, r = .ok results) ∨ work after ≠ [] := by
  have hlocates : ∀ e : Event τ, e.Asks Question.Locates → ¬ Served e := fun e hasks =>
    not_served_of_asks e (hasks.mono fun q hq call hcall => by rw [hcall] at hq; exact hq)
  obtain ⟨o, first, rest, ho, hr, hevs⟩ := Action.leaves_attempt_bind.mp h
  rcases append_eq_append_cons hevs.symm with ⟨between, rfl, -⟩ | ⟨between, -, rfl⟩
  · exact absurd he (hlocates e (asks_prepare ns c _ _ ho e (by simp)))
  rcases prepare_cases ho with ⟨prepared, rfl, hprepares⟩ | ⟨x, rfl, -⟩
  · obtain ⟨seconds, hseconds⟩ := hprepares.seconds
    have hsize : 0 < prepared.2.length * c.procs := by
      rw [hprepares.length_pods]
      exact Nat.mul_pos hc.valid.concurrency hc.valid.procs
    exact goesOn_samples hseconds hsize he hr
  · have hnone := (Action.leaves_throw.mp hr).1
    simp at hnone

/-! ### Two runs -/

/-- Any two replies of the metrics server with the same refusal may stand for each other. -/
def metering : Variation where
  concerns
    | .http _ => True
    | _ => False
  allows
    | .http call, r₁, r₂ => refusal call r₁ = refusal call r₂
    | _, _, _ => False
  tells
    | .http call, reply => warnings call reply
    | _, _ => []

omit [TimeScale τ] in
theorem asks_unconcerned {α : Type} {a : Action τ α}
    (h : a.Asks fun q => ∀ call, q ≠ .http call) : a.Asks fun q => ¬ metering.concerns q := by
  refine h.mono fun q hq hconcerns => ?_
  cases q with
  | http call => exact hq call rfl
  | _ => exact hconcerns

theorem twins_routerCpu (server : MetricsServer) :
    (routerCpu server c : Action τ (Option Float)).run.Twins metering (Agree fun _ _ => True)
      (routerCpu server c).run := by
  cases hseconds : wholeSeconds c.duration with
  | error x =>
    rw [routerCpu_endless hseconds]
    have hasks : (settle (.error x) : Action τ (Option Float)).Asks
        fun q => ∀ call, q ≠ .http call := by
      dsimp only [settle]
      split
      · exact Action.asks_bind (Action.asks_throw _) fun _ =>
          Action.asks_bind (Action.asks_log _ _) fun _ => Action.asks_pure _
      · exact Action.asks_bind (Action.asks_log _ _) fun _ => Action.asks_pure _
    refine (Action.twins_self (asks_unconcerned hasks)).mono fun o _ ho => ?_
    cases ho.eq
    cases o with
    | ok _ => trivial
    | error _ => rfl
  | ok seconds =>
    rw [routerCpu_run hseconds]
    refine Program.Twins.told (v := metering) (q := .http (routerCall server seconds)) trivial
      fun r₁ r₂ hallowed => .done ?_
    have hsame : refusal (routerCall server seconds) r₁ =
      refusal (routerCall server seconds) r₂ := hallowed
    cases hrefused : refusal (routerCall server seconds) r₁ with
    | none =>
      obtain ⟨cpu₁, h₁⟩ := metered_ok_iff.mpr hrefused
      obtain ⟨cpu₂, h₂⟩ := metered_ok_iff.mpr (hsame.symm.trans hrefused)
      rw [h₁, h₂]
      trivial
    | some x =>
      rw [metered_error_iff.mpr hrefused, metered_error_iff.mpr (hsame.symm.trans hrefused)]
      rfl

theorem twins_sample :
    (sample ns c metadata routers command pods number : Action τ Result).run.Twins metering
      (Agree fun r₁ r₂ => r₁.unmetered = r₂.unmetered)
      (sample ns c metadata routers command pods number).run := by
  have hlast : ∀ result : Result, (do
      Action.log .info (sampleLine result)
      return result : Action τ Result).run.Twins metering
        (Agree fun r₁ r₂ => r₁.unmetered = r₂.unmetered) (do
      Action.log .info (sampleLine result)
      return result).run := fun result =>
    Action.twins_after (asks_unconcerned (Action.asks_log _ _)) fun _ => .done rfl
  refine Action.twins_after (asks_unconcerned (Action.asks_log _ _)) fun _ => ?_
  refine Action.twins_after (asks_unconcerned (asks_runAll (fun _ _ => nofun) _ _ _))
    fun outs => ?_
  refine Action.twins_after (asks_unconcerned (Action.asks_ofExcept _)) fun metrics => ?_
  refine Action.twins_after (asks_unconcerned (Action.asks_ask fun _ => nofun)) fun now => ?_
  refine Action.twins_after (asks_unconcerned (Action.asks_ofExcept _)) fun result => ?_
  cases routers with
  | none => exact hlast result
  | some server =>
    refine Action.twins_bind (twins_routerCpu server) fun cpu₁ cpu₂ _ => ?_
    -- The line about a sample does not tell the processor time of the routers.
    refine Action.twins_after (asks_unconcerned (Action.asks_log .info (sampleLine result)))
      fun _ => ?_
    exact .done rfl

/-- Samples are their own twins, but for the processor time of the routers in their results. -/
theorem twins_samples :
    (samples ns c metadata routers command pods number left :
      Action τ (List Result)).run.Twins metering
      (Agree fun rs₁ rs₂ => rs₁.map Result.unmetered = rs₂.map Result.unmetered)
      (samples ns c metadata routers command pods number left).run := by
  induction left generalizing number with
  | zero => exact .done rfl
  | succ left ih =>
    refine Action.twins_bind twins_sample fun r₁ r₂ hsame => ?_
    have hlater : (do
        return r₁ :: (← samples ns c metadata routers command pods (number + 1) left) :
          Action τ (List Result)).run.Twins metering
        (Agree fun rs₁ rs₂ => rs₁.map Result.unmetered = rs₂.map Result.unmetered) (do
        return r₂ :: (← samples ns c metadata routers command pods (number + 1) left)).run := by
      refine Action.twins_bind ih fun rs₁ rs₂ hrest => .done ?_
      show (r₁ :: rs₁).map Result.unmetered = (r₂ :: rs₂).map Result.unmetered
      rw [List.map_cons, List.map_cons, hsame, hrest]
    dsimp only
    split
    · exact Action.twins_after (asks_unconcerned (Action.asks_sleep _)) fun _ => hlater
    · exact hlater

theorem twins_run (metrics : Option MetricsServer) (podMetrics : Bool) :
    (run ns c metadata metrics podMetrics : Action τ (List Result)).run.Twins metering
      (Agree fun rs₁ rs₂ => rs₁.map Result.unmetered = rs₂.map Result.unmetered)
      (run ns c metadata metrics podMetrics).run := by
  have hlocates : (prepare ns c : Action τ _).Asks fun q => ∀ call, q ≠ .http call :=
    (asks_prepare ns c).mono fun q hq call hcall => by
      rw [hcall] at hq
      exact hq
  refine Action.twins_after (asks_unconcerned (Action.asks_attempt hlocates)) fun outcome => ?_
  cases outcome with
  | error x => exact .done rfl
  | ok prepared => exact twins_samples

/-! ### What the metrics server changes -/

/-- Two measurements that did the same work and ended the same, but for the processor time of the
routers in their results. -/
structure Unmoved (t₁ t₂ : Except Failure (List Result) × List (Event τ)) : Prop where
  work : work t₁.2 = work t₂.2
  ends : t₁.1.map (List.map Result.unmetered) = t₂.1.map (List.map Result.unmetered)

omit [TimeScale τ] in
theorem Unmoved.symm {t₁ t₂ : Except Failure (List Result) × List (Event τ)} (h : Unmoved t₁ t₂) :
    Unmoved t₂ t₁ :=
  ⟨h.work.symm, h.ends.symm⟩

omit [TimeScale τ] in
theorem work_eq_of_varies (h : Varies metering evs₁ evs₂) : work evs₁ = work evs₂ :=
  h.filterMap_eq (fun _ _ => rfl) fun _ _ _ _ _ _ => rfl

omit [TimeScale τ] in
theorem refusals_eq_of_varies (h : Varies metering evs₁ evs₂) : refusals evs₁ = refusals evs₂ := by
  refine h.filterMap_eq (fun _ _ => rfl) fun q r₁ r₂ time hconcerns hallowed => ?_
  cases q with
  | http call =>
    have hsame : refusal call r₁ = refusal call r₂ := hallowed
    show some (refusal call r₁) = some (refusal call r₂)
    rw [hsame]
  | _ => exact hconcerns.elim

omit [TimeScale τ] in
theorem ends_eq_of_agree {r₁ r₂ : Except Failure (List Result)}
    (h : Agree (fun rs₁ rs₂ => rs₁.map Result.unmetered = rs₂.map Result.unmetered) r₁ r₂) :
    r₁.map (List.map Result.unmetered) = r₂.map (List.map Result.unmetered) := by
  cases r₁ <;> cases r₂
  · exact congrArg Except.error h
  · exact h.elim
  · exact h.elim
  · exact congrArg Except.ok h

/-- **A refusal that only one of two measurements meets makes them differ**, when they have done the
same work before. -/
theorem not_unmoved_of_refused (hc : c.Accepted) {metrics : Option MetricsServer}
    {podMetrics : Bool} {r₁ r₂ : Except Failure (List Result)}
    {before₁ after₁ before₂ after₂ : List (Event τ)} {e₁ e₂ : Event τ} {x : Failure}
    (h₁ : (run ns c metadata metrics podMetrics : Action τ (List Result)).Leaves
      (before₁ ++ e₁ :: after₁) r₁)
    (h₂ : (run ns c metadata metrics podMetrics : Action τ (List Result)).Leaves
      (before₂ ++ e₂ :: after₂) r₂)
    (hbefore : work before₁ = work before₂) (hcommon : work [e₁] = work [e₂])
    (he₁ : query? e₁ = some (some x)) {refused : Option Failure} (he₂ : query? e₂ = some refused)
    (hdiffer : refused ≠ some x) :
    ¬ Unmoved (r₁, before₁ ++ e₁ :: after₁) (r₂, before₂ ++ e₂ :: after₂) := by
  rintro ⟨hwork, hends⟩
  obtain ⟨rfl, rfl⟩ := endsAt_refused _ _ _ _ _ _ _ h₁ (Option.join_eq_some_iff.mpr he₁)
  cases refused with
  | some y =>
    -- Each of them is refused, but with a failure of its own.
    obtain ⟨-, rfl⟩ := endsAt_refused _ _ _ _ _ _ _ h₂ (Option.join_eq_some_iff.mpr he₂)
    cases hends
    exact hdiffer rfl
  | none =>
    rcases goesOn_run hc _ _ he₂ h₂ with ⟨results, rfl⟩ | hafter
    · cases hends
    · have hsplit : ∀ (before after : List (Event τ)) (e : Event τ),
          work (before ++ e :: after) = work before ++ (work [e] ++ work after) := by
        intro before after e
        rw [work_append, ← work_append [e]]
        rfl
      simp only [hsplit, hbefore, hcommon] at hwork
      have hnone : work after₂ = [] := by simpa [work] using hwork
      exact hafter hnone

omit [TimeScale τ] in
/-- Runs that part meet different refusals. -/
theorem refusals_ne_of_parts {R : σ₁ → σ₂ → Prop} {w₁ : World τ σ₁} {w₂ : World τ σ₂}
    (h : Parts metering R w₁ w₂ evs₁ evs₂) : refusals evs₁ ≠ refusals evs₂ := by
  cases h with
  | @reply q s₁ s₂ time before₁ before₂ later₁ later₂ hq hs hdiffer hcommon =>
    cases q with
    | http call =>
      intro hsame
      rw [refusals_append, refusals_append, refusals_eq_of_varies hcommon] at hsame
      exact hdiffer (List.cons.inj (List.append_cancel_left hsame)).1
    | _ => exact hq.elim

theorem not_unmoved_of_parts (hc : c.Accepted) {metrics : Option MetricsServer} {podMetrics : Bool}
    {r₁ r₂ : Except Failure (List Result)} {R : σ₁ → σ₂ → Prop} {w₁ : World τ σ₁}
    {w₂ : World τ σ₂}
    (h₁ : (run ns c metadata metrics podMetrics : Action τ (List Result)).Leaves evs₁ r₁)
    (h₂ : (run ns c metadata metrics podMetrics : Action τ (List Result)).Leaves evs₂ r₂)
    (h : Parts metering R w₁ w₂ evs₁ evs₂) : ¬ Unmoved (r₁, evs₁) (r₂, evs₂) := by
  cases h with
  | @reply q s₁ s₂ time before₁ before₂ later₁ later₂ hq hs hdiffer hcommon =>
    cases q with
    | http call =>
      have hbefore := work_eq_of_varies hcommon
      have hdiffer : refusal call (w₁.answer (.http call) s₁).1 ≠
        refusal call (w₂.answer (.http call) s₂).1 := hdiffer
      cases hrefused₁ : refusal call (w₁.answer (.http call) s₁).1 with
      | some x =>
        rw [hrefused₁] at hdiffer
        exact not_unmoved_of_refused hc h₁ h₂ hbefore rfl (congrArg some hrefused₁) rfl hdiffer.symm
      | none =>
        cases hrefused₂ : refusal call (w₂.answer (.http call) s₂).1 with
        | some x =>
          rw [hrefused₂] at hdiffer
          exact fun hunmoved => not_unmoved_of_refused hc h₂ h₁ hbefore.symm rfl
            (congrArg some hrefused₂) rfl hdiffer hunmoved.symm
        | none => exact absurd (hrefused₁.trans hrefused₂.symm) hdiffer
    | _ => exact hq.elim

/-- **The answers of the metrics server matter exactly as far as they are refused**: in two worlds that
differ in nothing else, a measurement does the same work and ends the same, but for the processor time
of the routers, exactly when it meets the same refusals. -/
theorem run_unmoved_iff (ns : String) (hc : c.Accepted) (metadata : ClusterMetadata)
    (metrics : Option MetricsServer) (podMetrics : Bool) {R : σ₁ → σ₂ → Prop} {w₁ : World τ σ₁}
    {w₂ : World τ σ₂} (hw : World.Alike metering.loose R w₁ w₂) (now : τ) {s₁ : σ₁} {s₂ : σ₂}
    (hs : R s₁ s₂) :
    let t₁ := w₁.trace now s₁ (run ns c metadata metrics podMetrics).run
    let t₂ := w₂.trace now s₂ (run ns c metadata metrics podMetrics).run
    Unmoved t₁ t₂ ↔ refusals t₁.2 = refusals t₂.2 := by
  intro t₁ t₂
  have hl₁ := w₁.trace_leaves now s₁ (run ns c metadata metrics podMetrics).run
  have hl₂ := w₂.trace_leaves now s₂ (run ns c metadata metrics podMetrics).run
  rcases (twins_run metrics podMetrics).run_or_part hw (Twin.begin now hs) with
    ⟨hagree, htwin⟩ | hparts
  · exact iff_of_true ⟨work_eq_of_varies htwin.events, ends_eq_of_agree hagree⟩
      (refusals_eq_of_varies htwin.events)
  · exact iff_of_false (not_unmoved_of_parts hc hl₁ hl₂ hparts) (refusals_ne_of_parts hparts)

/-! #### One client -/

/-- A cluster with one client, and a metrics server that answers every query with a status and a
body. -/
def scraping (status : Int) (body : String) : World Nat Unit where
  answer q s :=
    match q with
    | .http _ => (.ok ⟨status, "", body⟩, 1, s)
    | q => (printing "{}" (.ok route)).answer q s

omit [TimeScale τ] in
theorem alike_scraping (status₁ status₂ : Int) (body₁ body₂ : String) :
    World.Alike metering.loose Eq (scraping status₁ body₁) (scraping status₂ body₂) where
  stopAt := rfl
  notice := rfl
  same := by
    intro q s₁ s₂ hs hq
    cases hs
    cases q with
    | http _ => exact absurd trivial hq
    | _ => rfl
  allowed := fun _ _ _ _ _ => trivial
  cost := by
    intro q s₁ s₂ hs
    cases hs
    cases q <;> rfl
  next := by
    intro q s₁ s₂ hs
    cases hs
    cases q <;> rfl

theorem accepted_default : TestCase.Accepted {} := by
  have hread : TestCase.ofFields [] = .ok {} := by rfl
  exact .read hread

/-- A metrics server. -/
def monitor : MetricsServer where
  url := "https://metrics.example.com"

/-- A server that fails and one that knows no router make no difference. -/
theorem run_unmoved_failing :
    let empty := "\x7b\"status\": \"success\", \"data\": \x7b\"result\": []\x7d\x7d"
    let t₁ := (scraping 500 "").trace 0 () (run "bench" {} {} (some monitor) true).run
    let t₂ := (scraping 200 empty).trace 0 () (run "bench" {} {} (some monitor) true).run
    refusals t₁.2 = refusals t₂.2 ∧ Unmoved t₁ t₂ := by
  intro empty t₁ t₂
  have hserved : ∀ {found : List (Option Failure)}, found.map Option.isNone = [true] →
      found = [none] := by
    intro found hfound
    obtain ⟨refused, rfl, hnone⟩ := List.map_eq_singleton_iff.mp hfound
    rw [Option.isNone_iff_eq_none.mp hnone]
  have h₁ : (refusals t₁.2).map Option.isNone = [true] := by decide +kernel
  have h₂ : (refusals t₂.2).map Option.isNone = [true] := by decide +kernel
  have hsame : refusals t₁.2 = refusals t₂.2 := (hserved h₁).trans (hserved h₂).symm
  exact ⟨hsame, (run_unmoved_iff "bench" accepted_default {} (some monitor) true
    (alike_scraping 500 200 "" empty) 0 rfl).mpr hsame⟩

/-- **An answer that is a list ends the measurement.** -/
theorem run_not_unmoved :
    TestCase.Accepted {} ∧
      World.Alike metering.loose Eq (scraping 200 "[1]") (scraping 500 "") ∧
      ¬ Unmoved ((scraping 200 "[1]").trace 0 () (run "bench" {} {} (some monitor) true).run)
        ((scraping 500 "").trace 0 () (run "bench" {} {} (some monitor) true).run) := by
  refine ⟨accepted_default, alike_scraping 200 500 "[1]" "", fun h => ?_⟩
  have hisOk : ∀ r : Except Failure (List Result),
      (r.map (List.map Result.unmetered)).isOk = r.isOk := by
    intro r
    cases r <;> rfl
  have hends := congrArg Except.isOk h.ends
  rw [hisOk, hisOk] at hends
  have h₁ : ((scraping 200 "[1]").trace 0 ()
      (run "bench" {} {} (some monitor) true).run).1.isOk = false := by decide +kernel
  have h₂ : ((scraping 500 "").trace 0 ()
      (run "bench" {} {} (some monitor) true).run).1.isOk = true := by decide +kernel
  rw [h₁, h₂] at hends
  cases hends

end Load
end IngressBench
