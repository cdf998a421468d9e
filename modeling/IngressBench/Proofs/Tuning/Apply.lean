import IngressBench.Cluster.Request
import IngressBench.Proofs.Readiness.Ends
import IngressBench.Proofs.Run.Sample
import IngressBench.Tuning.Apply

/-!
Applying a tuning profile. The options go to the ingress controller in one patch, the routers are
waited for only after a patch that succeeded, and a ready router is read before a good end. A
refusal of the cluster and a router that is late are faults of tuning, and a wait that the run is
stopped in stays cancelled; but the failure of an answer that did not arrive, or that lacks
something, is handed on as it is (`apply_classified_iff`).
-/
namespace IngressBench.Tuning

variable {τ σ : Type}

/-! ### Failures -/

/-- Where the run was stopped the failure is a cancelled wait, and a fault of tuning elsewhere. -/
structure Classified (evs : List (Event τ)) (r : Except Failure Unit) : Prop where
  cancelled : .stopped ∈ evs → ∃ report, r = .error (.notReady report) ∧ report.cancelled = true
  tuning : .stopped ∉ evs → ∀ x, r = .error x → ∃ fault, x = .tuning fault

/-- All that counts of the events is whether the run was stopped. -/
theorem Classified.mono {evs more : List (Event τ)} {r : Except Failure Unit}
    (h : Classified evs r) (hstop : .stopped ∈ more ↔ .stopped ∈ evs) : Classified more r where
  cancelled hmem := h.cancelled (hstop.mp hmem)
  tuning hmem := h.tuning (mt hstop.mpr hmem)

/-- The failure of an answer that did not arrive, or that lacks something, stays what it is. -/
theorem failureOf_strays {profile : String} {x : Failure} (h : x.Strays) :
    failureOf profile x = x := by
  rcases h with hmissing | ⟨text, rfl⟩
  · cases hmissing <;> rfl
  · rfl

/-- It is neither a cancelled wait nor a fault of tuning. -/
theorem not_classified {evs : List (Event τ)} {x : Failure} (h : x.Strays) :
    ¬ Classified evs (.error x) := by
  intro hclassified
  by_cases hstop : .stopped ∈ evs
  · obtain ⟨report, hx, -⟩ := hclassified.cancelled hstop
    cases hx
    rcases h with hmissing | ⟨text, hx⟩
    · cases hmissing
    · cases hx
  · obtain ⟨fault, rfl⟩ := hclassified.tuning hstop x rfl
    rcases h with hmissing | ⟨text, hx⟩
    · cases hmissing
    · cases hx

variable [TimeScale τ]

/-- What follows the patch of a profile: nothing when it fails, and else a wait for the routers. -/
inductive AfterPatch (pace : Pace τ) (timeout : τ) :
    Except ApiFault Unit → List (Event τ) → Except Failure Unit → Prop where
  | failed {fault : ApiFault} : AfterPatch pace timeout (.error fault) [] (.error fault.failure)
  | waited {waiting : List (Event τ)} {r : Except Failure Unit}
      (h : (awaitReady pace routerNamespace routerDeployment timeout).Leaves waiting r) :
      AfterPatch pace timeout (.ok ()) waiting r

section
variable {pace : Pace τ} {timeout : τ} {profile : String} {options : List (String × Document)}

theorem applyOptions_leaves {evs : List (Event τ)} {r : Except Failure Unit}
    (h : (applyOptions pace timeout options).Leaves evs r) :
    ∃ reply time waiting, evs = .asked (.api (.tune options)) reply time :: waiting ∧
      AfterPatch pace timeout reply waiting r := by
  rcases Action.leaves_apiOrFail_bind.mp h with ⟨fault, time, rfl, rfl⟩ |
    ⟨-, time, waiting, hwait, rfl⟩
  · exact ⟨.error fault, time, [], rfl, .failed⟩
  · exact ⟨.ok (), time, waiting, rfl, .waited hwait⟩

theorem apply_leaves {evs : List (Event τ)} {r : Except Failure Unit}
    (h : (apply pace timeout profile).Leaves evs r) :
    (∃ x, Profile.read profile = .error x ∧ evs = [] ∧ r = .error x) ∨
      ∃ options reply time waiting e, Profile.read profile = .ok options ∧
        evs = .logged .info s!"Applying ingress tuning profile: {profile}" ::
          .asked (.api (.tune options)) reply time :: waiting ∧
        AfterPatch pace timeout reply waiting e ∧ r = e.mapError (failureOf profile) := by
  rcases Action.leaves_ofExcept_bind.mp h with ⟨x, hx, rfl, rfl⟩ | ⟨options, hoptions, h₁⟩
  · exact .inl ⟨x, hx, rfl, rfl⟩
  obtain ⟨rest, h₂, rfl⟩ := Action.leaves_log_bind.mp h₁
  obtain ⟨e, first, last, hfirst, hlast, rfl⟩ := Action.leaves_attempt_bind.mp h₂
  obtain ⟨reply, time, waiting, rfl, hafter⟩ := applyOptions_leaves hfirst
  refine .inr ⟨options, reply, time, waiting, e, hoptions, ?_, hafter, ?_⟩
  · cases e with
    | ok _ => rw [(Action.leaves_pure.mp hlast).1, List.append_nil]
    | error x => rw [(Action.leaves_throw.mp hlast).1, List.append_nil]
  · cases e with
    | ok _ => exact (Action.leaves_pure.mp hlast).2
    | error x => exact (Action.leaves_throw.mp hlast).2

/-- What the application of a profile leaves after its options were read: the answer to the patch,
the events that follow it, and the end. -/
structure Applied (profile : String) (options : List (String × Document))
    (reply : Except ApiFault Unit) (waiting : List (Event τ)) (r : Except Failure Unit) : Prop where
  /-- The patch is one of the default ingress controller, and holds the options and nothing else. -/
  patch : (ApiCall.tune options).request =
    { group := "custom", operation := "patch_namespaced_custom_object", subject := some "default"
      arguments := [("group", .text "operator.openshift.io"), ("version", .text "v1"),
        ("plural", .text "ingresscontrollers"), ("namespace", .text "openshift-ingress-operator"),
        ("name", .text "default"),
        ("body", .object [("spec", .object [("tuningOptions", .object options)])])] }
  /-- Nothing follows a patch that failed. -/
  unpatched : ∀ fault, reply = .error fault → waiting = []
  /-- After a patch that succeeded the routers are read, -/
  read : reply = .ok () → readings waiting ≠ []
  /-- and nothing else is asked for than the routers and their pending pods. -/
  looks : ∀ e ∈ waiting, e.Asks (Question.LooksAt routerNamespace routerDeployment)
  /-- The end is a good one exactly when a ready router was read. -/
  ready : r = .ok () ↔ ∃ d, .ok d ∈ readings waiting ∧ d.Agrees
  /-- What the cluster refuses, of the patch or of a reading, is told with the profile. -/
  refused : ∀ status reason, reply = .error (.rejected status reason) ∨
    .error (.rejected status reason) ∈ readings waiting →
      r = .error (.tuning (.patch profile reason))

theorem AfterPatch.applied {reply : Except ApiFault Unit} {waiting : List (Event τ)}
    {e : Except Failure Unit} (h : AfterPatch pace timeout reply waiting e) :
    Applied profile options reply waiting (e.mapError (failureOf profile)) := by
  cases h with
  | @failed fault =>
    refine ⟨rfl, fun _ _ => rfl, by simp, by simp, by simp [Except.mapError, readings], ?_⟩
    rintro status reason (hreply | hmem)
    · cases hreply
      rfl
    · simp [readings] at hmem
  | waited hwait =>
    obtain ⟨vain, last, hreadings, -⟩ := awaitReady_reads hwait
    have hdecided := awaitReady_decidedBy hwait
    refine ⟨rfl, by simp, fun _ => by simp [hreadings], asks_awaitReady _ _ _ _ _ _ hwait, ?_, ?_⟩
    · have hok : e.mapError (failureOf profile) = .ok () ↔ e = .ok () := by
        cases e <;> simp [Except.mapError]
      rw [hok, hdecided.ready]
      exact exists_congr fun d => firstDeciding_readings hwait
    · rintro status reason (hreply | hmem)
      · cases hreply
      · rw [(hdecided.failed _ ((firstDeciding_readings hwait).mpr ⟨hmem, trivial⟩)).1]
        rfl

/-- **The failures of a patch and of a wait are classified** unless an answer does not arrive, or
lacks something. -/
theorem AfterPatch.classified_iff {reply : Except ApiFault Unit} {waiting : List (Event τ)}
    {e : Except Failure Unit} (h : AfterPatch pace timeout reply waiting e) :
    Classified waiting (e.mapError (failureOf profile)) ↔
      ¬ ((∃ text, reply = .error (.unreachable text)) ∨ Thwarted waiting) := by
  cases h with
  | @failed fault =>
    cases fault with
    | rejected status reason =>
      have hclear : ¬ Thwarted ([] : List (Event τ)) := by
        intro hthwarted
        cases hthwarted with
        | unreached h | malformed h => simp [readings] at h
        | unlisted he => simp at he
      refine iff_of_true ⟨by simp, fun _ x hx => ?_⟩ (by simp [hclear])
      cases hx
      exact ⟨_, rfl⟩
    | unreachable text => exact iff_of_false (not_classified (.inr ⟨text, rfl⟩)) (by simp)
  | waited hwait =>
    cases awaitReady_ends hwait with
    | ready hlast hagrees hclear hstop =>
      refine iff_of_true ⟨fun hmem => absurd hmem hstop, fun _ x hx => ?_⟩ (by simp [hclear])
      cases hx
    | refused hlast hclear hstop =>
      refine iff_of_true ⟨fun hmem => absurd hmem hstop, fun _ x hx => ?_⟩ (by simp [hclear])
      cases hx
      exact ⟨_, rfl⟩
    | @unready d report hlast hunready hclear hstop =>
      refine iff_of_true ⟨fun hmem => ⟨report, ?_, hstop.mpr hmem⟩, fun hmem x hx => ?_⟩
        (by simp [hclear])
      · simp [Except.mapError, failureOf, hstop.mpr hmem]
      · have hlate : report.cancelled = false := by simpa [hmem] using hstop
        simp [Except.mapError, failureOf, hlate] at hx
        exact ⟨_, hx.symm⟩
    | thwarted hthwarted hstrays =>
      refine iff_of_false ?_ (by simp [hthwarted])
      show ¬ Classified waiting (.error (failureOf profile _))
      rw [failureOf_strays hstrays]
      exact not_classified hstrays

end

/-- **Applying a profile classifies its failures** unless an answer does not arrive, or lacks
something. A profile that cannot be read leaves nothing. -/
theorem apply_classified_iff (w : World τ σ) (now : τ) (world : σ) (pace : Pace τ) (timeout : τ)
    (profile : String) :
    let run := w.trace now world (apply pace timeout profile).run
    (∃ x, Profile.read profile = .error x ∧ run = (.error x, [])) ∨
      ∃ options reply time waiting, Profile.read profile = .ok options ∧
        run.2 = .logged .info s!"Applying ingress tuning profile: {profile}" ::
          .asked (.api (.tune options)) reply time :: waiting ∧
        Applied profile options reply waiting run.1 ∧
        (Classified run.2 run.1 ↔
          ¬ ((∃ text, reply = .error (.unreachable text)) ∨ Thwarted waiting)) := by
  intro run
  have hleaves := w.trace_leaves now world (apply pace timeout profile).run
  rcases apply_leaves hleaves with ⟨x, hx, hevs, hr⟩ |
    ⟨options, reply, time, waiting, e, hoptions, hevs, hafter, hr⟩
  · exact .inl ⟨x, hx, Prod.ext hr hevs⟩
  · refine .inr ⟨options, reply, time, waiting, hoptions, hevs, ?_, ?_⟩
    · rw [hr]
      exact hafter.applied
    · have hstop : .stopped ∈ run.2 ↔ .stopped ∈ waiting := by simp [run, hevs]
      have hclassified : Classified run.2 run.1 ↔ Classified waiting run.1 :=
        ⟨fun h => h.mono hstop.symm, fun h => h.mono hstop⟩
      rw [hclassified, hr]
      exact hafter.classified_iff

/-- An ideal cluster, but patches of its ingress controller do not reach it. -/
def unpatchable : World Nat Ideal :=
  Sample.world (fun s call => match call with
    | .tune _ => .error (.unreachable "Connection refused")
    | call => s.answer call) Ideal.after

/-- **A patch that does not reach the cluster is no fault of tuning**: its failure is handed on. -/
theorem apply_not_classified :
    let run := unpatchable.trace 0 {} (apply ⟨1, true⟩ 300 "threadCount=4").run
    Profile.read "threadCount=4" = .ok [("threadCount", .int 4)] ∧ ¬ Classified run.2 run.1 := by
  intro run
  have hfailed : run.1 = .error (.unreachable "Connection refused") := by decide +kernel
  refine ⟨by rfl, ?_⟩
  rw [hfailed]
  exact not_classified (.inr ⟨_, rfl⟩)

end IngressBench.Tuning
