import IngressBench.Proofs.Readiness.Diagnosis
import IngressBench.Proofs.Readiness.Readings

/-!
Waits that are over before their deployment is ready. Such a wait fails with a report that tells
whether it was cancelled, and the state of the deployment as it was read last; unless the pending
pods of the deployment are asked for in vain because the cluster cannot be reached. Then the wait
fails as that listing does, and the report is lost (`awaitReady_reports_iff`).
-/
namespace IngressBench

variable {τ σ : Type}

/-! ### Answers -/

/-- An event that is no answer about a deployment or about pods, or a well-formed one, or the
failure of a listing. -/
def Event.Told : Event τ → Prop
  | .asked (.api (.readDeployment ..)) (.ok d) _ => d.WellFormed
  | .asked (.api (.listPods ..)) (.error (.unreachable _)) _ => True
  | .asked (.api (.listPods ..)) reply _ => SoundListing reply
  | _ => True

/-- The event is a listing of pods for which the cluster could not be reached. -/
def Event.Lost (text : String) : Event τ → Prop
  | .asked (.api (.listPods ..)) (.error (.unreachable t)) _ => t = text
  | _ => False

theorem Event.Lost.lists {text : String} {e : Event τ} (h : e.Lost text) : e.Lists := by
  unfold Event.Lost at h
  split at h
  · trivial
  · exact h.elim

/-- A well-formed deployment was read. -/
theorem wellFormed_of_read {evs : List (Event τ)} (htold : ∀ e ∈ evs, e.Told) {d : Deployment}
    (hd : .ok d ∈ readings evs) : d.WellFormed := by
  obtain ⟨e, he, hanswer⟩ := List.mem_filterMap.mp hd
  have hknown := htold e he
  unfold Event.answer? at hanswer
  split at hanswer
  · cases hanswer
    exact hknown
  · cases hanswer

/-! ### Reports -/

/-- The report of a wait for a well-formed deployment is lost exactly when its listing is. -/
theorem leaves_report {ns name : String} {fault : WaitFault} {d : Deployment}
    {evs : List (Event τ)} {r : Except Failure Unit} (hd : d.WellFormed)
    (h : Action.Leaves (do throw (← notReadyFailure ns name fault d)) evs r)
    (htold : ∀ e ∈ evs, e.Told) :
    (∃ g message, r = .error (.notReady ⟨message, some g, fault.isCancelled⟩) ∧ g.Tells ns d ∧
        ∀ e ∈ evs, ∀ text, ¬ e.Lost text) ∨
      ∃ text, r = .error (.unreachable text) ∧ (∃ e ∈ evs, e.Lost text) ∧
        ∀ e ∈ evs, ∀ t, e.Lost t → t = text := by
  obtain ⟨told, hdiagnose, hends⟩ := leaves_throwNotReady h
  obtain ⟨state, hstate, -, htells⟩ := hd.state_tells ns
  rcases leaves_diagnose hdiagnose with ⟨x, hx, -⟩ |
    ⟨state', reply, time, lines, hs, rfl, rfl, hlines⟩
  · rw [hstate] at hx
    cases hx
  obtain rfl : state = state' := Except.ok.inj (hstate.symm.trans hs)
  have hreply := htold _ List.mem_cons_self
  have hlogged : ∀ e ∈ lines, ∀ text, ¬ e.Lost text := fun e he text => by
    obtain ⟨line, rfl⟩ := hlines e he
    exact id
  -- From every answer but a lost one a diagnostic can be made, and the report is made from it.
  have hsound : SoundListing reply →
      (∀ text, ¬ Event.Lost text
        (.asked (.api (.listPods ns state.selector "Pending")) reply time : Event τ)) →
      ∃ g message, r = .error (.notReady ⟨message, some g, fault.isCancelled⟩) ∧ g.Tells ns d ∧
        ∀ e ∈ Event.asked (.api (.listPods ns state.selector "Pending")) reply time :: lines,
          ∀ text, ¬ e.Lost text := by
    intro hlisting hlost
    obtain ⟨g, hg⟩ := state.completed_ok hlisting
    rcases hends with ⟨x, hx, -⟩ | ⟨g', message, hg', rfl⟩
    · cases hg.symm.trans hx
    · exact ⟨g', message, rfl, htells.completed hg', List.forall_mem_cons.mpr ⟨hlost, hlogged⟩⟩
  cases reply with
  | ok pods => exact .inl (hsound hreply fun _ => id)
  | error fault =>
    cases fault with
    | rejected status reason => exact .inl (hsound hreply fun _ => id)
    | unreachable text =>
      rcases hends with ⟨x, hx, rfl⟩ | ⟨g, _, hg, -⟩
      · cases hx
        refine .inr ⟨text, rfl, ⟨_, List.mem_cons_self, rfl⟩, List.forall_mem_cons.mpr ⟨?_, ?_⟩⟩
        · exact fun t ht => ht.symm
        · exact fun e he t ht => absurd ht (hlogged e he t)
      · cases hg

/-- The wait failed with a report that tells whether it was cancelled, and the state of a
deployment. -/
def Reported (ns : String) (d : Deployment) (cancelled : Bool) (r : Except Failure Unit) : Prop :=
  ∃ report g, r = .error (.notReady report) ∧ report.diagnostic = some g ∧
    report.cancelled = cancelled ∧ g.Tells ns d

variable [TimeScale τ]

/-- What is known of a wait for a deployment whose watch ended with a fault: for the deployment that
the watch saw last, the events of the wait, and what it ends with. -/
structure Unready (ns : String) (d : Deployment) (fault : WaitFault) (evs : List (Event τ))
    (r : Except Failure Unit) : Prop where
  /-- The deployment was read last. -/
  last : (readings evs).getLast? = some (.ok d)
  /-- The wait is cancelled exactly when it was stopped. -/
  cancelled : fault.isCancelled = true ↔ .stopped ∈ evs
  /-- The wait is reported unless the listing of the pending pods is lost. -/
  reported : Reported ns d fault.isCancelled r ↔ ∀ e ∈ evs, ∀ text, ¬ e.Lost text
  /-- Then the failure of the listing takes the place of the report. -/
  lost : ∀ e ∈ evs, ∀ text, e.Lost text → r = .error (.unreachable text)

/-- A watch that ends with a fault, and the report after it. -/
theorem unready_leaves {pace : Pace τ} {ns name opening : String} {timeout : τ} {d : Deployment}
    {fault : WaitFault} {watching report : List (Event τ)} {r : Except Failure Unit}
    (hwatch : (watch pace timeout (checkReady ns name)).Leaves watching (.ok (d, some fault)))
    (hreport : Action.Leaves (do throw (← notReadyFailure ns name fault d)) report r)
    (htold : ∀ e ∈ Event.logged .info opening :: (watching ++ report), e.Told) :
    Unready ns d fault (.logged .info opening :: (watching ++ report)) r := by
  obtain ⟨hreports, -⟩ := throwNotReady_leaves hreport
  have hlast : (readings (.logged .info opening :: (watching ++ report))).getLast? =
      some (.ok d) := by
    obtain ⟨vain, answer, hreadings, -, hjudged⟩ := watch_reads hwatch
    obtain ⟨rfl, -⟩ := judged_ok hjudged
    have hafter : AfterWatch ns name (.ok (d, some fault)) report r := .unready hreport
    rw [hafter.readings_eq, hreadings, List.getLast?_concat]
  have hcancelled : fault.isCancelled = true ↔
      .stopped ∈ Event.logged .info opening :: (watching ++ report) := by
    have hnone : .stopped ∉ report := fun hmem => hreports _ hmem
    simpa [hnone] using watch_cancelled_iff (only_checkReady (by simp) (by simp)) hwatch
  -- Only the report lists pods.
  have hlists : ∀ e ∈ Event.logged .info opening :: (watching ++ report), ∀ text, e.Lost text →
      e ∈ report := by
    intro e he text hlost
    rcases List.mem_cons.mp he with rfl | he
    · exact hlost.lists.elim
    · refine (List.mem_append.mp he).resolve_left fun hmem => ?_
      exact watch_unlisted pace ns name timeout _ _ hwatch e hmem hlost.lists
  have hd : d.WellFormed := wellFormed_of_read htold (List.mem_of_getLast? hlast)
  rcases leaves_report hd hreport (fun e he => htold e (by simp [he])) with
    ⟨g, message, rfl, htells, hkept⟩ | ⟨text, rfl, ⟨e, he, hlost⟩, honly⟩
  · have hnone : ∀ e ∈ Event.logged .info opening :: (watching ++ report), ∀ text, ¬ e.Lost text :=
      fun e he text hlost => hkept e (hlists e he text hlost) text hlost
    exact ⟨hlast, hcancelled, ⟨fun _ => hnone, fun _ => ⟨_, g, rfl, rfl, rfl, htells⟩⟩,
      fun e he t ht => absurd ht (hnone e he t)⟩
  · refine ⟨hlast, hcancelled, ⟨fun hreported => ?_, fun hnone => ?_⟩, fun e he t ht => ?_⟩
    · obtain ⟨_, _, hr, -⟩ := hreported
      cases hr
    · exact absurd hlost (hnone e (by simp [he]) text)
    · rw [honly e (hlists e he t ht) t ht]

/-- **A wait that ends too early is reported**, unless its listing of the pending pods is lost. -/
theorem awaitReady_reports_iff (w : World τ σ) (pace : Pace τ) (ns name : String) (timeout now : τ)
    (world : σ)
    (htold : ∀ e ∈ (w.trace now world (awaitReady pace ns name timeout).run).2, e.Told) :
    let run := w.trace now world (awaitReady pace ns name timeout).run
    ∃ opening,
      let watched := w.run (watch pace timeout (checkReady ns name)).run
        (World.logged .info opening { now, state := world })
      ∀ d fault, watched.1 = .ok (d, some fault) → Unready ns d fault run.2 run.1 := by
  intro run
  obtain ⟨opening, report, hevents, hafter⟩ :=
    run_awaitReady w pace ns name timeout { now, state := world }
  refine ⟨opening, fun d fault hwatched => ?_⟩
  obtain ⟨watching, hleaves, hseen⟩ := w.run_leaves (watch pace timeout (checkReady ns name)).run
    (World.logged .info opening { now, state := world })
  have htrace : run.2 = .logged .info opening :: (watching ++ report.reverse) := by
    have hrun : run.2 = (w.run (awaitReady pace ns name timeout).run
      { now, state := world }).2.events.reverse := rfl
    rw [hrun, hevents, hseen]
    simp [World.logged]
  rw [hwatched] at hafter hleaves
  rw [htrace]
  cases hafter with
  | unready hreport => exact unready_leaves hleaves hreport (htrace ▸ htold)

namespace Sample

/-- An ideal cluster, but its deployments never become ready, and its pods are listed as told. -/
def unready (pods : Except ApiFault (Option (Listing Pod))) (stopAt : Option Nat := none) :
    World Nat Ideal where
  answer := (world (fun (s : Ideal) call => match call with
    | .readDeployment _ name => .ok { Ideal.deployment name 2 with status := some {} }
    | .listPods .. => pods
    | call => s.answer call) Ideal.after).answer
  stopAt := stopAt

theorem unready_told {pods : Except ApiFault (Option (Listing Pod))} {stopAt : Option Nat}
    (hpods : SoundListing pods ∨ ∃ text, pods = .error (.unreachable text)) {α : Type}
    (now : Nat) (s : Ideal) (p : Program Nat α) :
    ∀ e ∈ ((unready pods stopAt).trace now s p).2, e.Told := by
  intro e he
  have hanswered := World.trace_answered _ now s p e he
  cases e with
  | asked q reply time =>
    obtain ⟨state, rfl⟩ := hanswered
    cases q with
    | api call =>
      cases call with
      | readDeployment ns name => exact ⟨⟨_, name, rfl, rfl⟩, ⟨_, _, rfl, rfl⟩, ⟨_, rfl⟩⟩
      | listPods ns selector phase =>
        rcases hpods with hsound | ⟨text, rfl⟩
        · cases pods with
          | ok pods => exact hsound
          | error fault => cases fault <;> first | exact hsound | trivial
        · trivial
      | _ => trivial
    | _ => trivial
  | _ => trivial

end Sample

/-- A run that is stopped while it waits for a deployment. -/
theorem awaitReady_reports_stopped :
    let w := Sample.unready (.ok (some ⟨some Sample.pendingPods⟩)) (some 3)
    let run := w.trace 0 {} (awaitReady ⟨1, true⟩ "ingress-perf" "nginx" 10).run
    (∀ e ∈ run.2, e.Told) ∧
      (∃ opening,
        let watched := w.run (watch ⟨1, true⟩ 10 (checkReady "ingress-perf" "nginx")).run
          (World.logged .info opening { now := 0, state := {} })
        ∀ d fault, watched.1 = .ok (d, some fault) →
          Unready "ingress-perf" d fault run.2 run.1) ∧
      run.1 = .error (.notReady
        ⟨"deployment ingress-perf/nginx not ready: 0/2 replicas ready (wait cancelled)",
          some { ns := "ingress-perf", deployment := "nginx", selector := "app=nginx", desired := 2
                 pending := Sample.pendingEntries }, true⟩) := by
  intro w run
  have hpods : SoundListing (.ok (some ⟨some Sample.pendingPods⟩)) :=
    ⟨_, rfl, Sample.pendingPods_wellFormed⟩
  have htold : ∀ e ∈ run.2, e.Told := Sample.unready_told (.inl hpods) 0 {} _
  exact ⟨htold, awaitReady_reports_iff w ⟨1, true⟩ "ingress-perf" "nginx" 10 0 {} htold,
    by decide +kernel⟩

/-- **The report of a wait can be lost**: the wait is too late, and its listing of the pending pods
does not reach the cluster. -/
theorem awaitReady_loses_report :
    let w := Sample.unready (.error (.unreachable "Connection refused"))
    let run := w.trace 0 {} (awaitReady ⟨1, true⟩ "ingress-perf" "nginx" 2).run
    (∀ e ∈ run.2, e.Told) ∧
      (∀ opening, ((w.run (watch ⟨1, true⟩ 2 (checkReady "ingress-perf" "nginx")).run
        (World.logged .info opening { now := 0, state := {} })).1.map Prod.snd =
          .ok (some (timedOut 2)))) ∧
      ¬ ∃ report, run.1 = .error (.notReady report) := by
  intro w run
  refine ⟨Sample.unready_told (.inr ⟨_, rfl⟩) 0 {} _, fun opening => by rfl, fun hreported => ?_⟩
  have hrun : run.1 = .error (.unreachable "Connection refused") := by decide +kernel
  obtain ⟨report, hreport⟩ := hreported
  rw [hrun] at hreport
  cases hreport

end IngressBench
