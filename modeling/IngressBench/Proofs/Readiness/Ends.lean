import IngressBench.Proofs.Readiness.Agreement
import IngressBench.Proofs.Readiness.Missing

/-!
How a wait for a deployment ends, told from its last reading and its listings of pending pods: well,
with a refusal of the cluster, with a report, or with the failure of an answer that did not arrive
or that lacks something (`awaitReady_ends`).
-/
namespace IngressBench

variable {τ : Type}

/-! ### Waits that an answer thwarts -/

/-- The event is a listing of pods that is not sound. -/
def Event.ListsBadly : Event τ → Prop
  | .asked (.api (.listPods ..)) reply _ => ¬ SoundListing reply
  | _ => False

theorem Event.ListsBadly.lists {e : Event τ} (h : e.ListsBadly) : e.Lists := by
  unfold Event.ListsBadly at h
  split at h
  · trivial
  · exact h.elim

/-- A wait for a deployment comes to an answer that it can draw nothing from. -/
inductive Thwarted (evs : List (Event τ)) : Prop where
  /-- The last reading does not reach the cluster. -/
  | unreached {text : String} (hlast : (readings evs).getLast? = some (.error (.unreachable text)))
  /-- The deployment is not ready when it is read last, and lacks something. -/
  | malformed {d : Deployment} (hlast : (readings evs).getLast? = some (.ok d))
      (hunready : ¬ d.Agrees) (hlacks : ¬ d.WellFormed)
  /-- The pending pods are not listed, or cannot be explained. -/
  | unlisted {e : Event τ} (he : e ∈ evs) (hbad : e.ListsBadly)

/-- The failure of an answer that did not arrive, or that lacks something. -/
def Failure.Strays (x : Failure) : Prop :=
  x.Missing ∨ ∃ text, x = .unreachable text

/-- How a wait for a deployment ends, by its last reading and its listings. -/
inductive Ends (evs : List (Event τ)) : Except Failure Unit → Prop where
  | ready {d : Deployment} (hlast : (readings evs).getLast? = some (.ok d)) (hagrees : d.Agrees)
      (hclear : ¬ Thwarted evs) (hstop : .stopped ∉ evs) : Ends evs (.ok ())
  | refused {status : Int} {reason : Option String}
      (hlast : (readings evs).getLast? = some (.error (.rejected status reason)))
      (hclear : ¬ Thwarted evs) (hstop : .stopped ∉ evs) :
      Ends evs (.error (.rejected status reason))
  | unready {d : Deployment} {report : NotReady}
      (hlast : (readings evs).getLast? = some (.ok d)) (hunready : ¬ d.Agrees)
      (hclear : ¬ Thwarted evs) (hstop : report.cancelled = true ↔ .stopped ∈ evs) :
      Ends evs (.error (.notReady report))
  | thwarted {x : Failure} (hthwarted : Thwarted evs) (hstrays : x.Strays) : Ends evs (.error x)

/-- A well-formed deployment can be judged. -/
theorem Deployment.WellFormed.isReady_ok {d : Deployment} (h : d.WellFormed) :
    ∃ ready, d.isReady = .ok ready := by
  obtain ⟨-, ⟨spec, -, hspec, -⟩, ⟨status, hstatus⟩⟩ := h
  exact ⟨_, bind_eq_of_ok (present_some hspec) (bind_eq_of_ok (present_some hstatus) rfl)⟩

theorem not_thwarted {evs : List (Event τ)} {last : Except ApiFault Deployment}
    (hlast : (readings evs).getLast? = some last)
    (hreached : ∀ text, last ≠ .error (.unreachable text))
    (hformed : ∀ d, last = .ok d → ¬ d.Agrees → d.WellFormed)
    (hlists : ∀ e ∈ evs, ¬ e.ListsBadly) : ¬ Thwarted evs := by
  intro hthwarted
  cases hthwarted with
  | unreached h => exact hreached _ (Option.some.inj (hlast.symm.trans h))
  | malformed h hunready hlacks =>
    exact hlacks (hformed _ (Option.some.inj (hlast.symm.trans h)) hunready)
  | unlisted he hbad => exact hlists _ he hbad

/-- A diagnostic is made exactly of a well-formed deployment and a sound listing. -/
theorem diagnose_told {ns : String} {d : Deployment} {evs : List (Event τ)}
    {told : Except Failure Diagnostic} (h : (diagnose ns d).Leaves evs told) :
    (∃ g, told = .ok g ∧ d.WellFormed ∧ ∀ e ∈ evs, ¬ e.ListsBadly) ∨
      ∃ x, told = .error x ∧ x.Strays ∧ (¬ d.WellFormed ∨ ∃ e ∈ evs, e.ListsBadly) := by
  rcases leaves_diagnose h with ⟨x, hx, rfl, rfl⟩ |
    ⟨state, reply, time, lines, hstate, rfl, rfl, hlines⟩
  · refine .inr ⟨x, rfl, .inl (d.onlyMisses_state ns x hx), .inl fun hd => ?_⟩
    obtain ⟨state, hstate⟩ := (Deployment.wellFormed_iff ns).mp hd
    cases hx.symm.trans hstate
  · cases hcompleted : state.completed reply with
    | error x =>
      refine .inr ⟨x, rfl, Diagnostic.completed_error hcompleted, .inr ⟨_, List.mem_cons_self, ?_⟩⟩
      intro hsound
      obtain ⟨g, hg⟩ := (soundListing_iff state).mp hsound
      cases hcompleted.symm.trans hg
    | ok g =>
      have hsound : SoundListing reply := (soundListing_iff state).mpr ⟨g, hcompleted⟩
      refine .inl ⟨g, rfl, (Deployment.wellFormed_iff ns).mpr ⟨state, hstate⟩, ?_⟩
      refine List.forall_mem_cons.mpr ⟨fun hbad => hbad hsound, fun e he => ?_⟩
      obtain ⟨text, rfl⟩ := hlines e he
      exact id

/-- A wait that ends with a ready deployment. -/
theorem ends_of_ready {evs : List (Event τ)} {d : Deployment}
    (hlast : (readings evs).getLast? = some (.ok d)) (hagrees : d.Agrees)
    (hunlisted : ∀ e ∈ evs, ¬ e.Lists) (hstop : .stopped ∉ evs) : Ends evs (.ok ()) := by
  refine .ready hlast hagrees (not_thwarted hlast (by simp) (fun d' hd hunready => ?_) ?_) hstop
  · cases hd
    exact absurd hagrees hunready
  · exact fun e he hbad => hunlisted e he hbad.lists

/-- A wait that its last reading ends, without a look at the pods. -/
theorem ends_of_read {evs : List (Event τ)} {last : Except ApiFault Deployment} {x : Failure}
    (hlast : (readings evs).getLast? = some last) (hjudged : judged last = .error x)
    (hunlisted : ∀ e ∈ evs, ¬ e.Lists) (hstop : .stopped ∉ evs) : Ends evs (.error x) := by
  cases last with
  | error fault =>
    cases hjudged
    cases fault with
    | rejected status reason =>
      have hclear : ¬ Thwarted evs := not_thwarted hlast (by simp) (by simp) fun e he hbad =>
        hunlisted e he hbad.lists
      exact .refused hlast hclear hstop
    | unreachable text => exact .thwarted (.unreached hlast) (.inr ⟨text, rfl⟩)
  | ok d =>
    have hx : d.isReady = .error x := map_eq_error_iff.mp hjudged
    refine .thwarted (.malformed hlast (fun hagrees => ?_) fun hd => ?_)
      (.inl (d.onlyMisses_isReady x hx))
    · cases hx.symm.trans (Deployment.isReady_iff.mpr hagrees)
    · obtain ⟨ready, hready⟩ := hd.isReady_ok
      cases hx.symm.trans hready

/-- A wait that is over before its deployment is ready, and its report. -/
theorem ends_of_unready {ns name : String} {fault : WaitFault} {d : Deployment}
    {before report : List (Event τ)} {r : Except Failure Unit}
    (hlast : (readings (before ++ report)).getLast? = some (.ok d)) (hunready : ¬ d.Agrees)
    (hbefore : ∀ e ∈ before, ¬ e.Lists)
    (hstop : fault.isCancelled = true ↔ .stopped ∈ before ++ report)
    (h : Action.Leaves (do throw (← notReadyFailure ns name fault d)) report r) :
    Ends (before ++ report) r := by
  obtain ⟨told, hdiagnose, hends⟩ := leaves_throwNotReady h
  rcases diagnose_told hdiagnose with ⟨g, rfl, hd, hsound⟩ | ⟨x, rfl, hstrays, hlacks⟩
  · rcases hends with ⟨_, hg, -⟩ | ⟨_, message, -, rfl⟩
    · cases hg
    have hlists : ∀ e ∈ before ++ report, ¬ e.ListsBadly :=
      List.forall_mem_append.mpr ⟨fun e he hbad => hbefore e he hbad.lists, hsound⟩
    exact .unready hlast hunready (not_thwarted hlast (by simp) (by simp [hd]) hlists) hstop
  · rcases hends with ⟨x', hx, rfl⟩ | ⟨_, _, hx, -⟩
    · cases hx
      refine .thwarted ?_ hstrays
      rcases hlacks with hlacks | ⟨e, he, hbad⟩
      · exact .malformed hlast hunready hlacks
      · exact .unlisted (List.mem_append_right before he) hbad
    · cases hx

/-! ### The end of a wait -/

variable [TimeScale τ] {pace : Pace τ} {ns name : String} {timeout : τ} {evs : List (Event τ)}

/-- A watch that the run is stopped in ends cancelled. -/
theorem watch_stopped_seen {watching : List (Event τ)}
    {seen : Except Failure (Deployment × Option WaitFault)}
    (h : (watch pace timeout (checkReady ns name)).Leaves watching seen)
    (hstop : .stopped ∈ watching) : ∃ d, seen = .ok (d, some .cancelled) := by
  have hlook : (checkReady ns name : Action τ (Deployment × Bool)).Only (· ≠ .stopped) :=
    only_checkReady (by simp) (by simp)
  obtain ⟨polls, last, rfl, hpolls, hlast⟩ := watch_leaves h
  have hmem : .stopped ∈ last := (List.mem_append.mp hstop).resolve_left fun hmem =>
    hpolls.only hlook (by simp) _ hmem rfl
  cases hlast with
  | enough hl | late hl | failed hl => exact absurd rfl (hlook _ _ hl _ hmem)
  | cancelled => exact ⟨_, rfl⟩

/-- An answer that decides a wait is the first that does. -/
theorem firstDeciding_readings {r : Except Failure Unit} {a : Except ApiFault Deployment}
    (h : (awaitReady pace ns name timeout).Leaves evs r) :
    FirstDeciding (readings evs) a ↔ a ∈ readings evs ∧ Decides a := by
  obtain ⟨vain, last, hreadings, hvain, -⟩ := awaitReady_reads h
  have hvain : ∀ b ∈ vain, ¬ Decides b := fun b hb => not_decides (hvain b hb).choose_spec
  rw [hreadings, firstDeciding_iff hvain]
  constructor
  · rintro ⟨rfl, ha⟩
    exact ⟨List.mem_append_right vain List.mem_cons_self, ha⟩
  · rintro ⟨hmem, ha⟩
    obtain rfl : a = last := by
      simpa using (List.mem_append.mp hmem).resolve_left fun hmem => hvain a hmem ha
    exact ⟨rfl, ha⟩

/-- **A wait for a deployment ends** as its last reading and its listings tell. -/
theorem awaitReady_ends {evs : List (Event τ)} {r : Except Failure Unit}
    (h : (awaitReady pace ns name timeout).Leaves evs r) : Ends evs r := by
  obtain ⟨opening, watching, report, seen, rfl, hwatch, hafter⟩ := awaitReady_leaves h
  obtain ⟨vain, last, hreadings, -, hjudged⟩ := watch_reads hwatch
  have hreports := hafter.reports.1
  have hlast : (readings (Event.logged .info opening :: watching ++ report)).getLast? =
      some last := by
    rw [List.cons_append, hafter.readings_eq, hreadings, List.getLast?_concat]
  have hunlisted : ∀ e ∈ Event.logged .info opening :: watching, ¬ e.Lists :=
    List.forall_mem_cons.mpr ⟨id, watch_unlisted pace ns name timeout _ _ hwatch⟩
  have hstopped : .stopped ∈ Event.logged .info opening :: watching →
      ∃ d, seen = .ok (d, some .cancelled) := fun hmem =>
    watch_stopped_seen hwatch (by simpa using hmem)
  cases hafter with
  | ready =>
    rw [List.append_nil] at hlast ⊢
    obtain ⟨rfl, hagrees⟩ := decides_ready hjudged
    refine ends_of_ready hlast hagrees hunlisted fun hmem => ?_
    obtain ⟨d, hd⟩ := hstopped hmem
    cases hd
  | failed =>
    rw [List.append_nil] at hlast ⊢
    refine ends_of_read hlast hjudged hunlisted fun hmem => ?_
    obtain ⟨d, hd⟩ := hstopped hmem
    cases hd
  | @unready d fault _ _ hr =>
    obtain ⟨rfl, -⟩ := judged_ok hjudged
    have hcancelled : fault.isCancelled = true ↔
        .stopped ∈ Event.logged .info opening :: watching ++ report := by
      have hnone : .stopped ∉ report := fun hmem => hreports _ hmem
      simpa [hnone] using watch_cancelled_iff (only_checkReady (by simp) (by simp)) hwatch
    exact ends_of_unready hlast (not_decides hjudged) hunlisted hcancelled hr

end IngressBench
