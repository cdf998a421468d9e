import IngressBench.Proofs.Run.Changes
import IngressBench.Proofs.Run.Recorded

/-!
Runs with a diary: a register that keeps the phases that the run reaches. What it holds are the first
phases of the run's timeline, and the last of them is the phase that the run is in
(`startNoted_notes`), so the phase of a run only moves forward.
-/
namespace IngressBench.Plan

variable {τ α β : Type} [TimeScale τ]

/-- The phase that an entry tells, if it tells one. -/
def phase? : Entry → Option Phase
  | .reached phase => some phase
  | _ => none

/-- A stage that keeps a diary: the phases that were reached, in order. -/
abbrev Diary (τ α : Type) := Recorded Phase τ α

/-- A run that keeps a diary. -/
def startNoted (p : Plan τ) : Diary τ Unit :=
  p.startWith phase?

/-! ### What the diary holds -/

/-- A stage writes the first ones of these phases, and all of them if it ends well; the last one is
the phase that the run is in afterwards. -/
def Notes (phases : List Phase) (d : Diary τ α) : Prop :=
  ∀ s reached evs r s' reached', d.Leaves (s, reached) evs r (s', reached') →
    ∃ noted, reached' = reached ++ noted ∧ noted <+: phases ∧ (∀ v, r = .ok v → noted = phases) ∧
      s'.phase = noted.getLast?.getD s.phase

/-- States in the same phase. -/
def Stays (s s' : RunState) : Prop :=
  s'.phase = s.phase

omit [TimeScale τ] in
/-- Nothing is written about a stage that stays in its phase. -/
theorem notes_beside {m : Stage τ α} (h : m.Keeps Stays) : Notes [] (Keeping.beside m : Diary τ α) := by
  intro s reached evs r s' reached' hl
  obtain ⟨hm, rfl⟩ := Keeping.leaves_beside.mp hl
  exact ⟨[], by simp, List.prefix_refl _, fun _ _ => rfl, h _ _ _ _ hm⟩

omit [TimeScale τ] in
theorem notes_reach (phase : Phase) : Notes [phase] (reachWith phase? phase : Diary τ Unit) := by
  intro s reached evs r s' reached' hl
  obtain ⟨hreach, rfl⟩ := leaves_entered.mp hl
  obtain ⟨-, -, rfl⟩ := Keeping.leaves_modify.mp hreach
  exact ⟨[phase], rfl, List.prefix_refl _, fun _ _ => rfl, rfl⟩

omit [TimeScale τ] in
theorem notes_pure (v : α) : Notes [] (pure v : Diary τ α) := by
  intro s reached evs r s' reached' hl
  obtain ⟨-, -, hs⟩ := Keeping.leaves_pure.mp hl
  cases hs
  exact ⟨[], by simp, List.prefix_refl _, fun _ _ => rfl, rfl⟩

omit [TimeScale τ] in
/-- What is written after a stage that ends well stands behind what that stage wrote. -/
theorem notes_bind {phases later : List Phase} {d : Diary τ α} {e : α → Diary τ β}
    (hd : Notes phases d) (he : ∀ v, Notes later (e v)) : Notes (phases ++ later) (d >>= e) := by
  intro s reached evs r s' reached' hl
  rcases Keeping.leaves_bind.mp hl with ⟨x, hx, rfl⟩ | ⟨v, ⟨s₁, reached₁⟩, _, _, hv, hr, -⟩
  · obtain ⟨noted, rfl, hfirst, -, hphase⟩ := hd _ _ _ _ _ _ hx
    exact ⟨noted, rfl, hfirst.trans (List.prefix_append _ _), (fun _ h => nomatch h), hphase⟩
  · obtain ⟨noted, rfl, -, hall, hphase⟩ := hd _ _ _ _ _ _ hv
    obtain rfl := hall v rfl
    obtain ⟨more, rfl, hmore, hdone, hlast⟩ := he v _ _ _ _ _ _ hr
    refine ⟨noted ++ more, by simp, (List.prefix_append_right_inj _).mpr hmore, fun w hw => ?_, ?_⟩
    · rw [hdone w hw]
    · rw [hlast, hphase, List.getLast?_append]
      cases more.getLast? <;> rfl

omit [TimeScale τ] in
theorem notes_beside_bind {phases : List Phase} {m : Stage τ α} {e : α → Diary τ β}
    (hm : m.Keeps Stays) (he : ∀ v, Notes phases (e v)) : Notes phases (Keeping.beside m >>= e) :=
  notes_bind (notes_beside hm) he

omit [TimeScale τ] in
theorem notes_reach_bind {phases : List Phase} {phase : Phase} {e : Unit → Diary τ β}
    (he : Notes phases (e ())) : Notes (phase :: phases) (reachWith phase? phase >>= e) :=
  notes_bind (notes_reach phase) fun _ => he

/-- The phases of a run, in their order. -/
def timeline (p : Plan τ) : List Phase :=
  .connected :: .deployed :: .running :: .indexed ::
    if p.cleanup then [.cleanedUp, .done] else [.done]

omit [TimeScale τ] in
theorem stays_lift (a : Action τ α) : (Keeping.lift a : Stage τ α).Keeps Stays :=
  Keeping.keeps_lift (R := Stays) (fun _ => rfl) a

omit [TimeScale τ] in
theorem connectNoted_notes (p : Plan τ) : Notes [.connected] (p.connectWith phase?) := by
  have hsession : p.session.Keeps Stays := by
    intro s evs r s' h
    obtain ⟨session, rfl, -⟩ := session_leaves h
    rfl
  refine notes_beside_bind hsession fun session => ?_
  refine notes_beside_bind (stays_lift _) fun metadata => ?_
  refine notes_beside_bind (stays_lift _) fun metrics => ?_
  exact notes_beside_bind (stays_lift _) fun metadata => notes_reach_bind (notes_pure _)

omit [TimeScale τ] in
theorem deployNoted_notes (p : Plan τ) : Notes [.deployed] (p.deployWith phase?) := by
  refine notes_beside_bind (stays_lift _) fun existed => ?_
  exact notes_beside_bind (Keeping.keeps_modify (R := Stays) fun _ => rfl) fun _ => notes_reach _

theorem wrapUpNoted_notes (p : Plan τ) :
    Notes (.indexed :: if p.cleanup then [.cleanedUp, .done] else [.done]) (p.wrapUpWith phase?) := by
  have hclose : (withSink Sink.close : Stage τ Unit).Keeps Stays := fun _ _ _ _ h =>
    (keeps_withSink _ _ _ _ _ h).phase_eq
  have hteardown : p.teardown.Keeps Stays := by
    intro s evs r s' h
    obtain ⟨rfl, -⟩ := teardown_leaves h
    rfl
  have hverdict : Keeping.Keeps Stays
      (do if !(← get).passed then throw .comparison : Stage τ Unit) := by
    intro s evs r s' h
    have h₁ := Keeping.leaves_get_bind.mp h
    split at h₁
    · exact congrArg RunState.phase (Keeping.leaves_throw.mp h₁).2.2
    · exact congrArg RunState.phase (Keeping.leaves_pure.mp h₁).2.2
  have hend : Notes [.done] (do
      reachWith phase? .done
      Keeping.beside (do if !(← get).passed then throw .comparison) : Diary τ Unit) :=
    notes_reach_bind (notes_beside hverdict)
  unfold wrapUpWith
  rw [withSinkWith_beside fun _ _ => rfl]
  refine notes_beside_bind hclose fun _ => notes_reach_bind ?_
  cases p.cleanup with
  | true => exact notes_beside_bind hteardown fun _ => notes_reach_bind hend
  | false => exact hend

/-- **The diary of a run holds the first phases of its timeline**, and the last of them is the phase
that the run is in. -/
theorem startNoted_notes (p : Plan τ) : Notes p.timeline p.startNoted := by
  have hcases : ∀ metadata metrics, (p.runCases metadata metrics 1 p.cases).Keeps Stays :=
    fun _ _ _ _ _ _ h => (runCases_along h).phase_eq
  show Notes ([.connected] ++ ([.deployed] ++ _)) p.startNoted
  refine notes_bind (connectNoted_notes p) fun (metadata, metrics) => ?_
  refine notes_bind (deployNoted_notes p) fun _ => notes_reach_bind ?_
  rw [runCasesWith_beside (fun _ _ => rfl) (fun _ _ => rfl) (fun _ _ _ => rfl) fun _ _ _ => rfl]
  exact notes_beside_bind (hcases _ _) fun _ => wrapUpNoted_notes p

end IngressBench.Plan
