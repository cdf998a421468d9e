import IngressBench.Proofs.Run.Delivery
import IngressBench.Proofs.Run.Twins

/-!
Documents that cannot be stored are lost, and nothing else. In two worlds that differ in which
documents are stored and which are refused (`losses`) a run does the same and ends in the same way
and in the same state, whatever kind of sink it has; its log tells of every delivery how it went
(`start_survives_losses`).
-/
namespace IngressBench

variable {τ : Type}

/-- A reply about documents: they are stored, or they are refused. -/
def Settles (r : Except Failure Document) : Prop :=
  (∃ status, r = .ok status) ∨ ∃ fault, r = .error (.indexing fault)

/-- Worlds that differ in which documents are stored and which are refused. -/
def losses : Variation where
  concerns
    | .index .. | .bulk .. => True
    | _ => False
  allows
    | .index .., r₁, r₂ => r₁ = r₂ ∨ Settles r₁ ∧ Settles r₂
    | .bulk .., _, _ => True
    | _, _, _ => False
  tells
    | .index .., .ok status => [(.info, status.plain)]
    | .index .., .error (.indexing fault) => [(.error, s!"Indexing error: {fault.message}")]
    | .bulk index _, .stored count => [(.info, s!"Indexed {count.plain} documents in {index}")]
    | .bulk index _, .refused count =>
      [(.error, s!"Indexing error: {(IndexingFault.documents count index).message}")]
    | .bulk index _, .failed failure =>
      [(.error, s!"Indexing error: {(IndexingFault.bulk index failure.message).message}")]
    | _, _ => []

theorem losses_common (q : Question) (h : q.Common) : ¬ losses.concerns q := by
  cases q <;> first | exact id | exact h.elim

namespace Sink

/-- What a delivery of documents ends with. -/
def settled : Except Failure Document → Except Failure Bool
  | .ok _ => .ok true
  | .error (.indexing _) => .ok false
  | .error x => .error x

theorem agree_true {α : Type} (r : Except Failure α) : Agree (fun _ _ => True) r r := by
  cases r <;> trivial

theorem agree_settled {r₁ r₂ : Except Failure Document}
    (h : r₁ = r₂ ∨ Settles r₁ ∧ Settles r₂) :
    Agree (fun _ _ => True) (settled r₁) (settled r₂) := by
  rcases h with rfl | ⟨⟨_, rfl⟩ | ⟨_, rfl⟩, ⟨_, rfl⟩ | ⟨_, rfl⟩⟩
  · exact agree_true _
  all_goals trivial

variable [TimeScale τ]

/-- **A delivery goes on whether its documents are stored or refused.** -/
theorem twins_deliver (store : Store) (label : Option String) (documents : List Document) :
    (deliver store label documents : Action τ Bool).run.Twins losses (Agree fun _ _ => True)
      (deliver store label documents).run := by
  cases store with
  | directory path =>
    have hfiles : (deliver (.directory path) label documents : Action τ Bool).Asks
        fun q => ¬ losses.concerns q :=
      only_deliver (fun _ _ => trivial) (Directory.only_store (fun _ _ _ => id) path label _)
    exact (Program.twins_self _ hfiles).mono fun r _ h => h ▸ agree_true r
  | search servers index =>
    have hdeliver : (deliver (.search servers index) label documents : Action τ Bool).run =
        .call (.ask (.bulk index documents)) fun r =>
          .telling (losses.tells (.bulk index documents) r) (.done (.ok (r matches .stored _))) := by
      refine congrArg (Program.call _) (funext fun r => ?_)
      cases r <;> rfl
    rw [hdeliver]
    exact .told trivial fun r₁ r₂ _ => .done trivial
  | outside =>
    have hdeliver : (deliver .outside label documents : Action τ Bool).run =
        .call (.ask (.index (.list documents) label)) fun r =>
          .telling (losses.tells (.index (.list documents) label) r) (.done (settled r)) := by
      refine congrArg (Program.call _) (funext fun r => ?_)
      rcases r with x | status
      · cases x <;> rfl
      · rfl
    rw [hdeliver]
    exact .told trivial fun r₁ r₂ h => .done (agree_settled h)

theorem twins_flush (label : Option String) :
    Keeping.Twins losses Eq (fun _ _ => True) (flush label : Keeping Sink τ Bool) (flush label) := by
  refine Keeping.twins_bind Keeping.twins_get fun s _ hs => ?_
  subst hs
  refine Keeping.twins_bind (Keeping.twins_set rfl) fun _ _ _ => ?_
  exact Keeping.twins_lift_of (twins_deliver s.store label s.buffer)

theorem twins_accept (results : List (Option Result)) :
    Keeping.Twins losses Eq Eq (accept results : Keeping Sink τ Unit) (accept results) := by
  refine Keeping.twins_bind Keeping.twins_get fun s _ hs => ?_
  subst hs
  obtain ⟨documents, complete⟩ := documentsOf results
  refine Keeping.twins_bind_eq (Keeping.twins_set rfl) fun _ => ?_
  cases complete with
  | false => exact Keeping.twins_throw _
  | true =>
    cases s.cadence with
    | streaming => exact Keeping.twins_discard (twins_flush none)
    | batch run => exact Keeping.twins_pure rfl

theorem twins_close : Keeping.Twins losses Eq Eq (close : Keeping Sink τ Unit) close := by
  refine Keeping.twins_bind Keeping.twins_get fun s _ hs => ?_
  subst hs
  split
  · split
    · exact Keeping.twins_discard (twins_flush none)
    · exact Keeping.twins_pure rfl
  · exact Keeping.twins_discard (twins_flush _)

end Sink

namespace Plan

variable [TimeScale τ]

/-- A run of a usual team is its own twin, whatever is stored. -/
theorem twins_start_losses {p : Plan τ} (hp : p.team.Usual) :
    Keeping.Twins losses Eq Eq p.start p.start := by
  have hcompare : ∀ c results, Keeping.Twins losses (Apart Eq) Eq (p.compare c results)
      (p.compare c results) := fun c results => by
    rw [apart_eq]
    exact Keeping.twins_self (asks_compare_of
      (Team.asks_comparator hp.compare fun _ _ => id) c results)
  have hremoving := twins_removing losses_common
    (hp.asks_tune (fun q h => losses_common q (common_of_applies q h)) fun _ => id)
    (hp.asks_drive (fun q h => losses_common q (common_of_gauges q h)) fun _ _ _ => id)
    hcompare Sink.twins_accept
    ((Team.asks_connection hp.connect).mono fun q h => losses_common q (common_of_learns q h))
    Sink.twins_close
  rw [apart_eq] at hremoving
  rw [start_eq]
  exact Keeping.twins_bind_eq hremoving fun _ => Keeping.twins_self asks_ending

/-- **Documents that cannot be stored are lost, and nothing else.** Two starts of one plan, in worlds
that are alike but for what is stored, end with the same outcome and in the same state; they ask the
same questions and let the same time pass; and the events that they leave differ only in the replies
to their deliveries and in the line of the log behind each of them. -/
theorem start_survives_losses {σ₁ σ₂ : Type} (p : Plan τ) (hp : p.team.Usual)
    (R : σ₁ → σ₂ → Prop) (w₁ : World τ σ₁) (w₂ : World τ σ₂) (hw : World.Alike losses R w₁ w₂)
    (now : τ) (world₁ : σ₁) (world₂ : σ₂) (hworld : R world₁ world₂) (session : Option Session)
    (sink : Option Sink) :
    let run₁ := w₁.trace now world₁ (p.start.perform (.fresh session sink))
    let run₂ := w₂.trace now world₂ (p.start.perform (.fresh session sink))
    run₁.1 = run₂.1 ∧ run₁.2.filterMap Event.act? = run₂.2.filterMap Event.act? ∧
      Varies losses run₁.2 run₂.2 := by
  intro run₁ run₂
  obtain ⟨hsame, htwin⟩ := (twins_start_losses hp (.fresh session sink) _ rfl).run hw
    (.begin now hworld)
  exact ⟨Prod.ext hsame.1.eq hsame.2, htwin.events.acts_eq, htwin.events⟩

/-- Worlds with one ideal cluster, of which one refuses all documents. -/
theorem refusing_alike : World.Alike losses Eq Sample.ideal refusing where
  stopAt := rfl
  notice := rfl
  same q s _ hs hq := by
    subst hs
    cases q <;> first | rfl | exact absurd trivial hq
  allowed q s _ hs hq := by
    subst hs
    cases q with
    | index documents label => exact .inr ⟨.inl ⟨_, rfl⟩, .inr ⟨_, rfl⟩⟩
    | bulk index documents => trivial
    | _ => exact hq.elim
  cost q s _ hs := by
    subst hs
    cases q <;> rfl
  next q s _ hs := by
    subst hs
    cases q <;> rfl

/-- Two test cases, whose documents are all stored in one world and all refused in the other: both
runs are done. -/
theorem start_survives_losses_refused :
    let p := Sample.plan [{ uuid := "a" }, { uuid := "b" }]
    let run₁ := Sample.ideal.trace 0 {} (p.start.perform (.fresh none (some streaming)))
    let run₂ := refusing.trace 0 {} (p.start.perform (.fresh none (some streaming)))
    p.team.Usual ∧ World.Alike losses Eq Sample.ideal refusing ∧
      run₁.1 = run₂.1 ∧ run₁.2.filterMap Event.act? = run₂.2.filterMap Event.act? ∧
      Varies losses run₁.2 run₂.2 ∧ run₂.1.2.phase = .done :=
  have hsame := start_survives_losses _ Sample.team_usual Eq Sample.ideal refusing refusing_alike 0
    {} {} rfl none (some streaming)
  ⟨Sample.team_usual, refusing_alike, hsame.1, hsame.2.1, hsame.2.2, by decide +kernel⟩

end Plan
end IngressBench
