import IngressBench.Indexing.Sink
import IngressBench.Proofs.Signals.Calm

/-!
Storing heeds signals. A place for documents that fails to store them is told in the log; every other
failure of it, a signal among them, is handed on.
-/
namespace IngressBench

variable {τ : Type}

theorem Store.heeds_put (store : Store) (label : Option String) (documents : Document) :
    (store.put label documents : Action τ String).Heeds := by
  cases store with
  | directory path => exact (Directory.calm_store path label documents).heeds
  | search servers index =>
    have hsend : ∀ documents : List Document, (send index documents : Action τ String).Calm :=
      fun documents => by
        refine Action.calm_ask_bind (fun _ => rfl) fun answer => ?_
        cases answer with
        | stored count => exact Action.calm_pure _
        | refused count => exact Action.calm_throw rfl
        | failed failure => exact Action.calm_throw rfl
    exact (Action.calm_bind (Action.calm_ofExcept documents.plain_each) hsend).heeds
  | outside =>
    refine Action.heeds_answer (q := .index documents label) (fun v => v) (fun v x => ?_)
      (fun _ => rfl) fun _ => Action.heeds_pure _
    cases v <;> simp [Question.failed?]

namespace Sink

/-- Documents that are not stored are no signal. -/
theorem heeds_deliver (store : Store) (label : Option String) (documents : List Document) :
    (deliver store label documents : Action τ Bool).Heeds := by
  refine Action.heeds_attempt_bind (store.heeds_put label _) (fun x hx => ?_) fun e he => ?_
  · cases x with
    | indexing fault => cases hx
    | _ => exact Action.handsOn_throw _
  · cases e with
    | ok status => exact Action.heeds_bind (Action.calm_log _ _).heeds fun _ => Action.heeds_pure _
    | error x =>
      have hplain := he x rfl
      cases x with
      | indexing fault =>
        exact Action.heeds_bind (Action.calm_log _ _).heeds fun _ => Action.heeds_pure _
      | _ => exact Action.heeds_throw hplain

theorem heeds_flush (label : Option String) : (flush label : Keeping Sink τ Bool).Heeds := by
  refine Keeping.heeds_bind Keeping.heeds_get fun s => ?_
  refine Keeping.heeds_bind (Keeping.heeds_set _) fun _ => ?_
  exact Keeping.heeds_lift (heeds_deliver s.store label s.buffer)

theorem heeds_accept (results : List (Option Result)) :
    (accept results : Keeping Sink τ Unit).Heeds := by
  refine Keeping.heeds_bind Keeping.heeds_get fun s => ?_
  obtain ⟨documents, complete⟩ := documentsOf results
  refine Keeping.heeds_bind (Keeping.heeds_set _) fun _ => ?_
  cases complete with
  | false => exact Keeping.heeds_throw rfl
  | true =>
    cases s.cadence with
    | streaming => exact Keeping.heeds_discard (heeds_flush none)
    | batch run => exact Keeping.heeds_pure _

theorem heeds_close : (close : Keeping Sink τ Unit).Heeds := by
  refine Keeping.heeds_bind Keeping.heeds_get fun s => ?_
  split
  · split
    · exact Keeping.heeds_discard (heeds_flush none)
    · exact Keeping.heeds_pure _
  · exact Keeping.heeds_discard (heeds_flush _)

end Sink
end IngressBench
