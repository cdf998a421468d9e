import IngressBench.Proofs.Benchmark.Load
import IngressBench.Proofs.Cluster.Objects
import IngressBench.Proofs.Run.Stages

/-!
Who owns the namespace, as far as a row of events tells. A run owns its namespace if the last
creation of it that was asked for succeeded. Most of what a run asks for neither creates nor deletes
a namespace, and leaves that as it is (`owned_of_spares`, `deletesOwned_of_spares`).
-/
namespace IngressBench

variable {τ : Type}

/-! ### Ownership -/

/-- Whether the run owns the namespace after an event. -/
def Event.owning (own : Bool) : Event τ → Bool
  | .asked (.api (.create object)) reply _ =>
    if object.ref.kind = .ns then reply matches .ok () else own
  | _ => own

/-- Whether the run owns the namespace after a row. -/
def owned (own : Bool) (evs : List (Event τ)) : Bool :=
  evs.foldl Event.owning own

/-- Whether an event asks for the deletion of a namespace. -/
def Event.unmakes : Event τ → Bool
  | .asked (.api (.delete object)) _ _ => object.kind = .ns
  | _ => false

/-- In a row a namespace is deleted only while the run owns it. -/
def DeletesOwned (own : Bool) (evs : List (Event τ)) : Prop :=
  ∀ before e after, evs = before ++ e :: after → e.unmakes = true → owned own before = true

variable {own : Bool} {first rest evs : List (Event τ)}

theorem owned_append (own : Bool) (first rest : List (Event τ)) :
    owned own (first ++ rest) = owned (owned own first) rest :=
  List.foldl_append

/-- A question that neither creates nor deletes a namespace. -/
def Question.Spares : Question → Prop
  | .api (.create object) => object.ref.kind ≠ .ns
  | .api (.delete object) => object.kind ≠ .ns
  | _ => True

theorem Event.Asks.owning_eq {e : Event τ} (h : e.Asks Question.Spares) (own : Bool) :
    e.owning own = own := by
  cases e with
  | asked q reply time =>
    cases q with
    | api call =>
      cases call with
      | create object => exact if_neg h
      | _ => rfl
    | _ => rfl
  | _ => rfl

theorem Event.Asks.unmakes_eq {e : Event τ} (h : e.Asks Question.Spares) : e.unmakes = false := by
  cases e with
  | asked q reply time =>
    cases q with
    | api call =>
      cases call with
      | delete object => exact decide_eq_false h
      | _ => rfl
    | _ => rfl
  | _ => rfl

theorem owned_of_spares (h : ∀ e ∈ evs, e.Asks Question.Spares) : owned own evs = own := by
  induction evs with
  | nil => rfl
  | cons e rest ih =>
    show owned (e.owning own) rest = own
    rw [(h e List.mem_cons_self).owning_eq]
    exact ih fun e he => h e (List.mem_cons_of_mem _ he)

theorem deletesOwned_nil (own : Bool) : DeletesOwned own ([] : List (Event τ)) :=
  fun _ _ _ h => absurd h (by simp)

theorem deletesOwned_cons {e : Event τ} :
    DeletesOwned own (e :: rest) ↔
      (e.unmakes = true → own = true) ∧ DeletesOwned (e.owning own) rest := by
  constructor
  · intro h
    refine ⟨h [] e rest rfl, fun before e' after hsplit he => ?_⟩
    exact h (e :: before) e' after (by rw [hsplit, List.cons_append]) he
  · intro ⟨hfirst, hrest⟩ before e' after hsplit he
    cases before with
    | nil =>
      obtain ⟨rfl, -⟩ := List.cons.inj hsplit
      exact hfirst he
    | cons e'' before =>
      obtain ⟨rfl, hsplit'⟩ := List.cons.inj hsplit
      exact hrest before e' after hsplit' he

theorem deletesOwned_append :
    DeletesOwned own (first ++ rest) ↔
      DeletesOwned own first ∧ DeletesOwned (owned own first) rest := by
  induction first generalizing own with
  | nil => exact ⟨fun h => ⟨deletesOwned_nil own, h⟩, fun h => h.2⟩
  | cons e first ih =>
    rw [List.cons_append, deletesOwned_cons, deletesOwned_cons, ih, and_assoc]
    rfl

theorem deletesOwned_of_spares (h : ∀ e ∈ evs, e.Asks Question.Spares) : DeletesOwned own evs := by
  intro before e after hsplit he
  have hmem : e ∈ evs := hsplit ▸ List.mem_append_cons_self
  rw [(h e hmem).unmakes_eq] at he
  exact absurd he Bool.false_ne_true

/-! ### What spares namespaces -/

theorem Question.Passive.spares {q : Question} (h : q.Passive) : q.Spares := by
  cases q with
  | api call =>
    cases call with
    | create object => exact h.elim
    | delete object => exact h.elim
    | _ => trivial
  | _ => trivial

theorem passive_of_learns : ∀ q, Question.Learns q → q.Passive :=
  passive_of_forall (fun _ h => h) fun _ h => h

theorem passive_of_stores : ∀ q, Question.Stores q → q.Passive :=
  passive_of_forall (fun _ h => h) fun _ h => h

theorem passive_of_gauges : ∀ q, Question.Gauges q → q.Passive :=
  passive_of_forall (fun _ h => h) fun _ h => h

theorem passive_of_handles (ns name : String) (q : Question) (h : q.Handles ns name) :
    q.Passive := by
  rcases h with (rfl | ⟨selector, rfl⟩) | ⟨replicas, rfl⟩ <;> trivial

theorem passive_of_tunes (q : Question) (h : q.Tunes) : q.Passive := by
  rcases h with ⟨profile, rfl⟩ | ⟨options, rfl⟩ | rfl | ⟨selector, rfl⟩ <;> trivial

theorem spares_of_removes (q : Question) (h : Question.Removes (· ≠ .ns) q) : q.Spares := by
  cases q with
  | api call =>
    cases call with
    | delete object => exact h
    | readNamespace name => trivial
    | _ => exact h.elim
  | _ => exact h.elim

/-- The objects behind the namespace are no namespaces. -/
theorem spares_of_creates (ns : String) (q : Question) (h : Question.Creates (Assets.inside ns) q) :
    q.Spares := by
  obtain ⟨object, hmem, rfl⟩ := h
  rcases List.mem_append.mp hmem with hmem | hmem
  · rcases List.mem_cons.mp hmem with rfl | hmem
    · exact fun h => nomatch h
    rcases List.mem_cons.mp hmem with rfl | hmem
    · exact fun h => nomatch h
    rcases List.mem_cons.mp hmem with rfl | hmem
    · exact fun h => nomatch h
    obtain rfl := List.mem_singleton.mp hmem
    exact fun h => nomatch h
  · obtain ⟨termination, -, rfl⟩ := List.mem_map.mp hmem
    exact fun h => nomatch h

/-! ### Teams -/

/-- A team whose helpers neither create nor delete a namespace. -/
structure Team.Spares (team : Team τ) : Prop where
  connect : team.connect.Asks Question.Spares
  drive : ∀ c metadata metrics podMetrics,
    (team.drive c metadata metrics podMetrics).Asks Question.Spares
  tune : ∀ profile, (team.tune profile).Asks Question.Spares
  compare : ∀ comparator, team.compare = some comparator →
    ∀ c results, (comparator c results).Asks Question.Spares

theorem Team.Spares.asksOnly {team : Team τ} (h : team.Spares) : team.AsksOnly Question.Spares :=
  ⟨h.connect, h.drive, h.tune, h.compare⟩

theorem Team.Observed.spares [TimeScale τ] {team : Team τ} (h : team.Observed) : team.Spares where
  connect := h.asks_connect.mono fun q hq => (passive_of_learns q hq).spares
  drive c metadata metrics podMetrics := by
    rw [h.drive]
    exact Outside.asks_drive trivial
  tune profile := (h.asks_tune profile).mono fun q hq => (passive_of_tunes q hq).spares
  compare := Team.asks_comparator h.compare fun _ _ => trivial

/-- The helpers that a run has of its own are such a team. -/
theorem Team.own_spares [TimeScale τ] (env : Environment) (settings : Settings)
    (limits : Limits τ) : (Team.own env settings limits).Spares where
  connect := (Session.asks_connect env settings).mono fun q hq => (passive_of_learns q hq).spares
  drive c metadata metrics podMetrics :=
    (Load.asks_run settings.ns c metadata metrics podMetrics).mono fun q hq =>
      (passive_of_gauges q hq).spares
  tune profile := (Tuning.asks_apply limits.pace limits.tuning profile).mono fun q hq =>
    (passive_of_tunes q hq.tunes).spares
  compare _ hc := nomatch hc

end IngressBench
