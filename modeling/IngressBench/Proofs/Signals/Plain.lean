import IngressBench.Benchmark.Load
import IngressBench.Indexing.Store
import IngressBench.Proofs.Readiness.Missing
import IngressBench.Tuning.Profile

/-!
Failures that are signals, and computations that never end with one. Two failures say something to
whoever started a run: that a comparison failed, and that a wait was cancelled. Reading and judging
values fails in many ways, and none of them is a signal.
-/
namespace IngressBench

variable {α β : Type}

/-- Whether a failure says that a comparison failed, or that a wait was cancelled. -/
def Failure.isSignal : Failure → Bool
  | .comparison => true
  | x => x.isCancelled

theorem Failure.isSignal_of_isCancelled {x : Failure} (h : x.isCancelled = true) :
    x.isSignal = true := by
  cases x <;> first | rfl | exact h

/-- A computation that does not end with a signal. -/
def Plain (e : Except Failure α) : Prop :=
  ∀ x, e = .error x → x.isSignal = false

/-! ### Rules -/

theorem plain_ok (v : α) : Plain (.ok v) :=
  fun _ h => nomatch h

theorem plain_error {x : Failure} (h : x.isSignal = false) : Plain (.error x : Except Failure α) :=
  fun _ hx => Except.error.inj hx ▸ h

theorem plain_bind {e : Except Failure α} {f : α → Except Failure β} (he : Plain e)
    (hf : ∀ v, Plain (f v)) : Plain (e >>= f) := by
  intro x hx
  cases e with
  | ok v => exact hf v x hx
  | error y =>
    cases hx
    exact he x rfl

theorem plain_map {e : Except Failure α} (f : α → β) (he : Plain e) : Plain (e.map f) := by
  intro x hx
  cases e with
  | ok v => cases hx
  | error y =>
    cases hx
    exact he x rfl

theorem plain_mapM {f : α → Except Failure β} (hf : ∀ a, Plain (f a)) (as : List α) :
    Plain (as.mapM f) := by
  induction as with
  | nil => exact plain_ok _
  | cons a rest ih =>
    rw [List.mapM_cons]
    exact plain_bind (hf a) fun _ => plain_bind ih fun _ => plain_ok _

/-! ### Values and records -/

namespace Document

theorem plain_under (d : Document) (name : String) : Plain (d.under name) := by
  unfold under
  split
  · split
    · exact plain_ok _
    · exact plain_error rfl
  all_goals exact plain_error rfl

theorem plain_atPosition (d : Document) (i : Nat) : Plain (d.atPosition i) := by
  unfold atPosition
  split
  · split
    · exact plain_ok _
    · exact plain_error rfl
  · split
    · exact plain_ok _
    · exact plain_error rfl
  · split
    · exact plain_ok _
    · exact plain_error rfl
  · exact plain_error rfl

theorem plain_lookUp (d : Document) (name : String) : Plain (d.lookUp name) := by
  unfold lookUp
  split
  · exact plain_ok _
  · exact plain_error rfl

theorem plain_each (d : Document) : Plain d.each := by
  unfold each
  split
  all_goals first | exact plain_ok _ | exact plain_error rfl

theorem plain_size (d : Document) : Plain d.size := by
  unfold size
  split
  · exact plain_ok _
  · exact plain_error rfl

theorem plain_toFloat (d : Document) : Plain d.toFloat := by
  unfold toFloat
  split
  · dsimp only
    split
    · exact plain_error rfl
    · exact plain_ok _
  · exact plain_ok _
  · exact plain_ok _
  · split
    · exact plain_ok _
    · exact plain_error rfl
  · exact plain_error rfl

end Document

/-! ### Records -/

namespace Record

/-- A reading of a record that only notes issues. -/
def Noting (intake : Intake α) : Prop :=
  ∀ issues, Plain (intake.run issues)

theorem noting_pure (v : α) : Noting (pure v : Intake α) :=
  fun _ => plain_ok _

theorem noting_bind {m : Intake α} {f : α → Intake β} (hm : Noting m) (hf : ∀ v, Noting (f v)) :
    Noting (m >>= f) :=
  fun issues => plain_bind (hm issues) fun (v, noted) => hf v noted

theorem noting_note (name : String) (cause : Cause) : Noting (note name cause) :=
  fun _ => plain_ok _

theorem noting_optional (fields : Fields) (name : String) (default : α)
    (read : Document → Except Cause α) : Noting (optional fields name default read) := by
  unfold optional optionalBy
  split
  · exact noting_pure _
  · split
    · exact noting_pure _
    · exact noting_bind (noting_note _ _) fun _ => noting_pure _

theorem noting_required (fields : Fields) (name : String) (default : α)
    (read : Document → Except Cause α) : Noting (required fields name default read) := by
  unfold required
  split
  · exact noting_bind (noting_note _ _) fun _ => noting_pure _
  · exact noting_optional fields name default read

theorem plain_finish {title : String} {intake : Intake α} (h : Noting intake) :
    Plain (finish title intake) := by
  refine plain_bind (h []) fun (a, issues) => ?_
  dsimp only
  split
  · exact plain_ok _
  · exact plain_error rfl

end Record

open Record

theorem ClusterMetadata.plain_ofFields (fields : Fields) : Plain (ofFields fields) := by
  refine plain_finish ?_
  unfold intake
  iterate 9 refine noting_bind (noting_optional _ _ _ _) fun _ => ?_
  exact noting_pure _

namespace Result

theorem noting_metricsIntake (fields : Fields) : Noting (metricsIntake fields) := by
  unfold metricsIntake
  iterate 9 refine noting_bind (noting_optional _ _ _ _) fun _ => ?_
  exact noting_pure _

theorem plain_ofMetrics (now : Moment) (config : TestCase) (metadata : ClusterMetadata)
    (sample : Nat) (metrics : Metrics) :
    Plain (ofMetrics now config metadata sample metrics) := by
  refine plain_finish ?_
  refine noting_bind (noting_required _ _ _ _) fun _ => ?_
  refine noting_bind (noting_required _ _ _ _) fun _ => ?_
  refine noting_bind (noting_optional _ _ _ _) fun _ => ?_
  refine noting_bind (noting_pure _) fun _ => ?_
  refine noting_bind (noting_pure _) fun _ => ?_
  refine noting_bind (noting_metricsIntake _) fun _ => ?_
  exact noting_bind (noting_optional _ _ _ _) fun _ => noting_pure _

end Result

/-! ### What a cluster tells -/

/-- That something is missing in an answer is no signal. -/
theorem OnlyMisses.plain {e : Except Failure α} (h : OnlyMisses e) : Plain e := by
  intro x hx
  cases h x hx <;> rfl

theorem plain_present (name : String) (a : Option α) : Plain (present name a) :=
  (onlyMisses_present name a).plain

theorem Listing.plain_all (listing : Option (Listing α)) : Plain (Listing.all listing) :=
  (onlyMisses_all listing).plain

theorem plain_pendingOf (pods : List Pod) : Plain (pendingOf pods) :=
  (onlyMisses_pendingOf pods).plain

namespace Deployment

theorem plain_isReady (d : Deployment) : Plain d.isReady :=
  d.onlyMisses_isReady.plain

theorem plain_readyCount (d : Deployment) : Plain d.readyCount :=
  plain_bind (plain_present _ _) fun _ => plain_ok _

theorem plain_state (d : Deployment) (ns : String) : Plain (d.state ns) :=
  (d.onlyMisses_state ns).plain

end Deployment

/-! ### What a run learns -/

namespace Discovery

theorem plain_labelsOf (node : ClusterNode) : Plain (labelsOf node) :=
  plain_bind (plain_present _ _) fun _ => plain_ok _

theorem plain_inner (d : Document) (name : String) : Plain (inner d name) :=
  plain_bind (d.plain_lookUp _) fun _ => plain_ok _

theorem plain_valueOf (d : Document) (name : String) : Plain (valueOf d name) :=
  plain_bind (d.plain_lookUp _) fun _ => plain_ok _

theorem plain_distributionVersion (d : Document) : Plain (distributionVersion d) :=
  plain_bind (plain_inner _ _) fun _ => plain_bind (plain_inner _ _) fun _ => plain_valueOf _ _

theorem plain_platformOf (status : Document) : Plain (platformOf status) := by
  refine plain_bind (plain_inner _ _) fun _ => plain_bind (plain_valueOf _ _) fun type => ?_
  split
  · exact plain_ok _
  · exact plain_valueOf _ _

theorem plain_infrastructure (d : Document) : Plain (infrastructure d) := by
  refine plain_bind (plain_inner _ _) fun _ => plain_bind (plain_valueOf _ _) fun _ => ?_
  exact plain_bind (plain_platformOf _) fun _ => plain_ok _

theorem plain_hostOf (route : Document) : Plain (hostOf route) :=
  plain_bind (route.plain_under _) fun d => d.plain_under _

theorem plain_routerPod (pods : Option (Listing Pod)) : Plain (routerPod pods) := by
  refine plain_bind (plain_present _ _) fun pods => ?_
  split
  · exact plain_error rfl
  · exact plain_bind (plain_present _ _) fun _ => plain_ok _

theorem plain_versionOf (output : Document) : Plain (versionOf output) := by
  refine plain_bind ?_ fun text => ?_
  · unfold outputText
    split
    · exact plain_ok _
    · split
      · exact plain_error rfl
      · exact plain_ok _
  · split
    · exact plain_ok _
    · exact plain_error rfl

end Discovery

/-! ### Tuning profiles -/

namespace Profile

theorem plain_optionValue (value : List Char) : Plain (optionValue value) := by
  unfold optionValue
  split
  · refine plain_map _ ?_
    unfold wholeValue
    split
    · dsimp only
      split
      · exact plain_error rfl
      · exact plain_ok _
    · exact plain_error rfl
  · exact plain_ok _

theorem plain_optionsOf (profile : String) (options : List (String × Document))
    (items : List (List Char)) : Plain (optionsOf profile options items) := by
  induction items generalizing options with
  | nil => exact plain_ok _
  | cons item rest ih =>
    unfold optionsOf
    split
    · exact plain_error rfl
    · exact plain_bind (plain_optionValue _) fun _ => ih _

theorem plain_read (profile : String) : Plain (read profile) := by
  refine plain_bind (plain_optionsOf _ _ _) fun options => ?_
  dsimp only
  split
  · exact plain_error rfl
  · exact plain_ok _

end Profile

/-! ### Measurements -/

theorem plain_wholeSeconds (x : Float) : Plain (wholeSeconds x) := by
  unfold wholeSeconds
  split
  · exact plain_ok _
  · split
    · exact plain_error rfl
    · exact plain_error rfl

theorem TestCase.plain_command (c : TestCase) (url : String) : Plain (c.command url) := by
  unfold command commandFor
  split
  · exact plain_bind (plain_wholeSeconds _) fun _ => plain_ok _
  · exact plain_bind (plain_wholeSeconds _) fun _ => plain_ok _

namespace Aggregate

theorem plain_quantityOf (output : Document) (name : String) : Plain (quantityOf output name) :=
  plain_bind (output.plain_lookUp _) fun _ => Document.plain_toFloat _

theorem plain_column (name : String) (outputs : List Document) :
    Plain (column quantityOf name outputs) := by
  induction outputs with
  | nil => exact plain_ok _
  | cons o rest ih =>
    exact plain_bind (plain_quantityOf o name) fun _ => plain_bind ih fun _ => plain_ok _

theorem plain_ofOutputs (outputs : List Document) : Plain (ofOutputs outputs) := by
  have hcolumn : ∀ (f : List Float → Float) (name : String),
      Plain ((column quantityOf name outputs).map f) := fun f name =>
    plain_map f (plain_column name outputs)
  unfold ofOutputs measures
  dsimp only
  split
  · exact plain_error rfl
  · refine plain_bind (hcolumn _ _) fun _ => plain_bind (plain_wholeSeconds _) fun _ => ?_
    iterate 6 refine plain_bind (hcolumn _ _) fun _ => ?_
    refine plain_bind (hcolumn _ _) fun _ => plain_bind (plain_wholeSeconds _) fun _ => ?_
    refine plain_bind (hcolumn _ _) fun _ => plain_bind (plain_wholeSeconds _) fun _ => ?_
    exact plain_ok _

end Aggregate

theorem Load.plain_podName (p : Pod) : Plain (podName p) :=
  plain_bind (plain_present _ _) fun _ => plain_ok _

theorem Load.plain_outputOf (pod : Option String) (output : Document) :
    Plain (outputOf pod output) := by
  unfold outputOf
  split
  · intro x hx
    rename_i s
    cases hread : Json.read s with
    | ok d =>
      rw [hread] at hx
      cases hx
    | error cause =>
      rw [hread] at hx
      cases hx
      rfl
  · exact plain_error rfl

namespace MetricsServer

theorem plain_read (url : String) (answer : HttpAnswer) : Plain (read url answer) := by
  unfold read
  split
  · exact plain_error rfl
  · refine plain_bind ?_ fun d => ?_
    · unfold payload
      split
      · exact plain_ok _
      · dsimp only
        split
        · exact plain_error rfl
        · exact plain_error rfl
    · refine plain_bind (d.plain_lookUp _) fun status => ?_
      split
      · exact plain_bind (d.plain_under _) fun data => data.plain_under _
      · exact plain_bind (d.plain_lookUp _) fun _ => plain_error rfl

theorem plain_scalarOf (result : Document) : Plain (scalarOf result) := by
  unfold scalarOf
  split
  · exact plain_ok _
  · refine plain_bind (result.plain_atPosition _) fun d => plain_bind (d.plain_under _) fun d => ?_
    exact plain_bind (d.plain_atPosition _) fun d => plain_bind d.plain_toFloat fun _ => plain_ok _

end MetricsServer

end IngressBench
