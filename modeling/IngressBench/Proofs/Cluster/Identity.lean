import IngressBench.Proofs.Cluster.Discovery
import IngressBench.Proofs.Cluster.Roles
import IngressBench.Proofs.Program.Ends
import IngressBench.Proofs.Program.Makes
import IngressBench.Proofs.Result
import IngressBench.Proofs.Run.Sample

/-!
How the answers of a cluster make its identity. Four calls are made, and each part of the identity is
told by the answer to one of them (`Discovery.makes_metadata`): what another answer tells, or that the
cluster lacks one of its own objects, does not change it (`Discovery.Answers.Identifies.sameParts`). A
fault of a call, other than the lack of such an object, ends the collection as a failure of the
connection (`Discovery.endsAt_metadata`). `Discovery.metadata_identifies` is both.
-/
namespace IngressBench

variable {τ σ α : Type}

/-! ### Answers -/

/-- What a fault of a call says about the connection; an object that the cluster does not have says
nothing. -/
def ApiCall.fault? (call : ApiCall) (fault : ApiFault) : Option ConnectivityFault :=
  match call, fault with
  | .readConfig plural name, fault =>
    if fault.hasStatus ApiFault.notFound then none
    else some (.clusterObject plural name (Discovery.faultText fault))
  | _, .rejected _ reason => some (.metadata reason)
  | _, .unreachable text => some (.unreachable text)

/-- What the answer to a call says about the connection. -/
def Event.fault? : Event τ → Option ConnectivityFault
  | .asked (.api call) (.error fault) _ => call.fault? fault
  | _ => none

/-- The value holds mappings along the path, as far as it goes. -/
def Document.Nests : Document → List String → Prop
  | _, [] => True
  | d, name :: path => ∃ entries, d = .map entries ∧
      ∀ inner, find? entries name = some inner → inner.Nests path

/-- How many nodes there are, and how many of them have which role. -/
def ClusterMetadata.counts (m : ClusterMetadata) : NodeCount :=
  ⟨m.totalNodes, m.masterNodes, m.workerNodes, m.infraNodes⟩

namespace Discovery

/-- The four calls, in their order. -/
def questions : List ApiCall :=
  [.version, .listNodes, .readConfig "clusterversions" "version",
    .readConfig "infrastructures" "cluster"]

/-- What the four calls are answered. -/
structure Answers where
  version : Except ApiFault (Option Document)
  nodes : Except ApiFault (Option (Listing ClusterNode))
  distribution : Except ApiFault Document
  infrastructure : Except ApiFault Document

/-- The cluster has the object, with mappings along the path, or it does not have it. -/
def Describes (answer : Except ApiFault Document) (path : List String) : Prop :=
  (∃ d, answer = .ok d ∧ d.Nests path) ∨
    ∃ fault, answer = .error fault ∧ fault.hasStatus ApiFault.notFound = true

/-- The calls succeed, and each answer has the form that it should have; of the cluster's own
objects, either may be missing. -/
structure Answers.WellFormed (a : Answers) : Prop where
  version : ∃ text, a.version = .ok (some (.ofText? text))
  nodes : ∃ nodes, a.nodes = .ok (some ⟨some nodes⟩) ∧ ∀ node ∈ nodes, node.metadata.isSome = true
  distribution : Describes a.distribution ["status", "desired", "version"]
  infrastructure : Describes a.infrastructure ["status", "platformStatus", "type"]

/-- The labels of a node, if it has any. -/
def labelsOfNode (node : ClusterNode) : Labels :=
  (node.metadata.bind ObjectMeta.labels).getD []

/-- The labels of the nodes. -/
def Answers.labels (a : Answers) : List Labels :=
  ((a.nodes.toOption.bind fun listing => listing.bind Listing.items).getD []).map labelsOfNode

/-- An object of the cluster's own; one that the cluster does not have tells nothing. -/
def described (answer : Except ApiFault Document) : Document :=
  answer.toOption.getD .null

/-- The platform that the state of the infrastructure tells; an older one tells it in another
place. -/
def platformIn (status : Document) : Document :=
  let type := (status.part "platformStatus").part "type"
  if type.truthy then type else status.part "platform"

/-- The identity tells what the answers tell. -/
structure Answers.Identifies (a : Answers) (m : ClusterMetadata) : Prop where
  k8sVersion : a.version = .ok (some (.ofText? m.k8sVersion))
  counts : Counts a.labels m.counts
  ocpVersion : m.ocpVersion =
    (((described a.distribution).part "status").part "desired").part "version"
  clusterName : m.clusterName =
    ((described a.infrastructure).part "status").part "infrastructureName"
  platform : m.platform = platformIn ((described a.infrastructure).part "status")
  haproxyVersion : m.haproxyVersion = none

/-- Without an object of the cluster's own, what it would tell is empty. -/
structure Lacks (a : Answers) (m : ClusterMetadata) : Prop where
  ocpVersion : ∀ fault, a.distribution = .error fault → m.ocpVersion = .null
  clusterName : ∀ fault, a.infrastructure = .error fault → m.clusterName = .null
  platform : ∀ fault, a.infrastructure = .error fault → m.platform = .null

/-- Each part of one identity is that of the other where the answers to the call that tells it agree;
the counts are the same where the nodes are but for what does not count. -/
structure SameParts (a a' : Answers) (m m' : ClusterMetadata) : Prop where
  k8sVersion : a.version = a'.version → m.k8sVersion = m'.k8sVersion
  counts : Alike a.labels a'.labels → m.counts = m'.counts
  ocpVersion : a.distribution = a'.distribution → m.ocpVersion = m'.ocpVersion
  clusterName : a.infrastructure = a'.infrastructure → m.clusterName = m'.clusterName
  platform : a.infrastructure = a'.infrastructure → m.platform = m'.platform
  haproxyVersion : m.haproxyVersion = m'.haproxyVersion

theorem ofText?_inj {text text' : Option String}
    (h : Document.ofText? text = .ofText? text') : text = text' := by
  cases text <;> cases text' <;> cases h <;> rfl

namespace Answers.Identifies
variable {a a' : Answers} {m m' : ClusterMetadata}

/-- **No answer changes what another one tells.** -/
theorem sameParts (h : a.Identifies m) (h' : a'.Identifies m') : SameParts a a' m m' where
  k8sVersion heq := by
    have hanswers := h.k8sVersion.symm.trans (heq.trans h'.k8sVersion)
    exact ofText?_inj (Option.some.inj (Except.ok.inj hanswers))
  counts halike := (h.counts.of_alike halike).unique h'.counts
  ocpVersion heq := by rw [h.ocpVersion, h'.ocpVersion, heq]
  clusterName heq := by rw [h.clusterName, h'.clusterName, heq]
  platform heq := by rw [h.platform, h'.platform, heq]
  haproxyVersion := h.haproxyVersion.trans h'.haproxyVersion.symm

theorem lacks (h : a.Identifies m) : Lacks a m where
  ocpVersion fault hlacks := by
    rw [h.ocpVersion, hlacks]
    rfl
  clusterName fault hlacks := by
    rw [h.clusterName, hlacks]
    rfl
  platform fault hlacks := by
    rw [h.platform, hlacks]
    rfl

end Answers.Identifies
end Discovery

/-- What a world answers to the four calls, made from a state on. -/
def World.answers (w : World τ σ) (s : σ) : Discovery.Answers :=
  let version := w.answer (.api .version) s
  let nodes := w.answer (.api .listNodes) version.2.2
  let distribution := w.answer (.api (.readConfig "clusterversions" "version")) nodes.2.2
  let infrastructure :=
    w.answer (.api (.readConfig "infrastructures" "cluster")) distribution.2.2
  ⟨version.1, nodes.1, distribution.1, infrastructure.1⟩

namespace Discovery

/-! ### Steps of the collection -/

section Steps
variable {plural name : String} {read : Document → Except Failure α} {add : α → ClusterMetadata}
  {m : ClusterMetadata}

/-- Adds what an object of the cluster's own tells, if it tells anything. -/
def withObject (plural name : String) (read : Document → Except Failure α)
    (add : α → ClusterMetadata) (m : ClusterMetadata) : Action τ ClusterMetadata := do
  let object ← clusterObject plural name
  if object.truthy then
    return add (← Action.ofExcept (read object))
  else return m

theorem withIdentity_eq (m : ClusterMetadata) :
    (withIdentity m : Action τ ClusterMetadata) =
      withObject "infrastructures" "cluster" infrastructure
        (fun told => { m with clusterName := told.1, platform := told.2 }) m := rfl

theorem metadata_parts : (metadata : Action τ ClusterMetadata) = (do
    let m ← versionAndNodes
    let m ← withObject "clusterversions" "version" distributionVersion
      (fun ocpVersion => { m with ocpVersion }) m
    withIdentity m) := by
  rw [metadata_eq]
  refine bind_congr fun m => ?_
  unfold withObject
  rw [bind_assoc]
  refine bind_congr fun object => ?_
  split <;> simp

/-! ### Faults -/

/-- The failure of the collection that an event tells. -/
def fatal (e : Event τ) : Option Failure :=
  e.fault?.map .connectivity

theorem endsAt_metadataCall {call : ApiCall}
    (hcall : ∀ fault, (call.fault? fault).map .connectivity = some (metadataFailure fault)) :
    (metadataCall call : Action τ call.Reply).EndsAt fatal := by
  apply Action.endsAt_ask_bind
  · intro answer time hnone
    cases answer with
    | ok reply => exact Action.endsAt_of_only (Action.only_pure reply)
    | error fault => exact Action.endsAt_of_only (Action.only_throw _)
  · intro answer time x hx
    cases answer with
    | ok reply => cases hx
    | error fault =>
      obtain rfl : metadataFailure fault = x := Option.some.inj ((hcall fault).symm.trans hx)
      rfl

theorem endsAt_versionAndNodes : (versionAndNodes : Action τ ClusterMetadata).EndsAt fatal := by
  have hcall : ∀ call ∈ [ApiCall.version, .listNodes], ∀ fault,
      (call.fault? fault).map .connectivity = some (metadataFailure fault) := by
    intro call hmem fault
    simp only [List.mem_cons, List.not_mem_nil, or_false] at hmem
    rcases hmem with rfl | rfl <;> cases fault <;> rfl
  refine Action.endsAt_bind (endsAt_metadataCall (hcall _ (by simp))) fun _ _ _ => ?_
  refine Action.endsAt_bind (endsAt_metadataCall (hcall _ (by simp))) fun _ _ _ => ?_
  exact Action.endsAt_of_only (Action.only_ofExcept _)

/-- Here a fault can be that the cluster does not have the object; then it is no failure. -/
theorem endsAt_clusterObject (plural name : String) :
    (clusterObject plural name : Action τ Document).EndsAt fatal := by
  apply Action.endsAt_ask_bind
  · intro answer time hnone
    cases answer with
    | ok d => exact Action.endsAt_of_only (Action.only_pure d)
    | error fault =>
      dsimp only
      split
      · exact Action.endsAt_of_only (Action.only_pure _)
      · exact Action.endsAt_of_only (Action.only_throw _)
  · intro answer time x hx
    cases answer with
    | ok d => cases hx
    | error fault =>
      dsimp only
      split
      · rename_i hmissing
        simp [fatal, Event.fault?, ApiCall.fault?, hmissing] at hx
      · rename_i hfound
        obtain rfl : Failure.connectivity (.clusterObject plural name (faultText fault)) = x := by
          simpa [fatal, Event.fault?, ApiCall.fault?, hfound] using hx
        rfl

theorem endsAt_withObject :
    (withObject plural name read add m : Action τ ClusterMetadata).EndsAt fatal := by
  refine Action.endsAt_bind (endsAt_clusterObject _ _) fun _ object _ => ?_
  apply Action.endsAt_of_only
  split
  · exact Action.only_bind (Action.only_ofExcept _) fun _ => Action.only_pure _
  · exact Action.only_pure _

/-- **A fault of a call ends the collection** as the failure of the connection that it tells. -/
theorem endsAt_metadata : (metadata : Action τ ClusterMetadata).EndsAt fatal := by
  rw [metadata_parts]
  refine Action.endsAt_bind endsAt_versionAndNodes fun _ m _ => ?_
  refine Action.endsAt_bind endsAt_withObject fun _ m _ => ?_
  rw [withIdentity_eq]
  exact endsAt_withObject

end Steps

variable [TimeScale τ] {w : World τ σ} {s s₁ s₂ : σ}

/-! ### Versions and nodes -/

theorem makes_metadataCall {call : ApiCall} {reply : call.Reply} {cost : τ}
    (hreply : w.answer (.api call) s = (.ok reply, cost, s₁)) :
    w.Makes (metadataCall call) s reply [call] s₁ :=
  (World.makes_api hreply).bind (World.makes_pure reply) rfl

theorem mapM_labelsOf {nodes : List ClusterNode}
    (h : ∀ node ∈ nodes, node.metadata.isSome = true) :
    nodes.mapM labelsOf = .ok (nodes.map labelsOfNode) := by
  induction nodes with
  | nil => rfl
  | cons node nodes ih =>
    obtain ⟨metadata, hmetadata⟩ := Option.isSome_iff_exists.mp (h node List.mem_cons_self)
    have hnode : labelsOf node = .ok (labelsOfNode node) := by
      simp only [labelsOf, labelsOfNode, hmetadata]
      rfl
    rw [List.mapM_cons, hnode, ih fun node hnode => h node (List.mem_cons_of_mem _ hnode)]
    rfl

open Record in
/-- A text or nothing for the version, and a count of nodes, are accepted. -/
theorem ofFields_counted (text : Option String) (n : Nat) :
    ClusterMetadata.ofFields [("k8s_version", .ofText? text), ("total_nodes", .int n)] =
      .ok { k8sVersion := text, totalNodes := n } := by
  have hlabel : ClusterMetadata.asLabel (.ofText? text) = .ok text := by
    cases text <;> rfl
  have hnodes : ClusterMetadata.asNodes (.int n) = .ok n := by
    unfold ClusterMetadata.asNodes
    rw [(Result.atLeast_int 0 n).1 (Int.natCast_nonneg n)]
    rfl
  have hyields : Yields (ClusterMetadata.intake
      [("k8s_version", .ofText? text), ("total_nodes", .int n)])
      (· = { k8sVersion := text, totalNodes := n }) True := by
    have hparts : True ↔
        True ∧ True ∧ True ∧ True ∧ True ∧ True ∧ True ∧ True ∧ True ∧ True := by simp
    rw [hparts]
    unfold ClusterMetadata.intake
    iterate 3 refine Yields.bind (yields_absent rfl) fun _ => ?_
    refine Yields.bind (yields_optional rfl (fun _ => hlabel) fun h => absurd trivial h) fun _ => ?_
    refine Yields.bind (yields_optional rfl (fun _ => hnodes) fun h => absurd trivial h) fun _ => ?_
    iterate 4 refine Yields.bind (yields_absent rfl) fun _ => ?_
    refine yields_pure ?_
    rintro rfl rfl rfl rfl rfl rfl rfl rfl rfl
    rfl
  obtain ⟨m, hm, rfl⟩ := (hyields.finish "ClusterMetadata").1 trivial
  exact hm

/-- What the first two answers tell. -/
def counted (text : Option String) (nodes : List Labels) : ClusterMetadata :=
  let n := countNodes nodes
  { k8sVersion := text, totalNodes := nodes.length, masterNodes := n.masters,
    workerNodes := n.workers, infraNodes := n.infra }

theorem counts_counted (text : Option String) (nodes : List Labels) :
    (counted text nodes).counts = countNodes nodes := by
  have htotal := (countNodes_counts nodes).total
  simp only [counted, ClusterMetadata.counts, ← htotal]

theorem makes_versionAndNodes {text : Option String} {nodes : List ClusterNode} {cost cost' : τ}
    (hversion : w.answer (.api .version) s = (.ok (some (.ofText? text)), cost, s₁))
    (hnodes : w.answer (.api .listNodes) s₁ = (.ok (some ⟨some nodes⟩), cost', s₂))
    (hlabels : ∀ node ∈ nodes, node.metadata.isSome = true) :
    w.Makes versionAndNodes s (counted text (nodes.map labelsOfNode)) [.version, .listNodes] s₂ := by
  refine (makes_metadataCall hversion).bind ((makes_metadataCall hnodes).bind ?_ rfl) rfl
  refine World.makes_ofExcept (bind_eq_of_ok rfl (bind_eq_of_ok rfl (bind_eq_of_ok rfl ?_)))
  refine bind_eq_of_ok (ofFields_counted text nodes.length) ?_
  refine bind_eq_of_ok (mapM_labelsOf hlabels) ?_
  simp only [counted, List.length_map]
  rfl

/-! ### The cluster's own objects -/

section Objects
variable {d : Document} {name : String} {path : List String}

theorem part_of_not_truthy (h : d.truthy = false) (name : String) : d.part name = .null := by
  cases d with
  | map entries =>
    obtain rfl : entries = [] := by simpa [Document.truthy] using h
    rfl
  | _ => rfl

theorem valueOf_eq (h : d.Nests (name :: path)) (key : String) :
    valueOf d key = .ok (d.part key) := by
  obtain ⟨entries, rfl, -⟩ := h
  rfl

/-- Inside a mapping along a path there is a mapping along the rest of the path, with the same
parts. -/
theorem inner_eq (h : d.Nests (name :: path)) : ∃ e, inner d name = .ok e ∧ e.Nests path ∧
    ∀ key, e.part key = (d.part name).part key := by
  obtain ⟨entries, rfl, hnests⟩ := h
  cases hfound : Document.find? entries name with
  | none =>
    have hpart : (Document.map entries).part name = .null := by
      simp [Document.part, Document.get?, hfound]
    refine ⟨.map [], ?_, ?_, fun key => by rw [hpart]; rfl⟩
    · simp [inner, Document.lookUp, hfound]
    · cases path <;> simp [Document.Nests, Document.find?]
  | some e =>
    have hpart : (Document.map entries).part name = e := by
      simp [Document.part, Document.get?, hfound]
    refine ⟨e, ?_, hnests e hfound, fun key => by rw [hpart]⟩
    simp [inner, Document.lookUp, hfound]

theorem distributionVersion_eq (h : d.Nests ["status", "desired", "version"]) :
    distributionVersion d = .ok (((d.part "status").part "desired").part "version") := by
  obtain ⟨status, hstatus, hnests, hparts⟩ := inner_eq h
  obtain ⟨desired, hdesired, hnests', hparts'⟩ := inner_eq hnests
  refine bind_eq_of_ok hstatus (bind_eq_of_ok hdesired ?_)
  rw [valueOf_eq hnests', hparts', hparts]

theorem infrastructure_eq (h : d.Nests ["status", "platformStatus", "type"]) :
    infrastructure d =
      .ok ((d.part "status").part "infrastructureName", platformIn (d.part "status")) := by
  obtain ⟨status, hstatus, hnests, hparts⟩ := inner_eq h
  obtain ⟨platform, hplatform, hnests', hparts'⟩ := inner_eq hnests
  have hof : platformOf status = .ok (platformIn (d.part "status")) := by
    refine bind_eq_of_ok hplatform (bind_eq_of_ok (valueOf_eq hnests' _) ?_)
    simp only [platformIn, valueOf_eq hnests, hparts', hparts]
    split <;> rfl
  refine bind_eq_of_ok hstatus (bind_eq_of_ok (valueOf_eq hnests _) (bind_eq_of_ok hof ?_))
  rw [hparts]
  rfl

theorem makes_clusterObject {plural : String} {answer : Except ApiFault Document} {cost : τ}
    (hanswer : w.answer (.api (.readConfig plural name)) s = (answer, cost, s₁))
    (h : Describes answer path) :
    w.Makes (clusterObject plural name) s (described answer) [.readConfig plural name] s₁ := by
  refine (World.makes_api hanswer).bind ?_ (List.append_nil _)
  rcases h with ⟨d, rfl, -⟩ | ⟨fault, rfl, hmissing⟩
  · exact World.makes_pure d
  · dsimp only
    rw [if_pos hmissing]
    exact World.makes_pure _

/-- An object that is read as `v` where it nests as it should adds `v`, provided that `v` changes
nothing where the object tells nothing. -/
theorem makes_withObject {plural : String} {answer : Except ApiFault Document} {cost : τ}
    {read : Document → Except Failure α} {add : α → ClusterMetadata} {m : ClusterMetadata} {v : α}
    (hanswer : w.answer (.api (.readConfig plural name)) s = (answer, cost, s₁))
    (h : Describes answer path)
    (hread : (described answer).Nests path → read (described answer) = .ok v)
    (hsame : (∀ key, (described answer).part key = .null) → add v = m) :
    w.Makes (withObject plural name read add m) s (add v) [.readConfig plural name] s₁ := by
  refine (makes_clusterObject hanswer h).bind ?_ (List.append_nil _)
  split
  · rename_i htold
    have hnests : (described answer).Nests path := by
      rcases h with ⟨d, rfl, hnests⟩ | ⟨fault, rfl, -⟩
      · exact hnests
      · cases htold
    exact (World.makes_ofExcept (hread hnests)).bind (World.makes_pure _) rfl
  · rename_i htold
    rw [hsame (part_of_not_truthy (Bool.eq_false_of_not_eq_true htold))]
    exact World.makes_pure m

theorem makes_withVersion {m : ClusterMetadata} {answer : Except ApiFault Document} {cost : τ}
    (hversion : m.ocpVersion = .null)
    (hanswer : w.answer (.api (.readConfig "clusterversions" "version")) s = (answer, cost, s₁))
    (h : Describes answer ["status", "desired", "version"]) :
    w.Makes (withObject "clusterversions" "version" distributionVersion
        (fun ocpVersion => { m with ocpVersion }) m) s
      { m with
        ocpVersion := (((described answer).part "status").part "desired").part "version" }
      [.readConfig "clusterversions" "version"] s₁ := by
  refine makes_withObject hanswer h distributionVersion_eq fun hnothing => ?_
  rw [hnothing]
  exact congrArg (fun ocpVersion => { m with ocpVersion }) hversion.symm

theorem makes_withIdentity {m : ClusterMetadata} {answer : Except ApiFault Document} {cost : τ}
    (hname : m.clusterName = .null) (hplatform : m.platform = .null)
    (hanswer : w.answer (.api (.readConfig "infrastructures" "cluster")) s = (answer, cost, s₁))
    (h : Describes answer ["status", "platformStatus", "type"]) :
    w.Makes (withIdentity m) s
      { m with
        clusterName := ((described answer).part "status").part "infrastructureName"
        platform := platformIn ((described answer).part "status") }
      [.readConfig "infrastructures" "cluster"] s₁ := by
  rw [withIdentity_eq]
  refine makes_withObject hanswer h infrastructure_eq fun hnothing => ?_
  rw [hnothing]
  exact congrArg₂ (fun clusterName platform => { m with clusterName, platform }) hname.symm
    hplatform.symm

end Objects

/-! ### All four answers -/

/-- **Answers of the right form make an identity**, which tells what they tell. -/
theorem makes_metadata (h : (w.answers s).WellFormed) :
    ∃ m s', w.Makes metadata s m questions s' ∧ (w.answers s).Identifies m := by
  obtain ⟨⟨text, hversion⟩, ⟨nodes, hnodes, hlabels⟩, hdistribution, hinfrastructure⟩ := h
  have heta : ∀ {q : Question} {t : σ} {r : q.Reply}, (w.answer q t).1 = r →
      w.answer q t = (r, (w.answer q t).2.1, (w.answer q t).2.2) := by
    rintro q t r rfl
    rfl
  have hcounted := makes_versionAndNodes (heta hversion) (heta hnodes) hlabels
  have hversioned := makes_withVersion (m := counted text (nodes.map labelsOfNode)) rfl (heta rfl)
    hdistribution
  rw [metadata_parts]
  refine ⟨_, _, hcounted.bind (hversioned.bind
    (makes_withIdentity rfl rfl (heta rfl) hinfrastructure) rfl) rfl, ?_⟩
  have hknown : (w.answers s).labels = nodes.map labelsOfNode := by
    unfold Answers.labels
    rw [hnodes]
    rfl
  refine ⟨hversion, ?_, rfl, rfl, rfl, rfl⟩
  rw [hknown]
  exact counts_counted text _ ▸ countNodes_counts _

/-- **A cluster is identified by what it answers.** Answers of the right form make an identity, which
counts the nodes of each role; each part of it depends on the answer to one call only, and is empty
where the cluster lacks the object that would tell it. Any other fault of a call ends the collection
at once, as a failure of the connection. -/
theorem metadata_identifies (w : World τ σ) (s : σ) :
    ((w.answers s).WellFormed → ∃ m s', w.Makes metadata s m questions s' ∧
      (w.answers s).Identifies m ∧ Lacks (w.answers s) m ∧
      (m.masterNodes ≤ m.totalNodes ∧ m.workerNodes ≤ m.totalNodes ∧ m.infraNodes ≤ m.totalNodes) ∧
      ∀ (w' : World τ σ) (t : σ), (w'.answers t).WellFormed → ∃ m' t',
        w'.Makes metadata t m' questions t' ∧ SameParts (w.answers s) (w'.answers t) m m') ∧
    ∀ before (e : Event τ) after r x,
      (metadata : Action τ ClusterMetadata).Leaves (before ++ e :: after) r → e.fault? = some x →
        after = [] ∧ r = .error (.connectivity x) := by
  constructor
  · intro h
    obtain ⟨m, s', hmakes, hm⟩ := makes_metadata h
    refine ⟨m, s', hmakes, hm, hm.lacks, hm.counts.le_total, fun w' t h' => ?_⟩
    obtain ⟨m', t', hmakes', hm'⟩ := makes_metadata h'
    exact ⟨m', t', hmakes', hm.sameParts hm'⟩
  · intro before e after r x hleaves hfault
    exact endsAt_metadata before e after r _ hleaves
      (congrArg (Option.map Failure.connectivity) hfault)

end Discovery

namespace Sample

/-- A cluster of three nodes, one with two names for one role, one without labels, and one with two
roles; it tells its name, and the platform in the old place, but not the version of its
distribution. -/
def mixed : World Nat Unit :=
  world (fun _ call => match call with
    | .listNodes => .ok (some ⟨some [
        ⟨some { labels := some [("node-role.kubernetes.io/master", ""),
          ("node-role.kubernetes.io/control-plane", ""), ("kubernetes.io/os", "linux")] }⟩,
        ⟨some {}⟩,
        ⟨some { labels := some [("node-role.kubernetes.io/infra", ""),
          ("node-role.kubernetes.io/worker", "")] }⟩]⟩)
    | .readConfig "infrastructures" _ => .ok (.object [("status", .object
        [("infrastructureName", .text "perf-abc12"), ("platform", .text "AWS")])])
    | call => Ideal.answer {} call) fun _ _ => ()

/-- A cluster whose own objects may not be read. -/
def barred : World Nat Unit :=
  world (fun _ call => match call with
    | .readConfig .. => .error (.rejected 403 (some "Forbidden"))
    | call => Ideal.answer {} call) fun _ _ => ()

end Sample

namespace Discovery

theorem metadata_identifies_mixed : (Sample.mixed.answers ()).WellFormed ∧
    (∃ m s', Sample.mixed.Makes metadata () m questions s' ∧ m.counts = ⟨3, 1, 1, 1⟩ ∧
      m.ocpVersion.truthy = false ∧ m.platform.text? = some "AWS") ∧
    (Sample.barred.trace 0 () (metadata : Action Nat ClusterMetadata).run).1 =
      .error (.connectivity (.clusterObject "clusterversions" "version" "Forbidden")) := by
  have hformed : (Sample.mixed.answers ()).WellFormed := by
    refine ⟨⟨some "v1.29.0", rfl⟩, ⟨_, rfl, by decide⟩, .inr ⟨_, rfl, rfl⟩, .inl ⟨_, rfl, ?_⟩⟩
    simp [Document.Nests, Document.object, Document.find?]
  obtain ⟨m, s', hmakes, hm, hlacks, -⟩ := (metadata_identifies Sample.mixed ()).1 hformed
  have hleaves : (metadata : Action Nat ClusterMetadata).Leaves
      ([.asked (.api .version) (.ok (some (.text "v1.29.0"))) 0,
        .asked (.api .listNodes) (.ok (some ⟨some []⟩)) 1] ++
        .asked (.api (.readConfig "clusterversions" "version"))
          (.error (.rejected 403 (some "Forbidden"))) 2 :: [])
      (Sample.barred.trace 0 () (metadata : Action Nat ClusterMetadata).run).1 :=
    Sample.barred.trace_leaves 0 () _
  refine ⟨hformed, ⟨m, s', hmakes, ?_, ?_, ?_⟩,
    ((metadata_identifies Sample.barred ()).2 _ _ _ _ _ hleaves rfl).2⟩
  · exact (hm.counts.unique (countNodes_counts _)).trans (by decide)
  · rw [hlacks.ocpVersion _ rfl]
    rfl
  · rw [hm.platform]
    decide

end Discovery
end IngressBench
