import IngressBench.Proofs.Readiness.Pending

/-!
Answers in which something is missing. Judging a deployment, telling its state and telling why pods
are pending fail for no other reason, and a failure of the last two means that the answer is not
well-formed (`Deployment.wellFormed_iff`, `soundListing_iff`).
-/
namespace IngressBench

variable {α β : Type}

/-- The failure of an answer in which something is missing: a part, a list or a name. -/
inductive Failure.Missing : Failure → Prop where
  | part (name : String) : Missing (absentPart name)
  | list : Missing absentList
  | name (title field : String) : Missing (.invalid title [.at field .notText])

/-- A computation that fails only when something is missing. -/
def OnlyMisses (e : Except Failure α) : Prop :=
  ∀ x, e = .error x → x.Missing

/-! ### Rules -/

theorem onlyMisses_ok (v : α) : OnlyMisses (.ok v) :=
  fun _ h => nomatch h

theorem onlyMisses_error {x : Failure} (h : x.Missing) :
    OnlyMisses (.error x : Except Failure α) :=
  fun _ hx => Except.error.inj hx ▸ h

theorem onlyMisses_bind {e : Except Failure α} {f : α → Except Failure β} (he : OnlyMisses e)
    (hf : ∀ v, OnlyMisses (f v)) : OnlyMisses (e >>= f) := by
  intro x hx
  rcases bind_eq_error_iff.mp hx with hx | ⟨v, -, hx⟩
  · exact he x hx
  · exact hf v x hx

theorem onlyMisses_filterMapM {f : α → Except Failure (Option β)} (hf : ∀ a, OnlyMisses (f a))
    (as : List α) : OnlyMisses (as.filterMapM f) := by
  induction as with
  | nil => exact onlyMisses_ok _
  | cons a rest ih =>
    rw [List.filterMapM_cons]
    refine onlyMisses_bind (hf a) fun b => ?_
    cases b with
    | none => exact ih
    | some b => exact onlyMisses_bind ih fun _ => onlyMisses_ok _

/-! ### Failures -/

theorem onlyMisses_present (name : String) (a : Option α) : OnlyMisses (present name a) := by
  cases a with
  | some a => exact onlyMisses_ok _
  | none => exact onlyMisses_error (.part name)

theorem onlyMisses_named (title field : String) (s : Option String) :
    OnlyMisses (named title field s) := by
  cases s with
  | some s => exact onlyMisses_ok _
  | none => exact onlyMisses_error (.name title field)

theorem Listing.onlyMisses_all (listing : Option (Listing α)) :
    OnlyMisses (Listing.all listing) := by
  refine onlyMisses_bind (onlyMisses_present _ _) fun listing => ?_
  split
  · exact onlyMisses_ok _
  · exact onlyMisses_error .list

namespace Deployment

theorem onlyMisses_isReady (d : Deployment) : OnlyMisses d.isReady :=
  onlyMisses_bind (onlyMisses_present _ _) fun _ =>
    onlyMisses_bind (onlyMisses_present _ _) fun _ => onlyMisses_ok _

theorem onlyMisses_selector (d : Deployment) : OnlyMisses d.selector :=
  onlyMisses_bind (onlyMisses_present _ _) fun _ =>
    onlyMisses_bind (onlyMisses_present _ _) fun _ => onlyMisses_ok _

theorem onlyMisses_state (d : Deployment) (ns : String) : OnlyMisses (d.state ns) := by
  refine onlyMisses_bind d.onlyMisses_selector fun _ => ?_
  refine onlyMisses_bind (onlyMisses_present _ _) fun _ => ?_
  refine onlyMisses_bind (onlyMisses_present _ _) fun _ => ?_
  refine onlyMisses_bind (onlyMisses_present _ _) fun _ => ?_
  exact onlyMisses_bind (onlyMisses_named _ _ _) fun _ => onlyMisses_ok _

end Deployment

namespace Pod

theorem onlyMisses_place (p : Pod) : OnlyMisses p.place :=
  onlyMisses_bind (onlyMisses_present _ _) fun _ =>
    onlyMisses_bind (onlyMisses_present _ _) fun _ => onlyMisses_ok _

theorem onlyMisses_waitingContainer (p : Pod) (name : Option String) (w : Waiting) :
    OnlyMisses (p.waitingContainer name w) :=
  onlyMisses_bind p.onlyMisses_place fun _ =>
    onlyMisses_bind (onlyMisses_named _ _ _) fun _ => onlyMisses_ok _

theorem onlyMisses_pending (p : Pod) : OnlyMisses p.pending := by
  refine onlyMisses_bind (onlyMisses_present _ _) fun status => ?_
  refine onlyMisses_bind (onlyMisses_filterMapM (fun c => ?_) _) fun entries => ?_
  · split
    · exact onlyMisses_bind (p.onlyMisses_waitingContainer _ _) fun _ => onlyMisses_ok _
    · exact onlyMisses_ok _
  · dsimp only
    split
    · exact onlyMisses_ok _
    · exact onlyMisses_bind p.onlyMisses_place fun _ =>
        onlyMisses_bind (onlyMisses_named _ _ _) fun _ => onlyMisses_ok _

end Pod

theorem onlyMisses_pendingOf (pods : List Pod) : OnlyMisses (pendingOf pods) := by
  induction pods with
  | nil => exact onlyMisses_ok _
  | cons p rest ih =>
    exact onlyMisses_bind p.onlyMisses_pending fun _ => onlyMisses_bind ih fun _ => onlyMisses_ok _

/-! ### Successes -/

theorem some_of_present {name : String} {o : Option α} {a : α} (h : present name o = .ok a) :
    o = some a := by
  cases o with
  | some b => exact congrArg some (Except.ok.inj h)
  | none => cases h

theorem some_of_named {title field name : String} {o : Option String}
    (h : named title field o = .ok name) : o = some name := by
  cases o with
  | some s => exact congrArg some (Except.ok.inj h)
  | none => cases h

/-- **A deployment is well-formed exactly when its state can be told.** -/
theorem Deployment.wellFormed_iff {d : Deployment} (ns : String) :
    d.WellFormed ↔ ∃ state, d.state ns = .ok state := by
  constructor
  · intro hd
    obtain ⟨state, hstate, -, -⟩ := hd.state_tells ns
    exact ⟨state, hstate⟩
  · intro htold
    obtain ⟨state, hstate⟩ := htold
    obtain ⟨selector, hselector, hrest⟩ := bind_eq_ok_iff.mp hstate
    obtain ⟨m, hm, hrest⟩ := bind_eq_ok_iff.mp hrest
    obtain ⟨_, -, hrest⟩ := bind_eq_ok_iff.mp hrest
    obtain ⟨status, hstatus, hrest⟩ := bind_eq_ok_iff.mp hrest
    obtain ⟨name, hname, -⟩ := bind_eq_ok_iff.mp hrest
    obtain ⟨spec, hspec, hlabels⟩ := bind_eq_ok_iff.mp hselector
    obtain ⟨labels, hlabels, -⟩ := bind_eq_ok_iff.mp hlabels
    exact ⟨⟨m, name, some_of_present hm, some_of_named hname⟩,
      ⟨spec, labels, some_of_present hspec, some_of_present hlabels⟩,
      ⟨status, some_of_present hstatus⟩⟩

/-- An entry of a list comes from one of its elements. -/
theorem exists_of_mem_filterMapM {f : α → Except Failure (Option β)} {as : List α} {bs : List β}
    {b : β} (h : as.filterMapM f = .ok bs) (hb : b ∈ bs) : ∃ a ∈ as, f a = .ok (some b) := by
  induction as generalizing bs with
  | nil =>
    cases h
    cases hb
  | cons a rest ih =>
    rw [List.filterMapM_cons] at h
    obtain ⟨seen, ha, h⟩ := bind_eq_ok_iff.mp h
    cases seen with
    | none =>
      obtain ⟨c, hc, hcb⟩ := ih h hb
      exact ⟨c, List.mem_cons_of_mem a hc, hcb⟩
    | some first =>
      obtain ⟨others, hothers, hbs⟩ := bind_eq_ok_iff.mp h
      cases hbs
      rcases List.mem_cons.mp hb with rfl | hb
      · exact ⟨a, List.mem_cons_self, ha⟩
      · obtain ⟨c, hc, hcb⟩ := ih hothers hb
        exact ⟨c, List.mem_cons_of_mem a hc, hcb⟩

namespace Pod

variable {p : Pod}

/-- A pod with a place, a name and a status is well-formed. -/
theorem WellFormed.of_place {place : Option String × Option String} {title field name : String}
    {status : PodStatus} (hstatus : p.status = some status) (hplace : p.place = .ok place)
    (hname : named title field place.1 = .ok name) : p.WellFormed := by
  obtain ⟨m, hm, hrest⟩ := bind_eq_ok_iff.mp hplace
  obtain ⟨node, hnode, hpair⟩ := bind_eq_ok_iff.mp hrest
  cases hpair
  exact ⟨⟨m, name, some_of_present hm, some_of_named hname⟩, ⟨node, some_of_present hnode⟩,
    ⟨status, hstatus⟩⟩

/-- A pod of which it can be told why it is pending is well-formed. -/
theorem WellFormed.of_pending {entries : List PendingContainer} (h : p.pending = .ok entries) :
    p.WellFormed := by
  obtain ⟨status, hstatus, h⟩ := bind_eq_ok_iff.mp h
  obtain ⟨waiting, hwaiting, h⟩ := bind_eq_ok_iff.mp h
  -- Its place comes with an entry of a container that waits, or else with the entry of the pod.
  cases waiting with
  | cons entry others =>
    obtain ⟨c, -, hc⟩ := exists_of_mem_filterMapM hwaiting List.mem_cons_self
    cases hw : c.waiting with
    | none =>
      rw [hw] at hc
      cases hc
    | some w =>
      rw [hw] at hc
      obtain ⟨entry', hentry, -⟩ := bind_eq_ok_iff.mp hc
      obtain ⟨place, hplace, hentry⟩ := bind_eq_ok_iff.mp hentry
      obtain ⟨name, hname, -⟩ := bind_eq_ok_iff.mp hentry
      exact .of_place (some_of_present hstatus) hplace hname
  | nil =>
    obtain ⟨place, hplace, h⟩ := bind_eq_ok_iff.mp h
    obtain ⟨name, hname, -⟩ := bind_eq_ok_iff.mp h
    exact .of_place (some_of_present hstatus) hplace hname

end Pod

theorem wellFormed_of_pendingOf {pods : List Pod} {entries : List PendingContainer}
    (h : pendingOf pods = .ok entries) : ∀ p ∈ pods, p.WellFormed := by
  induction pods generalizing entries with
  | nil => simp
  | cons p rest ih =>
    obtain ⟨first, hfirst, h⟩ := bind_eq_ok_iff.mp h
    obtain ⟨others, hothers, -⟩ := bind_eq_ok_iff.mp h
    exact List.forall_mem_cons.mpr ⟨.of_pending hfirst, ih hothers⟩

theorem Listing.eq_some_of_all {listing : Option (Listing α)} {items : List α}
    (h : Listing.all listing = .ok items) : listing = some ⟨some items⟩ := by
  obtain ⟨⟨found⟩, hfound, h⟩ := bind_eq_ok_iff.mp h
  cases found with
  | some found =>
    cases h
    exact some_of_present hfound
  | none => cases h

/-- **A listing is sound exactly when it completes a diagnostic.** -/
theorem soundListing_iff (state : Diagnostic) {reply : Except ApiFault (Option (Listing Pod))} :
    SoundListing reply ↔ ∃ g, state.completed reply = .ok g := by
  refine ⟨state.completed_ok, fun hcompleted => ?_⟩
  obtain ⟨g, hg⟩ := hcompleted
  cases reply with
  | ok pods =>
    obtain ⟨pending, hpending, -⟩ := bind_eq_ok_iff.mp hg
    obtain ⟨items, hitems, hpending⟩ := bind_eq_ok_iff.mp hpending
    exact ⟨items, Listing.eq_some_of_all hitems, wellFormed_of_pendingOf hpending⟩
  | error fault =>
    cases fault with
    | rejected status reason => exact ⟨status, reason, rfl⟩
    | unreachable text => cases hg

/-- A diagnostic that is not completed lacks something, or the cluster was not reached. -/
theorem Diagnostic.completed_error {state : Diagnostic}
    {reply : Except ApiFault (Option (Listing Pod))} {x : Failure}
    (h : state.completed reply = .error x) : x.Missing ∨ ∃ text, x = .unreachable text := by
  cases reply with
  | ok pods =>
    have hmisses : OnlyMisses (state.completed (.ok pods)) :=
      onlyMisses_bind (onlyMisses_bind (Listing.onlyMisses_all pods) onlyMisses_pendingOf)
        fun _ => onlyMisses_ok _
    exact .inl (hmisses x h)
  | error fault =>
    cases fault with
    | rejected status reason => cases h
    | unreachable text => exact .inr ⟨text, (Except.error.inj h).symm⟩

end IngressBench
