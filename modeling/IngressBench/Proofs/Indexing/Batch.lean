import IngressBench.Proofs.Indexing.Directory
import IngressBench.Proofs.Indexing.Sink
import IngressBench.Proofs.Json.Pages

/-!
What a batch sink leaves in its directory. Where the files of its run can be written
(`World.StoresWell`) every closing of the sink replaces the file of the run by one with the
documents that the sink keeps (`Sink.run_close`), which are those that it accepted since it was
closed last (`Sink.run_useAll`). So the file has all documents that were ever accepted exactly when
none was accepted before an earlier closing (`Sink.close_holds_iff`): what an earlier closing had
stored is gone with the next one.
-/
namespace IngressBench

variable {τ σ : Type}

namespace Directory

/-! ### Where writing succeeds -/

/-- A directory that stands, with neither of the two files of a name a directory itself. -/
structure Open (v : Volume) (directory : String) (place : Location) (name : String) : Prop where
  stands : v.Stands directory place
  draft : v.find? (draftPlace place name) ≠ some .directory
  target : v.find? (targetPlace place name) ≠ some .directory

/-- The file for a label holds these documents, and nothing else. -/
def Holds (v : Volume) (place : Location) (label : Option String) (documents : List Document) :
    Prop :=
  v.find? (targetPlace place (fileName label)) = some (.file (Order.bytes ⟨label, documents⟩))

end Directory

/-- Surroundings in which the two files of a name are written whenever they can be. -/
structure World.StoresWell (w : World τ σ) (files : σ → Volume) (directory : String)
    (place : Location) (name : String) : Prop where
  tree : w.Files files
  stays : Directory.leadsAway name = false
  writes : ∀ s text, Directory.Open (files s) directory place name →
    (w.answer (.file (.write (Directory.draft directory name) text)) s).1 = .ok ()
  renames : ∀ s bytes, Directory.Open (files s) directory place name →
    (files s).find? (Directory.draftPlace place name) = some (.file bytes) →
    (w.answer (.file (.rename (Directory.draft directory name) (Directory.target directory name)))
      s).1 = .ok ()

variable [TimeScale τ] {w : World τ σ} {files : σ → Volume} {directory name run : String}
  {place : Location} {h : History τ σ}

namespace Directory

/-- Documents that were stored left the directory open for others. -/
theorem Written.opens {v v' : Volume} {documents : Document} (hstands : v.Stands directory place)
    (hwritten : Written v v' place name documents (.ok ())) : Open v' directory place name := by
  obtain ⟨-, htarget, hdraft⟩ := hwritten.stored rfl
  exact ⟨hstands.keeps hwritten.keeps, by simp [hdraft], by simp [htarget]⟩

/-- Documents without a flaw are written. -/
theorem run_write_ok (hw : w.StoresWell files directory place name)
    (hopen : Open (files h.state) directory place name) {documents : Document}
    (hpages : (Json.pages documents).2 = none) :
    ∃ h', w.run (write directory name documents).run h = (.ok (), h') ∧
      Written (files h.state) (files h'.state) place name documents (.ok ()) := by
  obtain ⟨r, h', hrun, hwritten⟩ := run_write hw.tree hopen.stands hw.stays documents
  suffices hok : r = .ok () by
    subst hok
    exact ⟨h', hrun, hwritten⟩
  rcases hparts : Json.pages documents with ⟨text, flaw⟩
  obtain rfl : flaw = none := by simpa [hparts] using hpages
  obtain ⟨h₁, hwrote, hdoes⟩ := hw.tree.run_file_eq (hw.writes h.state text hopen)
  obtain ⟨hkeeps, hsame, hdraft⟩ := draft_touches hopen.stands hw.stays hdoes
  have hopen₁ : Open (files h₁.state) directory place name := by
    refine ⟨hopen.stands.keeps hkeeps, by simp [hdraft rfl], ?_⟩
    rw [hsame _ (targetPlace_ne_draftPlace place name name)]
    exact hopen.target
  obtain ⟨h₂, hmoved, -⟩ := hw.tree.run_file_eq (hw.renames h₁.state _ hopen₁ (hdraft rfl))
  unfold write at hrun
  rw [hparts] at hrun
  dsimp only at hrun
  rw [World.run_step_ok hwrote] at hrun
  dsimp only at hrun
  rw [World.run_step_ok hmoved] at hrun
  exact (congrArg Prod.fst hrun).symm

/-- A list of documents without a flaw is stored. -/
theorem run_store_ok {o : Order} (hw : w.StoresWell files directory place o.name)
    (hopen : Open (files h.state) directory place o.name) (hpages : o.pages.2 = none) :
    ∃ status h', w.run (o.store directory).run h = (.ok status, h') ∧
      Open (files h'.state) directory place o.name ∧
      (files h'.state).find? (targetPlace place o.name) = some (.file o.bytes) := by
  obtain ⟨h', hwrite, hwritten⟩ := run_write_ok hw hopen hpages
  rw [Order.store_eq hw.stays, World.run_step_ok hwrite]
  exact ⟨_, h', rfl, hwritten.opens hopen.stands, (hwritten.stored rfl).2.1⟩

/-- A file that holds some documents does not hold further ones in front of them. -/
theorem Holds.append_iff {v : Volume} {label : Option String} {given kept : List Document}
    (h : Holds v place label kept) (hdocuments : ∀ d ∈ given ++ kept, d.Serializable) :
    Holds v place label (given ++ kept) ↔ given = [] := by
  constructor
  · intro hall
    by_contra hne
    have hbytes := FileEntry.file.inj (Option.some.inj (h.symm.trans hall))
    have htext : (Json.pages (.list kept)).1 = (Json.pages (.list (given ++ kept))).1 :=
      Json.utf8_inj.mp hbytes
    have hlt := Json.length_pages_lt hne hdocuments
    rw [htext] at hlt
    exact Nat.lt_irrefl _ hlt
  · rintro rfl
    exact h

end Directory

namespace Sink

/-! ### What is done with a sink -/

/-- One use of a sink. -/
inductive Use where
  | accept (results : List Result)
  | close

/-- The documents of the results that a use brings. -/
def Use.documents : Use → List Document
  | accept results => results.map Result.document
  | close => []

def Use.step : Use → Keeping Sink τ Unit
  | accept results => Sink.accept (results.map some)
  | close => Sink.close

/-- Uses a sink again and again. -/
def useAll : List Use → Keeping Sink τ Unit
  | [] => return
  | u :: rest => do
    u.step
    useAll rest

/-- The documents of all results that a sink accepts, in their order. -/
def accepted (uses : List Use) : List Document :=
  uses.flatMap Use.documents

theorem accepted_cons (u : Use) (rest : List Use) :
    accepted (u :: rest) = u.documents ++ accepted rest := rfl

/-- The documents that a batch sink keeps after uses: what it accepted since it was closed last. -/
def keptAfter (kept : List Document) : List Use → List Document
  | [] => kept
  | .accept results :: rest => keptAfter (kept ++ results.map Result.document) rest
  | .close :: rest => keptAfter [] rest

/-- The documents that a batch sink gave away when it was closed before. -/
def givenAfter (kept : List Document) : List Use → List Document
  | [] => []
  | .accept results :: rest => givenAfter (kept ++ results.map Result.document) rest
  | .close :: rest => kept ++ givenAfter [] rest

/-- **What was accepted was given away, or is kept.** -/
theorem given_append_kept (kept : List Document) (uses : List Use) :
    givenAfter kept uses ++ keptAfter kept uses = kept ++ accepted uses := by
  induction uses generalizing kept with
  | nil => simp [givenAfter, keptAfter, accepted]
  | cons u rest ih =>
    cases u with
    | accept results => simp [givenAfter, keptAfter, ih, accepted_cons, Use.documents]
    | close => simp [givenAfter, keptAfter, ih, accepted_cons, Use.documents]

/-- Nothing was given away if there was nothing to give whenever the sink was closed. -/
theorem givenAfter_eq_nil_iff {kept : List Document} {uses : List Use} :
    givenAfter kept uses = [] ↔
      ∀ earlier later, uses = earlier ++ .close :: later → kept ++ accepted earlier = [] := by
  induction uses generalizing kept with
  | nil => simp [givenAfter]
  | cons u rest ih =>
    cases u with
    | accept results =>
      rw [givenAfter, ih]
      constructor
      · intro h earlier later hsplit
        cases earlier with
        | nil => cases hsplit
        | cons first earlier =>
          obtain ⟨rfl, hmore⟩ := List.cons.inj hsplit
          simpa [accepted_cons, Use.documents] using h earlier later hmore
      · intro h earlier later hsplit
        simpa [accepted_cons, Use.documents] using
          h (.accept results :: earlier) later (by rw [hsplit, List.cons_append])
    | close =>
      rw [givenAfter, List.append_eq_nil_iff, ih]
      constructor
      · intro ⟨hkept, h⟩ earlier later hsplit
        cases earlier with
        | nil => simp [hkept, accepted]
        | cons first earlier =>
          obtain ⟨rfl, hmore⟩ := List.cons.inj hsplit
          simpa [hkept, accepted_cons, Use.documents] using h earlier later hmore
      · intro h
        refine ⟨by simpa [accepted] using h [] rest rfl, fun earlier later hsplit => ?_⟩
        have hall := h (.close :: earlier) later (by rw [hsplit, List.cons_append])
        exact (List.append_eq_nil_iff.mp hall).2

/-! ### Batch sinks -/

/-- A batch sink of a directory. -/
def batch (run directory : String) (kept : List Document) : Sink where
  cadence := .batch run
  store := .directory directory
  buffer := kept

/-- Documents without a flaw are delivered. -/
theorem run_deliver_directory {label : Option String} {documents : List Document}
    (hw : w.StoresWell files directory place (Directory.fileName label))
    (hopen : Directory.Open (files h.state) directory place (Directory.fileName label))
    (hdocuments : ∀ d ∈ documents, d.Serializable) :
    ∃ h', w.run (deliver (.directory directory) label documents).run h = (.ok true, h') ∧
      Directory.Open (files h'.state) directory place (Directory.fileName label) ∧
      Directory.Holds (files h'.state) place label documents := by
  obtain ⟨status, h', hstore, hopen', hfile⟩ :=
    Directory.run_store_ok (o := ⟨label, documents⟩) hw hopen
      (Json.written_eq_none_iff.mpr (Json.clean_list hdocuments))
  have hput : w.run ((Store.directory directory).put label (.list documents)).run h =
      (.ok status, h') := hstore
  unfold deliver
  rw [World.run_step_ok (World.run_attempt hput)]
  exact ⟨World.logged .info status h', rfl, hopen', hfile⟩

theorem run_flush {label : Option String} {s : Sink} {r : Except Failure Bool} {h' : History τ σ}
    (hdeliver : w.run (deliver s.store label s.buffer).run h = (r, h')) :
    w.run ((flush label).perform s) h = ((r, { s with buffer := [] }), h') := by
  unfold flush
  rw [World.run_perform_ok (m := get) rfl, World.run_perform_ok (m := set _) rfl]
  exact World.run_lift _ hdeliver

section
variable (hw : w.StoresWell files directory place (Directory.fileName (some run)))
  (hopen : Directory.Open (files h.state) directory place (Directory.fileName (some run)))
include hw hopen

/-- **Closing a batch sink replaces the file of its run** by one with the documents that it keeps. -/
theorem run_close {kept : List Document} (hkept : ∀ d ∈ kept, d.Serializable) :
    ∃ h', w.run (close.perform (batch run directory kept)) h =
        ((.ok (), batch run directory []), h') ∧
      Directory.Open (files h'.state) directory place (Directory.fileName (some run)) ∧
      Directory.Holds (files h'.state) place (some run) kept := by
  obtain ⟨h', hdeliver, hopen', hfile⟩ := run_deliver_directory hw hopen hkept
  refine ⟨h', ?_, hopen', hfile⟩
  unfold close
  rw [World.run_perform_ok (m := get) rfl]
  exact World.run_discard_ok (run_flush hdeliver)

/-- A batch sink that is used keeps what it accepted since it was closed last. -/
theorem run_useAll {kept : List Document} {uses : List Use}
    (hdocuments : ∀ d ∈ kept ++ accepted uses, d.Serializable) :
    ∃ h', Directory.Open (files h'.state) directory place (Directory.fileName (some run)) ∧
      ∀ rest, w.run ((useAll (uses ++ rest)).perform (batch run directory kept)) h =
        w.run ((useAll rest).perform (batch run directory (keptAfter kept uses))) h' := by
  induction uses generalizing kept h with
  | nil => exact ⟨h, hopen, fun _ => rfl⟩
  | cons u more ih =>
    cases u with
    | accept results =>
      have hfirst : w.run ((Use.accept results).step.perform (batch run directory kept)) h =
          ((.ok (), batch run directory (kept ++ results.map Result.document)), h) := by
        show w.run ((accept (results.map some)).perform (batch run directory kept)) h = _
        unfold accept
        rw [World.run_perform_ok (m := get) rfl, documentsOf_map_some]
        rfl
      have hmore : ∀ d ∈ (kept ++ results.map Result.document) ++ accepted more,
          d.Serializable := by
        rwa [List.append_assoc]
      obtain ⟨h', hopen', hrest⟩ := ih hopen hmore
      exact ⟨h', hopen', fun rest => (World.run_perform_ok hfirst).trans (hrest rest)⟩
    | close =>
      obtain ⟨hkept, hmore⟩ := List.forall_mem_append.mp hdocuments
      obtain ⟨h₁, hfirst, hopen₁, -⟩ := run_close hw hopen hkept
      have hnone : ∀ d ∈ [] ++ accepted more, d.Serializable := hmore
      obtain ⟨h', hopen', hrest⟩ := ih hopen₁ hnone
      exact ⟨h', hopen', fun rest => (World.run_perform_ok hfirst).trans (hrest rest)⟩

/-- A batch sink that is closed leaves a file of what it accepted since it was closed last. -/
theorem run_useAll_close {past : List Use} (hdocuments : ∀ d ∈ accepted past, d.Serializable) :
    ∃ after, w.run ((useAll (past ++ [.close])).perform (batch run directory [])) h =
        ((.ok (), batch run directory []), after) ∧
      Directory.Holds (files after.state) place (some run) (keptAfter [] past) := by
  have hnone : ∀ d ∈ [] ++ accepted past, d.Serializable := hdocuments
  obtain ⟨before, hopen, hrest⟩ := run_useAll hw hopen hnone
  have hkept : ∀ d ∈ keptAfter [] past, d.Serializable := by
    intro d hd
    apply hdocuments
    rw [← List.nil_append (accepted past), ← given_append_kept]
    exact List.mem_append_right _ hd
  obtain ⟨after, hclose, -, hfile⟩ := run_close hw hopen hkept
  refine ⟨after, ?_, hfile⟩
  rw [hrest]
  exact World.run_perform_ok (m := Use.close.step) hclose

/-- **The file of a run has all that its batch sink ever accepted, exactly when nothing was accepted
before the sink was closed another time.** It has what was accepted since then. -/
theorem close_holds_iff (past : List Use) (hdocuments : ∀ d ∈ accepted past, d.Serializable) :
    ∃ after, w.run ((useAll (past ++ [.close])).perform (batch run directory [])) h =
        ((.ok (), batch run directory []), after) ∧
      Directory.Holds (files after.state) place (some run) (keptAfter [] past) ∧
      (Directory.Holds (files after.state) place (some run) (accepted past) ↔
        ∀ earlier later, past = earlier ++ .close :: later → accepted earlier = []) := by
  obtain ⟨after, hrun, hfile⟩ := run_useAll_close hw hopen hdocuments
  refine ⟨after, hrun, hfile, ?_⟩
  have hsplit : givenAfter [] past ++ keptAfter [] past = accepted past := given_append_kept [] past
  have hgiven : ∀ d ∈ givenAfter [] past ++ keptAfter [] past, d.Serializable := by
    rwa [hsplit]
  calc Directory.Holds (files after.state) place (some run) (accepted past)
      ↔ Directory.Holds (files after.state) place (some run)
          (givenAfter [] past ++ keptAfter [] past) := by rw [hsplit]
    _ ↔ givenAfter [] past = [] := Directory.Holds.append_iff hfile hgiven
    _ ↔ ∀ earlier later, past = earlier ++ .close :: later → accepted earlier = [] :=
        givenAfter_eq_nil_iff

end

end Sink

namespace Sample

theorem locate_run {v : Volume} (hstands : v.Stands "results" ["results"]) {name : String}
    (hname : name ∈ ["run-1.tmp", "run-1.json"]) :
    v.locate (Path.join "results" name) = .ok (["results"] ++ [name]) := by
  have hfine : ∀ name ∈ ["run-1.tmp", "run-1.json"], ('/' ∉ name.toList ∧ name ≠ "" ∧ name ≠ ".") ∧
      name ≠ ".." ∧ name.utf8ByteSize ≤ Volume.nameLimit ∧
      '\x00' ∉ (Path.join "results" name).toList := by
    decide +kernel
  obtain ⟨⟨hslash, hempty, hpoint⟩, hup, hshort, hnull⟩ := hfine name hname
  exact hstands.locate_inside ⟨hslash, hempty, hpoint⟩ hup hshort hnull

/-- In a tree of files all that can be written is written. -/
theorem disk_storesWell : disk.StoresWell id "results" ["results"] "run-1" where
  tree := disk_files
  stays := by decide
  writes v text hopen := by
    have hwritable :
        Volume.Writable v (Directory.draft "results" "run-1") ["results", "run-1.tmp"] :=
      ⟨locate_run hopen.stands (by simp), hopen.draft⟩
    exact congrArg Prod.fst (Volume.perform_write hwritable)
  renames v bytes hopen hdraft := by
    have hsource := locate_run hopen.stands (List.mem_cons_self (a := "run-1.tmp"))
    have hgoal := locate_run hopen.stands (List.mem_cons_of_mem "run-1.tmp" List.mem_cons_self)
    exact congrArg Prod.fst (Volume.perform_rename hsource hgoal hdraft hopen.target)

theorem results_open : Directory.Open results "results" ["results"] "run-1" :=
  ⟨results_stands, by decide +kernel, by decide +kernel⟩

/-- A result is accepted, and the sink is closed. -/
def oneBatch : List Sink.Use :=
  [.accept [result {}], .close]

theorem oneBatch_serializable : ∀ d ∈ Sink.accepted oneBatch, d.Serializable := by
  have hresult : (result {}).document.Serializable :=
    Result.document_serializable Document.serializable_null Document.serializable_null
      Document.serializable_null
  simpa [oneBatch, Sink.accepted, Sink.Use.documents] using hresult

end Sample

namespace Sink

/-- A result is accepted, and the sink is closed twice. -/
theorem close_holds_iff_twice :
    let begun : History Nat Volume := { now := 0, state := Sample.results }
    Sample.disk.StoresWell id "results" ["results"] "run-1" ∧
    Directory.Open begun.state "results" ["results"] "run-1" ∧
    (∀ d ∈ accepted Sample.oneBatch, d.Serializable) ∧
    ∃ after, Sample.disk.run ((useAll (Sample.oneBatch ++ [.close])).perform
          (batch "run-1" "results" [])) begun = ((.ok (), batch "run-1" "results" []), after) ∧
      Directory.Holds after.state ["results"] (some "run-1") [] := by
  intro begun
  have hopen : Directory.Open (id begun.state) "results" ["results"]
      (Directory.fileName (some "run-1")) := Sample.results_open
  obtain ⟨after, hrun, hfile, -⟩ :=
    close_holds_iff Sample.disk_storesWell hopen Sample.oneBatch Sample.oneBatch_serializable
  exact ⟨Sample.disk_storesWell, hopen, Sample.oneBatch_serializable, after, hrun, hfile⟩

/-- The second time that a sink is closed the file loses the result that it held. -/
theorem not_close_holds :
    let begun : History Nat Volume := { now := 0, state := Sample.results }
    let sink : Sink := batch "run-1" "results" []
    Sample.disk.StoresWell id "results" ["results"] "run-1" ∧
    Directory.Open begun.state "results" ["results"] "run-1" ∧
    (∀ d ∈ accepted Sample.oneBatch, d.Serializable) ∧
    ¬ ∃ after, Sample.disk.run ((useAll (Sample.oneBatch ++ [.close])).perform sink) begun =
          ((.ok (), sink), after) ∧
      Directory.Holds after.state ["results"] (some "run-1") (accepted Sample.oneBatch) := by
  intro begun sink
  have hopen : Directory.Open (id begun.state) "results" ["results"]
      (Directory.fileName (some "run-1")) := Sample.results_open
  refine ⟨Sample.disk_storesWell, hopen, Sample.oneBatch_serializable, ?_⟩
  rintro ⟨after, hrun, hfile⟩
  obtain ⟨after', hrun', hfile'⟩ :=
    run_useAll_close Sample.disk_storesWell hopen Sample.oneBatch_serializable
  obtain rfl : after = after' := congrArg Prod.snd (hrun.symm.trans hrun')
  have hgiven : ∀ d ∈ accepted Sample.oneBatch ++ [], d.Serializable := Sample.oneBatch_serializable
  cases (hfile'.append_iff hgiven).mp hfile

end Sink
end IngressBench
