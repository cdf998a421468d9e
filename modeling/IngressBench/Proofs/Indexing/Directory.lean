import IngressBench.Indexing.Directory
import IngressBench.Proofs.File.Volume
import IngressBench.Proofs.Run.Sample
import IngressBench.Proofs.Stop

/-!
Storing documents in a directory is atomic. Documents are written to the draft of their name, and
only a draft that was written as a whole takes the place of the earlier file. So an order to store
documents is carried out, or leaves everything but the draft as it was; either way nothing else than
the two files of its name is touched, and a name that leads away touches nothing at all (`Atomic`).

No order makes a directory into anything else, so the directory stands after every row of orders,
and each of them is atomic (`storeEach_atomic`): every file holds the documents that were stored
last under its name.
-/
namespace IngressBench

variable {τ σ : Type}

namespace Directory

/-! ### Names -/

theorem holdsTwoPoints_iff {s : List Char} : holdsTwoPoints s = true ↔ ['.', '.'] <:+: s := by
  induction s with
  | nil => simp [holdsTwoPoints]
  | cons c rest ih =>
    rw [List.infix_cons_iff]
    unfold holdsTwoPoints
    split
    · rename_i more heq
      simp_all
    · rename_i c' rest' hnot heq
      obtain ⟨rfl, rfl⟩ := List.cons.inj heq
      rw [ih, or_iff_right]
      rintro ⟨more, hmore⟩
      obtain ⟨hc, hrest⟩ := List.cons.inj hmore.symm
      exact hnot more hc hrest
    · rename_i heq
      cases heq

/-- A name that leads away holds a slash, or two points in a row. -/
theorem leadsAway_iff {name : String} :
    leadsAway name = true ↔ '/' ∈ name.toList ∨ ['.', '.'] <:+: name.toList := by
  simp [leadsAway, holdsTwoPoints_iff]

/-- With an ending, a name that does not lead away is that of a file of its own. -/
theorem isPart_append {name ending : String} (hname : leadsAway name = false)
    (hending : '/' ∉ ending.toList) (hlong : 2 < ending.toList.length) :
    Path.IsPart (name ++ ending) ∧ name ++ ending ≠ ".." := by
  have hstays : '/' ∉ name.toList := fun hslash => by
    rw [leadsAway_iff.mpr (.inl hslash)] at hname
    cases hname
  have hlength : ∀ {short : String}, short.toList.length ≤ 2 → name ++ ending ≠ short := by
    rintro short hshort rfl
    simp only [String.toList_append, List.length_append] at hshort
    omega
  refine ⟨⟨?_, hlength (by decide), hlength (by decide)⟩, hlength (by decide)⟩
  simp [hstays, hending]

/-- The place of the file for a name. -/
def targetPlace (place : Location) (name : String) : Location :=
  place ++ [name ++ ".json"]

/-- The place of the draft for a name. -/
def draftPlace (place : Location) (name : String) : Location :=
  place ++ [name ++ ".tmp"]

/-- Different names have different files. -/
theorem targetPlace_inj {place : Location} {name other : String} :
    targetPlace place name = targetPlace place other ↔ name = other := by
  constructor
  · intro h
    have hnames : name ++ ".json" = other ++ ".json" := by simpa [targetPlace] using h
    have hchars := congrArg String.toList hnames
    rw [String.toList_append, String.toList_append] at hchars
    exact String.toList_inj.mp (List.append_cancel_right hchars)
  · rintro rfl
    rfl

/-- No file is the draft of a name. -/
theorem targetPlace_ne_draftPlace (place : Location) (name other : String) :
    targetPlace place name ≠ draftPlace place other := by
  intro h
  have hnames : name ++ ".json" = other ++ ".tmp" := by simpa [targetPlace, draftPlace] using h
  have hlast := congrArg (fun s : String => s.toList.getLast?) hnames
  simp at hlast

/-! ### Orders -/

/-- Documents that are to be stored, and their label. -/
structure Order where
  label : Option String
  documents : List Document

namespace Order

/-- The name of the files of an order. -/
def name (o : Order) : String :=
  fileName o.label

/-- What is to be written, and the flaw of the documents, if there is one. -/
def pages (o : Order) : String × Option Json.Flaw :=
  Json.pages (.list o.documents)

/-- What the file of an order is to hold. -/
def bytes (o : Order) : List UInt8 :=
  o.pages.1.toUTF8.data.toList

/-- Stores the documents of an order in a directory. -/
def store (o : Order) (directory : String) : Action τ String :=
  Directory.store directory o.label (.list o.documents)

/-- An order of a name that leads away is refused. -/
theorem store_refused {o : Order} {directory : String} (hname : leadsAway o.name = true) :
    (o.store directory : Action τ String) = throw (.indexing (.metricName o.name)) :=
  if_pos hname

/-- Any other order is carried out when its documents are written. -/
theorem store_eq {o : Order} {directory : String} (hname : leadsAway o.name = false) :
    (o.store directory : Action τ String) = (do
      Directory.write directory o.name (.list o.documents)
      return s!"File {target directory o.name} created with {o.documents.length} documents") :=
  if_neg (Bool.eq_false_iff.mp hname)

end Order

/-- Carries out one order after another, whatever becomes of them, and tells what became of them. -/
def storeEach (directory : String) : List Order → Action τ (List (Order × Except Failure String))
  | [] => return []
  | o :: rest => do
    let outcome ← Action.attempt (o.store directory)
    let later ← storeEach directory rest
    return (o, outcome) :: later

/-- What an order does to a tree of files. -/
structure Atomic (v v' : Volume) (place : Location) (o : Order) (r : Except Failure String) :
    Prop where
  /-- Documents that were stored were without a flaw; they are all that their file holds, and there
  is no draft of it. -/
  stored : ∀ status, r = .ok status → o.pages.2 = none ∧
    v'.find? (targetPlace place o.name) = some (.file o.bytes) ∧
    v'.find? (draftPlace place o.name) = none
  /-- An order that failed left everything but the draft as it was. -/
  undone : ∀ x, r = .error x → ∀ loc, loc ≠ draftPlace place o.name → v'.find? loc = v.find? loc
  /-- Nothing but the two files of the name is touched. -/
  contained : ∀ loc, loc ≠ targetPlace place o.name → loc ≠ draftPlace place o.name →
    v'.find? loc = v.find? loc
  /-- The files of other names are as they were. -/
  apart : ∀ name, name ≠ o.name →
    v'.find? (targetPlace place name) = v.find? (targetPlace place name)
  /-- A name that leads away is refused, and nothing at all is touched. -/
  refused : '/' ∈ o.name.toList ∨ ['.', '.'] <:+: o.name.toList →
    r = .error (.indexing (.metricName o.name)) ∧ v' = v

/-! ### One order -/

variable [TimeScale τ] {w : World τ σ} {files : σ → Volume} {directory name : String}
  {place : Location} {h : History τ σ}

/-- What is asked about a file of a name that does not lead away is about its place. -/
theorem located_file {v : Volume} (hstands : v.Stands directory place)
    (hname : leadsAway name = false) {ending : String} (hending : '/' ∉ ending.toList) (hlong : 2 < ending.toList.length)
    {loc : Location} (hlocate : v.locate (Path.join directory (name ++ ending)) = .ok loc) :
    loc = place ++ [name ++ ending] := by
  obtain ⟨hpart, hup⟩ := isPart_append hname hending hlong
  exact hstands.located_inside hpart hup hlocate

/-- Writing the draft of a name, well or not, touches nothing but the draft. -/
theorem draft_touches {v v' : Volume} {text : String} {reply : Except FileError Unit}
    (hstands : v.Stands directory place) (hname : leadsAway name = false)
    (hdoes : v.Does (.write (draft directory name) text) reply v') :
    v.KeepsDirectories v' ∧ (∀ loc, loc ≠ draftPlace place name → v'.find? loc = v.find? loc) ∧
      (reply = .ok () →
        v'.find? (draftPlace place name) = some (.file text.toUTF8.data.toList)) := by
  have hput : ∀ {loc : Location} {bytes : List UInt8}, v.Writable (draft directory name) loc →
      loc = draftPlace place name ∧ v.KeepsDirectories (v.put loc (.file bytes)) ∧
      (v.put loc (.file bytes)).find? loc = some (.file bytes) := by
    intro loc bytes hwritable
    refine ⟨located_file hstands hname (by decide) (by decide) hwritable.1,
      Volume.keepsDirectories_put hwritable.2, ?_⟩
    exact Volume.find?_put_self v (Volume.not_isFixed hwritable.2)
  cases reply with
  | ok _ =>
    obtain ⟨loc, hwritable, rfl⟩ := hdoes.write_ok
    obtain ⟨rfl, hkeeps, hself⟩ := hput hwritable
    exact ⟨hkeeps, fun loc hloc => Volume.find?_put_of_ne v hloc, fun _ => hself⟩
  | error e =>
    rcases hdoes.write_error with rfl | ⟨loc, bytes, hwritable, rfl⟩
    · exact ⟨fun _ h => h, fun _ _ => rfl, nofun⟩
    · obtain ⟨rfl, hkeeps, -⟩ := hput hwritable
      exact ⟨hkeeps, fun loc hloc => Volume.find?_put_of_ne v hloc, nofun⟩

/-- A draft that takes the place of a file leaves nothing else of itself. -/
theorem rename_touches {v v' : Volume} {bytes : List UInt8} (hstands : v.Stands directory place)
    (hname : leadsAway name = false) (hdraft : v.find? (draftPlace place name) = some (.file bytes))
    (hdoes : v.Does (.rename (draft directory name) (target directory name)) (.ok ()) v') :
    v.KeepsDirectories v' ∧ v'.find? (targetPlace place name) = some (.file bytes) ∧
      v'.find? (draftPlace place name) = none ∧
      ∀ loc, loc ≠ targetPlace place name → loc ≠ draftPlace place name →
        v'.find? loc = v.find? loc := by
  obtain ⟨source, goal, entry, hsource, hgoal, hentry, hfree, rfl⟩ := hdoes.rename_ok
  obtain rfl : source = draftPlace place name :=
    located_file hstands hname (by decide) (by decide) hsource
  obtain rfl : goal = targetPlace place name :=
    located_file hstands hname (by decide) (by decide) hgoal
  obtain rfl : entry = .file bytes := Option.some.inj (hentry.symm.trans hdraft)
  have hfile : v.find? (draftPlace place name) ≠ some .directory := by simp [hdraft]
  have hfree : v.find? (targetPlace place name) ≠ some .directory := hfree nofun
  have hne := targetPlace_ne_draftPlace place name name
  have hgone :
      (v.remove (draftPlace place name)).find? (targetPlace place name) ≠ some .directory := by
    rwa [Volume.find?_remove_of_ne v hne]
  refine ⟨(Volume.keepsDirectories_remove hfile).trans (Volume.keepsDirectories_put hgone), ?_, ?_,
    fun loc htarget hloc => ?_⟩
  · exact Volume.find?_put_self _ (Volume.not_isFixed hgone)
  · rw [Volume.find?_put_of_ne _ hne.symm]
    exact Volume.find?_remove_self v (Volume.not_isFixed hfile)
  · rw [Volume.find?_put_of_ne _ htarget, Volume.find?_remove_of_ne v hloc]

/-- What writing the documents of a name does to a tree of files: all, or nothing but the draft. -/
structure Written (v v' : Volume) (place : Location) (name : String) (documents : Document)
    (r : Except Failure Unit) : Prop where
  keeps : v.KeepsDirectories v'
  stored : r = .ok () → (Json.pages documents).2 = none ∧
    v'.find? (targetPlace place name) = some (.file (Json.pages documents).1.toUTF8.data.toList) ∧
    v'.find? (draftPlace place name) = none
  undone : ∀ x, r = .error x → ∀ loc, loc ≠ draftPlace place name → v'.find? loc = v.find? loc
  contained : ∀ loc, loc ≠ targetPlace place name → loc ≠ draftPlace place name →
    v'.find? loc = v.find? loc

/-- Where writing failed nothing but the draft was touched. -/
theorem Written.of_draft {v v' : Volume} {documents : Document} (hkeeps : v.KeepsDirectories v')
    (hsame : ∀ loc, loc ≠ draftPlace place name → v'.find? loc = v.find? loc) (x : Failure) :
    Written v v' place name documents (.error x) :=
  ⟨hkeeps, nofun, fun _ _ => hsame, fun loc _ hloc => hsame loc hloc⟩

/-- **Writing is all or nothing**, but for the draft. -/
theorem run_write (hw : w.Files files) (hstands : (files h.state).Stands directory place)
    (hname : leadsAway name = false) (documents : Document) :
    ∃ (r : Except Failure Unit) (h' : History τ σ),
      w.run (write directory name documents).run h = (r, h') ∧
      Written (files h.state) (files h'.state) place name documents r := by
  rcases hpages : Json.pages documents with ⟨text, flaw⟩
  obtain ⟨wrote, h₁, hwrote, hdoes₁⟩ := hw.run_file (.write (draft directory name) text) h
  obtain ⟨hkeeps₁, hsame₁, hdraft⟩ := draft_touches hstands hname hdoes₁
  unfold write
  rw [hpages]
  dsimp only
  rw [World.run_step_ok hwrote]
  cases wrote with
  | error e => exact ⟨_, h₁, rfl, .of_draft hkeeps₁ hsame₁ _⟩
  | ok _ =>
    cases flaw with
    | some flaw => exact ⟨_, h₁, rfl, .of_draft hkeeps₁ hsame₁ _⟩
    | none =>
      -- Only a draft that holds everything is renamed.
      obtain ⟨moved, h₂, hmoved, hdoes₂⟩ :=
        hw.run_file (.rename (draft directory name) (target directory name)) h₁
      dsimp only
      rw [World.run_step_ok hmoved]
      cases moved with
      | error e =>
        have hsame : files h₂.state = files h₁.state := hdoes₂.rename_error
        refine ⟨_, h₂, rfl, .of_draft (hsame ▸ hkeeps₁) (fun loc hloc => ?_) _⟩
        rw [hsame, hsame₁ loc hloc]
      | ok _ =>
        obtain ⟨hkeeps₂, htarget, hgone, hsame₂⟩ :=
          rename_touches (hstands.keeps hkeeps₁) hname (hdraft rfl) hdoes₂
        refine ⟨_, h₂, rfl, hkeeps₁.trans hkeeps₂, fun _ => ?_, nofun, fun loc hother hloc => ?_⟩
        · rw [hpages]
          exact ⟨rfl, htarget, hgone⟩
        · rw [hsame₂ loc hother hloc, hsame₁ loc hloc]

/-- A list of documents is stored when it is written. -/
theorem run_store (hw : w.Files files) (hstands : (files h.state).Stands directory place)
    (o : Order) :
    ∃ (r : Except Failure String) (h' : History τ σ), w.run (o.store directory).run h = (r, h') ∧
      (files h.state).KeepsDirectories (files h'.state) ∧
      Atomic (files h.state) (files h'.state) place o r := by
  cases hname : leadsAway o.name with
  | true =>
    rw [Order.store_refused hname]
    exact ⟨_, h, rfl, fun _ h => h, nofun, fun _ _ _ _ => rfl, fun _ _ _ => rfl, fun _ _ => rfl,
      fun _ => ⟨rfl, rfl⟩⟩
  | false =>
    obtain ⟨r, h', hwrite, hwritten⟩ := run_write hw hstands hname (.list o.documents)
    have hstays : ¬ ('/' ∈ o.name.toList ∨ ['.', '.'] <:+: o.name.toList) := fun haway => by
      rw [leadsAway_iff.mpr haway] at hname
      cases hname
    have hapart : ∀ name, name ≠ o.name →
        (files h'.state).find? (targetPlace place name) =
          (files h.state).find? (targetPlace place name) := fun name hne =>
      hwritten.contained _ (fun h => hne (targetPlace_inj.mp h))
        (targetPlace_ne_draftPlace place name o.name)
    rw [Order.store_eq hname]
    cases r with
    | error x =>
      refine ⟨_, h', World.run_step_error hwrite, hwritten.keeps, nofun, fun _ _ => ?_,
        hwritten.contained, hapart, fun haway => absurd haway hstays⟩
      exact hwritten.undone x rfl
    | ok _ =>
      rw [World.run_step_ok hwrite]
      exact ⟨_, h', rfl, hwritten.keeps, fun _ _ => hwritten.stored rfl, nofun,
        hwritten.contained, hapart, fun haway => absurd haway hstays⟩

/-! ### Rows of orders -/

/-- What the file of a name holds after a row of orders with their outcomes: the documents that were
stored last under the name, or else what it held before. -/
def latest (name : String) (held : Option FileEntry) :
    List (Order × Except Failure String) → Option FileEntry
  | [] => held
  | (o, .ok _) :: rest => latest name (if o.name = name then some (.file o.bytes) else held) rest
  | (_, .error _) :: rest => latest name held rest

/-- What an order leaves in the file of a name. -/
theorem Atomic.latest_eq {v v' : Volume} {o : Order} {r : Except Failure String}
    (hatomic : Atomic v v' place o r) (name : String) :
    v'.find? (targetPlace place name) =
      latest name (v.find? (targetPlace place name)) [(o, r)] := by
  cases r with
  | ok status =>
    unfold latest latest
    by_cases hname : o.name = name
    · subst hname
      rw [if_pos rfl]
      exact (hatomic.stored status rfl).2.1
    · rw [if_neg hname]
      exact hatomic.apart name (Ne.symm hname)
  | error x => exact hatomic.undone x rfl _ (targetPlace_ne_draftPlace place name o.name)

theorem latest_cons (name : String) (held : Option FileEntry)
    (first : Order × Except Failure String) (rest : List (Order × Except Failure String)) :
    latest name held (first :: rest) = latest name (latest name held [first]) rest := by
  obtain ⟨o, _ | _⟩ := first <;> rfl

/-- After a row of orders the directory stands, its files hold what was stored last, and nothing
else was touched than the files of the names in the row. -/
structure Stored (v v' : Volume) (directory : String) (place : Location)
    (outcomes : List (Order × Except Failure String)) : Prop where
  stands : v'.Stands directory place
  latest : ∀ name, v'.find? (targetPlace place name) =
    latest name (v.find? (targetPlace place name)) outcomes
  contained : ∀ loc, (∀ o ∈ outcomes.map Prod.fst,
    loc ≠ targetPlace place o.name ∧ loc ≠ draftPlace place o.name) → v'.find? loc = v.find? loc

theorem run_storeEach (hw : w.Files files) (hstands : (files h.state).Stands directory place)
    (orders : List Order) :
    ∃ outcomes h', w.run (storeEach directory orders).run h = (.ok outcomes, h') ∧
      outcomes.map Prod.fst = orders ∧
      Stored (files h.state) (files h'.state) directory place outcomes := by
  induction orders generalizing h with
  | nil => exact ⟨[], h, rfl, rfl, hstands, fun _ => rfl, fun _ _ => rfl⟩
  | cons o rest ih =>
    obtain ⟨r, h₁, hrun, hkeeps, hatomic⟩ := run_store hw hstands o
    obtain ⟨outcomes, h₂, hlater, horders, hstored⟩ := ih (hstands.keeps hkeeps)
    refine ⟨(o, r) :: outcomes, h₂, ?_, by simp [horders], hstored.stands, fun name => ?_,
      fun loc hloc => ?_⟩
    · unfold storeEach
      rw [World.run_step_ok (World.run_attempt hrun), World.run_step_ok hlater]
      rfl
    · rw [hstored.latest, hatomic.latest_eq, ← latest_cons]
    · obtain ⟨hfirst, hrest⟩ := List.forall_mem_cons.mp hloc
      rw [hstored.contained loc hrest, hatomic.contained loc hfirst.1 hfirst.2]

/-- **Storing in a directory is atomic, contained and without collisions.** Whatever was in the
directory and whatever orders were carried out before, or failed, the next one is carried out as a
whole or leaves everything but its draft as it was, and touches only the two files of its name. -/
theorem storeEach_atomic (hw : w.Files files) (hstands : (files h.state).Stands directory place)
    (past : List Order) :
    ∃ outcomes before, w.run (storeEach directory past).run h = (.ok outcomes, before) ∧
      outcomes.map Prod.fst = past ∧
      Stored (files h.state) (files before.state) directory place outcomes ∧
      ∀ next : Order, ∃ r after, w.run (next.store directory).run before = (r, after) ∧
        Atomic (files before.state) (files after.state) place next r := by
  obtain ⟨outcomes, before, hrun, horders, hstored⟩ := run_storeEach hw hstands past
  refine ⟨outcomes, before, hrun, horders, hstored, fun next => ?_⟩
  obtain ⟨r, after, hnext, -, hatomic⟩ := run_store hw hstored.stands next
  exact ⟨r, after, hnext, hatomic⟩

end Directory

namespace Sample

/-- Surroundings that do well and keep their files in a tree. -/
def disk : World Nat Volume where
  answer q v := match q with
    | .file call => ((v.perform call).1, 1, (v.perform call).2)
    | q => (reply (Ideal.answer {}) q, 1, v)

theorem disk_files : disk.Files id :=
  fun _ _ => .inl rfl

/-- A directory for results, with a file in it and a directory where a file would go. -/
def results : Volume where
  entries := [(["results"], .directory), (["results", "run-1.json"], .file [1]),
    (["results", "taken.json"], .directory)]

theorem results_stands : results.Stands "results" ["results"] :=
  ⟨by decide +kernel, rfl⟩

end Sample

/-- Three orders, of which the first one is stored, the second one meets a directory, and the third
one leads away; then another one, which is stored. -/
theorem storeEach_atomic_results :
    let past : List Directory.Order :=
      [⟨some "run-1", [.int 1]⟩, ⟨some "taken", []⟩, ⟨some "../run-1", []⟩]
    let next : Directory.Order := ⟨none, []⟩
    let begun : History Nat Volume := { now := 0, state := Sample.results }
    Sample.disk.Files id ∧ begun.state.Stands "results" ["results"] ∧
    ∃ outcomes before, Sample.disk.run (Directory.storeEach "results" past).run begun =
        (.ok outcomes, before) ∧ outcomes.map Prod.fst = past ∧
      outcomes.map Prod.snd = [.ok "File results/run-1.json created with 1 documents",
        .error (.indexing (.write "results/taken.json"
          "[Errno 21] Is a directory: 'results/taken.tmp' -> 'results/taken.json'")),
        .error (.indexing (.metricName "../run-1"))] ∧
      ∃ r after, Sample.disk.run (next.store "results").run before = (r, after) ∧
        Directory.Atomic before.state after.state ["results"] next r ∧
        r = .ok "File results/ingress-perf.json created with 0 documents" := by
  intro past next begun
  obtain ⟨outcomes, before, hrun, horders, -, hnext⟩ :=
    Directory.storeEach_atomic (h := begun) Sample.disk_files Sample.results_stands past
  obtain ⟨r, after, hstore, hatomic⟩ := hnext next
  have hpast : ((Sample.disk.run (Directory.storeEach "results" past).run begun).1.map
      (List.map Prod.snd)) = .ok [.ok "File results/run-1.json created with 1 documents",
        .error (.indexing (.write "results/taken.json"
          "[Errno 21] Is a directory: 'results/taken.tmp' -> 'results/taken.json'")),
        .error (.indexing (.metricName "../run-1"))] := by decide +kernel
  have hlast : (Sample.disk.run (next.store "results").run
      (Sample.disk.run (Directory.storeEach "results" past).run begun).2).1 =
        .ok "File results/ingress-perf.json created with 0 documents" := by decide +kernel
  rw [hrun] at hpast hlast
  rw [hstore] at hlast
  exact ⟨Sample.disk_files, Sample.results_stands, outcomes, before, hrun, horders,
    Except.ok.inj hpast, r, after, hstore, hatomic, hlast⟩

end IngressBench
