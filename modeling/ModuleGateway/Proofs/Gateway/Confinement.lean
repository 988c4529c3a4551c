import ModuleGateway.Proofs.Gateway.TrustSources
import ModuleGateway.Proofs.Package.Locate
import ModuleGateway.Proofs.Source.Outside

/-!
What a running gateway reads. A file is compiled because some client looked for it before: a request for a
source file, which looks inside the source root only, or a request or prewarming task for a module, which
looks inside one package only. Whatever else is handed out as it lies on the disk is an entry of the
store.

Between the look and the read the outside may change the file system. What is said about the file that is
read holds as long as the place that was found is still that of a file.
-/

namespace ModuleGateway

open Build FileSystem Specifier

namespace Gateway

/-- The module of a specifier is the regular file at a location below the directory that its package's
name leads to. -/
structure Installed (g : Gateway) (fs : FileSystem) (specifier : String) (m : Package.Located)
    (l : Location) : Prop where
  servable : isServable specifier = true
  inside : ∃ directory, fs.canonical (g.sources.directory.join ⟨packageName specifier⟩) = .ok directory ∧
    directory <+: l
  regular : ∃ data, fs.get? l = some (.file data)
  named : l.Named
  file : m.file = l.path

/-- The next look of a client finds the file of a build at a location. -/
inductive Finds (g : Gateway) (fs : FileSystem) : Pursuit → Building → Location → Prop where
  | source {r : Request} {path : String} {file : Location} {validator : Validator}
      (hRoute : Route.ofPath? g.settings r.path = some (.source path))
      (hChosen : Source.Chosen fs g.root (AssetKind.ofPath path) path file) :
      Finds g fs (.asking r (.resolving path (AssetKind.ofPath path)))
        (.source file validator (AssetKind.ofPath path)) file
  | requested {r : Request} {specifier : String} {m : Package.Located} {l : Location}
      (hRoute : Route.ofPath? g.settings r.path = some (.vendor specifier))
      (hInstalled : g.Installed fs specifier m l) :
      Finds g fs (.asking r (.locating specifier)) (.vendor specifier m) l
  | prewarmed {specifier : String} {m : Package.Located} {l : Location}
      (hWarmable : specifier ∈ g.warmable) (hInstalled : g.Installed fs specifier m l) :
      Finds g fs (.warming (.locating specifier)) (.vendor specifier m) l

variable {g : Gateway} {fs : FileSystem} {p : Pursuit} {b : Building} {l : Location}
  {specifier : String} {m : Package.Located}

theorem installed_of_locate? (hServable : isServable specifier = true)
    (h : g.sources.locate? fs specifier = some m) : ∃ l, g.Installed fs specifier m l := by
  obtain ⟨directory, l, hDirectory, hInside, hNamed, hFile, rfl⟩ := Package.locate?_spec h
  exact ⟨l, hServable, ⟨directory, hDirectory, hInside⟩, hFile, hNamed, rfl⟩

/-- What is found is a regular file, and its location is the one that the build's file is written as. -/
theorem Finds.spec (h : g.Finds fs p b l) :
    l.Named ∧ b.file = l.path ∧ ∃ data, fs.get? l = some (.file data) := by
  cases h with
  | source hRoute hChosen => exact ⟨hChosen.named, rfl, hChosen.within.2.2⟩
  | requested hRoute hInstalled => exact ⟨hInstalled.named, hInstalled.file, hInstalled.regular⟩
  | prewarmed hWarmable hInstalled => exact ⟨hInstalled.named, hInstalled.file, hInstalled.regular⟩

/-- As long as a file is at the place that was found, that file is the one that is read. -/
theorem Finds.read {now : FileSystem} {data : FileData} {source : String} (h : g.Finds fs p b l)
    (hStill : now.get? l = some (.file data)) (hRead : now.readText b.file = .ok source) :
    now.locate b.file = .ok l ∧ String.fromUTF8? data.content = some source := by
  obtain ⟨hNamed, hFile, -⟩ := h.spec
  rw [hFile] at hRead ⊢
  obtain ⟨shown, hStat, hText⟩ := readText_eq_ok_iff.mp hRead
  obtain ⟨hLocate, hShown⟩ := get?_of_stat_path hNamed hStill (by simp) hStat
  cases hShown
  exact ⟨hLocate, hText⟩

/-! ### What clients ask for -/

/-- A client goes by what its request's path says, or by the settings. -/
def Addressed (g : Gateway) : Pursuit → Prop
  | .asking r (.recalling specifier) =>
    isServable specifier = true ∧ Route.ofPath? g.settings r.path = some (.vendor specifier)
  | .asking r (.trusting specifier) =>
    isServable specifier = true ∧ Route.ofPath? g.settings r.path = some (.vendor specifier)
  | .asking r (.locating specifier) =>
    isServable specifier = true ∧ Route.ofPath? g.settings r.path = some (.vendor specifier)
  | .asking r (.resolving path kind) =>
    kind = AssetKind.ofPath path ∧ Route.ofPath? g.settings r.path = some (.source path)
  | .warming (.checking specifier) => specifier ∈ g.warmable
  | .warming (.locating specifier) => specifier ∈ g.warmable
  | _ => True

theorem addressed_begin {errand : Errand} (hOffered : errand.Offered g) :
    g.Addressed (errand.begin g) := by
  cases errand with
  | prewarm specifier => exact hOffered
  | request r =>
      show g.Addressed (.asking r (g.start r))
      have hStart := g.start_spec r
      generalize g.start r = progress at hStart ⊢
      cases hStart with
      | passed | shim => trivial
      | recalling _ hRoute hServable => exact ⟨hServable, hRoute⟩
      | resolving hRoute => exact ⟨rfl, hRoute⟩

theorem addressed_look (w : World) (h : g.Addressed p) : g.Addressed (p.look g w) := by
  cases p with
  | asking r progress =>
      show g.Addressed (.asking r (g.look r w progress))
      have hLook := g.look_spec r w progress
      generalize g.look r w progress = next at hLook ⊢
      cases hLook with
      | missing | trusted => exact h
      | recalled | untrusted | located | unlocated | resolved | unresolved | gone | fresh | stale
      | building | answered => trivial
  | warming t =>
      show g.Addressed (.warming (g.glance w t))
      have hGlance := g.glance_spec w t
      generalize g.glance w t = next at hGlance ⊢
      cases hGlance with
      | wanted => exact h
      | ready | located | unlocated | building | ended => trivial

/-- All that a client may wait for after a look was found by that look or before. -/
def Grounded (found : Building → Prop) : Pursuit → Prop
  | .asking _ (.validating file kind) => ∀ validator, found (.source file validator kind)
  | .asking _ (.building b) => found b
  | .warming (.building b) => found b
  | _ => True

theorem Grounded.mono {found now : Building → Prop} (hMono : ∀ b, found b → now b)
    (h : Grounded found p) : Grounded now p := by
  cases p with
  | asking r progress =>
      cases progress with
      | validating file kind => exact fun validator => hMono _ (h validator)
      | building b => exact hMono b h
      | _ => trivial
  | warming t =>
      cases t with
      | building b => exact hMono b h
      | _ => trivial

theorem grounded_begin (found : Building → Prop) (g : Gateway) (errand : Errand) :
    Grounded found (errand.begin g) := by
  cases errand with
  | prewarm specifier => trivial
  | request r =>
      show Grounded found (.asking r (g.start r))
      have hStart := g.start_spec r
      generalize g.start r = progress at hStart ⊢
      cases hStart <;> trivial

/-- What a client waits for after a look it waited for before, or the look finds it. -/
theorem grounded_look {found : Building → Prop} {w : World} (hAddressed : g.Addressed p)
    (hFinds : ∀ b l, g.Finds w.fs p b l → found b) (h : Grounded found p) :
    Grounded found (p.look g w) := by
  cases p with
  | asking r progress =>
      show Grounded found (.asking r (g.look r w progress))
      have hLook := g.look_spec r w progress
      generalize g.look r w progress = next at hLook ⊢
      cases hLook with
      | located hLocated =>
          obtain ⟨hServable, hRoute⟩ := hAddressed
          obtain ⟨l, hInstalled⟩ := installed_of_locate? hServable hLocated
          exact hFinds _ l (.requested hRoute hInstalled)
      | @resolved path kind file hResolved =>
          obtain ⟨rfl, hRoute⟩ := hAddressed
          exact fun validator => hFinds _ file (.source hRoute (Source.chosen_of_resolve? hResolved))
      | stale => exact h _
      | building => exact h
      | recalled | missing | trusted | untrusted | unlocated | unresolved | gone | fresh | answered =>
          trivial
  | warming t =>
      show Grounded found (.warming (g.glance w t))
      have hGlance := g.glance_spec w t
      generalize g.glance w t = next at hGlance ⊢
      cases hGlance with
      | located hLocated =>
          have hServable := (List.mem_filter.mp hAddressed).2
          obtain ⟨l, hInstalled⟩ := installed_of_locate? hServable hLocated
          exact hFinds _ l (.prewarmed hAddressed hInstalled)
      | building => exact h
      | ready | wanted | unlocated | ended => trivial

theorem found_of_building? {found : Building → Prop} (hBuilding : p.building? = some b)
    (h : Grounded found p) : found b := by
  obtain ⟨r, rfl⟩ | rfl := Pursuit.building_cases hBuilding
  · exact h
  · exact h

end Gateway

namespace Store

/-- What is read is the entry of a specifier that may be served, which is a child of the store's
directory. -/
structure Entry (store : Store) (fs : FileSystem) (specifier : String) (content : ByteArray) :
    Prop where
  servable : isServable specifier = true
  read : fs.read (store.entryPath specifier) = .ok content
  child : ∃ l entries child, Opens fs store.directory l entries ∧
    entries.lookup (entryName specifier) = some child

theorem entry_of_servable {store : Store} {fs : FileSystem} {specifier : String} {content : ByteArray}
    (hServable : isServable specifier = true) (h : store.read? fs specifier = some content) :
    store.Entry fs specifier content := by
  have hRead := read?_eq_some_iff.mp h
  obtain ⟨-, -, l, entries, child, hOpens, hChild, -⟩ :=
    child_of_read (isName_entryName specifier) hRead
  exact ⟨hServable, hRead, l, entries, child, hOpens, hChild⟩

end Store

namespace Service

variable {settings : Settings} {moves : List Move} {move : Move} {start s before after : Service}
  {name : String} {p : Pursuit} {b : Building} {l : Location} {job : Job}

/-- On the way to a state, a look of a client of the gateway found the file of a build at a location. -/
structure FoundBy (settings : Settings) (start : Service) (moves : List Move) (s before : Service)
    (b : Building) (l : Location) : Prop where
  looked : ∃ name p, Passes (Step settings) start moves s before (.look name) ∧
    (name, p) ∈ before.clients ∧ s.gateway.Finds before.world.fs p b l
  gateway : before.gateway = s.gateway

def EverFound (settings : Settings) (start : Service) (moves : List Move) (s : Service)
    (b : Building) : Prop :=
  ∃ before l, FoundBy settings start moves s before b l

/-- On the way to a state, a job for a build read a source. -/
def EverRead (settings : Settings) (start : Service) (moves : List Move) (s : Service) (b : Building)
    (source : String) : Prop :=
  ∃ before resolved, Passes (Step settings) start moves s before
    (.work b .reading (.compiling source) resolved)

/-- Clients go by what they ask for, and whatever they or a job are about to read was found before. -/
structure Looked (settings : Settings) (start : Service) (moves : List Move) (s : Service) : Prop where
  booked : Booked s
  addressed : ∀ c ∈ s.clients, s.gateway.Addressed c.2
  clients : ∀ c ∈ s.clients, Gateway.Grounded (EverFound settings start moves s) c.2
  jobs : ∀ j ∈ s.jobs, EverFound settings start moves s j.building
  readings : ∀ j ∈ s.jobs, ∀ source, j.stage = .compiling source →
    EverRead settings start moves s j.building source

theorem EverFound.step (h : EverFound settings start moves s b) (hStep : Step settings s move after)
    (hGateway : after.gateway = s.gateway) : EverFound settings start (move :: moves) after b := by
  obtain ⟨before, l, ⟨name, p, hPasses, hClient, hFinds⟩, hSame⟩ := h
  exact ⟨before, l, ⟨name, p, hPasses.step hStep, hClient, hGateway ▸ hFinds⟩,
    hSame.trans hGateway.symm⟩

theorem EverRead.step {source : String} (h : EverRead settings start moves s b source)
    (hStep : Step settings s move after) : EverRead settings start (move :: moves) after b source := by
  obtain ⟨before, resolved, hPasses⟩ := h
  exact ⟨before, resolved, hPasses.step hStep⟩

theorem looked_fresh (g : Gateway) (fs : FileSystem) : Looked settings start moves (fresh g fs) where
  booked := booked_fresh g fs
  addressed := fun c hClient => by cases hClient
  clients := fun c hClient => by cases hClient
  jobs := fun j hJob => by cases hJob
  readings := fun j hJob => by cases hJob

/-- A step of the gateway keeps what was found for the clients and jobs that stay. -/
theorem Looked.keep (h : Looked settings start moves s) (hStep : Step settings s move after)
    (hGateway : after.gateway = s.gateway)
    (hClients : ∀ c ∈ after.clients, c ∈ s.clients ∨ s.gateway.Addressed c.2 ∧
      Gateway.Grounded (EverFound settings start (move :: moves) after) c.2)
    (hJobs : ∀ j ∈ after.jobs, j ∈ s.jobs ∨ EverFound settings start (move :: moves) after j.building ∧
      ∀ source, j.stage = .compiling source →
        EverRead settings start (move :: moves) after j.building source) :
    Looked settings start (move :: moves) after where
  booked := hStep.booked h.booked
  addressed := fun c hClient => by
    rw [hGateway]
    exact (hClients c hClient).elim (h.addressed c) And.left
  clients := fun c hClient =>
    (hClients c hClient).elim
      (fun hOld => (h.clients c hOld).mono fun _ hFound => hFound.step hStep hGateway) And.right
  jobs := fun j hJob =>
    (hJobs j hJob).elim (fun hOld => (h.jobs j hOld).step hStep hGateway) And.left
  readings := fun j hJob source hStage =>
    (hJobs j hJob).elim (fun hOld => (h.readings j hOld source hStage).step hStep)
      fun hNew => hNew.2 source hStage

/-- A job has a source to compile once it has read one. -/
theorem reading_of_next {source : String} (hNext : (s.next job).1 = .compiling source)
    (hGoing : ∀ outcome, job.stage ≠ .ended outcome) :
    job.stage = .reading ∧ s.world.fs.readText job.building.file = .ok source := by
  have hAdvance := s.next_spec job
  rw [hNext] at hAdvance
  generalize hStage : job.stage = stage, hLinked : Stage.compiling source = next,
    (s.next job).2 = after at hAdvance
  cases hAdvance with
  | read hRead =>
      cases hLinked
      exact ⟨rfl, hRead⟩
  | compiled =>
      unfold Gateway.afterLinking at hLinked
      split at hLinked <;> cases hLinked
  | stored | missing | unreadable | persisted => cases hLinked
  | ended => exact absurd hStage (hGoing _)

theorem Looked.client_after (h : Looked settings start moves s) (hRun : Run (Step settings) start moves s)
    (hStep : Step settings s move after) (hGateway : after.gateway = s.gateway) {c : String × Pursuit}
    (hClient : c ∈ after.clients) : c ∈ s.clients ∨ s.gateway.Addressed c.2 ∧
      Gateway.Grounded (EverFound settings start (move :: moves) after) c.2 := by
  rcases hStep.client_of_mem hClient with
    hOld | ⟨_, errand, -, hOffered, rfl⟩ | ⟨name, p, rfl, hThere, rfl⟩
  · exact .inl hOld
  · exact .inr ⟨Gateway.addressed_begin hOffered, Gateway.grounded_begin _ _ errand⟩
  · have hAddressed := h.addressed _ hThere
    refine .inr ⟨Gateway.addressed_look _ hAddressed, ?_⟩
    refine Gateway.grounded_look hAddressed (fun b l hFinds => ?_)
      ((h.clients _ hThere).mono fun _ hFound => hFound.step hStep hGateway)
    exact ⟨s, l, ⟨name, p, ⟨moves, [], _, rfl, hRun, hStep, .refl⟩, hThere, hGateway ▸ hFinds⟩,
      hGateway.symm⟩

theorem Looked.job_after (h : Looked settings start moves s) (hRun : Run (Step settings) start moves s)
    (hStep : Step settings s move after) (hGateway : after.gateway = s.gateway) (hJob : job ∈ after.jobs) :
    job ∈ s.jobs ∨ EverFound settings start (move :: moves) after job.building ∧
      ∀ source, job.stage = .compiling source →
        EverRead settings start (move :: moves) after job.building source := by
  rcases hStep.job_of_mem h.booked hJob with
    ⟨hOld, -⟩ | ⟨c, hClient, hBuilding, hFirst⟩ | ⟨old, hOld, hGoing, rfl, rfl, rfl⟩
  · exact .inl hOld
  · refine .inr ⟨(Gateway.found_of_building? hBuilding (h.clients _ hClient)).step hStep hGateway,
      fun source hStage => ?_⟩
    rw [hFirst] at hStage
    generalize job.building = b at hStage
    cases b <;> cases hStage
  · refine .inr ⟨(h.jobs old hOld).step hStep hGateway, fun source hStage => ?_⟩
    have hNext : (s.next old).1 = .compiling source := hStage
    obtain ⟨hReading, -⟩ := reading_of_next hNext hGoing
    have hMove : workMove s old = .work old.building .reading (.compiling source)
        (s.gateway.resolves s.world.fs old.building .reading) := by
      rw [workMove, hNext, hReading]
    rw [hMove] at hStep ⊢
    exact ⟨s, _, moves, [], _, rfl, hRun, hStep, .refl⟩

theorem Looked.step (h : Looked settings start moves s) (hRun : Run (Step settings) start moves s)
    (hStep : Step settings s move after) : Looked settings start (move :: moves) after := by
  by_cases hMove : move = .restart
  · subst hMove
    cases hStep
    exact looked_fresh _ _
  · have hGateway := hStep.gateway_eq hMove
    exact h.keep hStep hGateway (fun _ hClient => h.client_after hRun hStep hGateway hClient)
      fun _ hJob => h.job_after hRun hStep hGateway hJob

theorem Run.looked {g : Gateway} {fs : FileSystem} (hRun : Run (Step settings) (fresh g fs) moves s) :
    Looked settings (fresh g fs) moves s := by
  induction hRun with
  | refl => exact looked_fresh g fs
  | step run hStep ih => exact ih.step run hStep

/-! ### The whole -/

/-- Before a build, only an entry of the store is answered with a body. -/
theorem entry_of_look {r : Request} {progress : Progress} {response : Response}
    (hAddressed : s.gateway.Addressed (.asking r progress))
    (hWaits : ∀ reply, progress ≠ .answered reply)
    (hLook : s.gateway.look r s.world progress = .answered (.respond response))
    (hBody : response.body ≠ ByteArray.empty) :
    ∃ specifier, s.gateway.store.Entry s.world.fs specifier response.body := by
  have hMissed (specifier : String) :
      Progress.answered (s.gateway.missed specifier) ≠ .answered (.respond response) := by
    unfold Gateway.missed
    split <;> simp
  have hFound := s.gateway.look_spec r s.world progress
  rw [hLook] at hFound
  generalize hNext : Progress.answered (.respond response) = next at hFound
  cases hFound with
  | @recalled specifier content hStored =>
      cases hNext
      exact ⟨specifier, Store.entry_of_servable hAddressed.1 hStored⟩
  | untrusted | unlocated => exact absurd hNext.symm (hMissed _)
  | fresh =>
      cases hNext
      exact absurd rfl hBody
  | answered => exact absurd rfl (hWaits _)
  | missing | trusted | located | resolved | unresolved | gone | stale | building => cases hNext

theorem entry_of_check {content : ByteArray} {type : String} {resolved : List String}
    (h : Looked settings start moves s)
    (hStep : Step settings s (.work b .checking (.ended (.success content type)) resolved) after) :
    ∃ specifier m, b = .vendor specifier m ∧ s.gateway.store.Entry s.world.fs specifier content := by
  generalize hMove : Move.work b .checking (.ended (.success content type)) resolved = move at hStep
  cases hStep with
  | @work job hJob hGoing =>
      injection hMove with hBuilding hStage hNext
      have hAdvance := s.next_spec job
      rw [← hStage, ← hNext] at hAdvance
      generalize (s.next job).2 = left at hAdvance
      cases hAdvance with
      | stored hStored =>
          obtain ⟨before, l, ⟨name, p, -, -, hFinds⟩, -⟩ := h.jobs job hJob
          rw [← hBuilding] at hFinds hStored
          cases hFinds with
          | source => cases hStored
          | requested hRoute hInstalled =>
              exact ⟨_, _, rfl, Store.entry_of_servable hInstalled.servable hStored⟩
          | prewarmed hWarmable hInstalled =>
              exact ⟨_, _, rfl, Store.entry_of_servable hInstalled.servable hStored⟩
  | _ => cases hMove

/-- All that a running gateway reads in order to hand it out. A job reads the file that a look has found,
inside the source root or inside the package, as long as the place that was found was given to nothing
else; it compiles what it has read. Whatever else leaves with a body, without a build or from the check at
the start of one, leaves with an entry of the store. -/
theorem reads_confined {g : Gateway} {fs : FileSystem}
    (hRun : Run (Step settings) (fresh g fs) moves s) :
    (∀ b source resolved after,
      Step settings s (.work b .reading (.compiling source) resolved) after →
        ∃ before l, FoundBy settings (fresh g fs) moves s before b l ∧
          (s.world.fs.root.outline? l = before.world.fs.root.outline? l →
            s.world.fs.locate b.file = .ok l ∧ ∃ data, s.world.fs.get? l = some (.file data) ∧
              String.fromUTF8? data.content = some source)) ∧
    (∀ b source next resolved after,
      Step settings s (.work b (.compiling source) next resolved) after →
        EverRead settings (fresh g fs) moves s b source) ∧
    (∀ name r progress response, (name, .asking r progress) ∈ s.clients →
      (∀ reply, progress ≠ .answered reply) →
      s.gateway.look r s.world progress = .answered (.respond response) →
      response.body ≠ ByteArray.empty →
        ∃ specifier, s.gateway.store.Entry s.world.fs specifier response.body) ∧
    ∀ b content type resolved after,
      Step settings s (.work b .checking (.ended (.success content type)) resolved) after →
        ∃ specifier m, b = .vendor specifier m ∧
          s.gateway.store.Entry s.world.fs specifier content := by
  have hLooked := hRun.looked
  refine ⟨fun b source resolved after hStep => ?_, fun b source next resolved after hStep => ?_, ?_, ?_⟩
  · generalize hMove : Move.work b .reading (.compiling source) resolved = move at hStep
    cases hStep with
    | @work job hJob hGoing =>
        injection hMove with hBuilding hStage hNext
        obtain ⟨-, hRead⟩ := reading_of_next hNext.symm hGoing
        subst hBuilding
        obtain ⟨before, l, hFound⟩ := hLooked.jobs job hJob
        refine ⟨before, l, hFound, fun hKept => ?_⟩
        obtain ⟨name, p, -, -, hFinds⟩ := hFound.looked
        obtain ⟨data, hStill⟩ :=
          Node.outline?_eq_file.mp (hKept.trans (Node.outline?_eq_file.mpr hFinds.spec.2.2))
        obtain ⟨hLocate, hText⟩ := hFinds.read hStill hRead
        exact ⟨hLocate, data, hStill, hText⟩
    | _ => cases hMove
  · obtain ⟨job, hJob, rfl, hStage⟩ := hStep.job_of_work
    exact hLooked.readings job hJob source hStage
  · intro name r progress response hClient hWaits hLook hBody
    exact entry_of_look (hLooked.addressed _ hClient) hWaits hLook hBody
  · exact fun b content type resolved after hStep => entry_of_check hLooked hStep

/-- A client asks for the first package's module, and its job is about to read the file. -/
def chainReading : List Choice :=
  chainAsked.take 6

theorem reads_confined_chain :
    let run := performs chainGateway.settings chainReading [] (fresh chainGateway chainFiles)
    ∃ before l, FoundBy chainGateway.settings (fresh chainGateway chainFiles) run.1 run.2 before
      (.vendor "a" ⟨"a", ⟨"/node_modules/a"⟩, ⟨"/node_modules/a/index.js"⟩⟩) l := by
  intro run
  have hNext : (run.2.perform? chainGateway.settings (.work 0)).map Prod.fst =
      some (.work (.vendor "a" ⟨"a", ⟨"/node_modules/a"⟩, ⟨"/node_modules/a/index.js"⟩⟩) .reading
        (.compiling "import \"b\";\n") []) := by decide +kernel
  obtain ⟨⟨move, after⟩, hPerformed, rfl⟩ := Option.map_eq_some_iff.mp hNext
  have hRun : Run (Step chainGateway.settings) (fresh chainGateway chainFiles) run.1 run.2 :=
    (run_performs chainReading .refl).mono fun _ _ _ hStep => hStep.toSecluded.step
  obtain ⟨hReads, -⟩ := reads_confined hRun
  obtain ⟨before, l, hFound, -⟩ := hReads _ _ _ after (perform?_sound hPerformed).toSecluded.step
  exact ⟨before, l, hFound⟩

end Service

end ModuleGateway
