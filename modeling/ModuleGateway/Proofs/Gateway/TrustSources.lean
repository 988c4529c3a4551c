import ModuleGateway.Proofs.Gateway.Trusting

/-!
Where trust comes from. A gateway starts with the packages of its seeds. Later a package becomes trusted
in one way only: a job links the output of a compilation, and a bare specifier that linking asks for is
found installed. What clients ask for adds nothing, and nothing is ever taken away. So the compiler sees
no vendor module but those of packages that are trusted by then; prewarming, which does not look at the
registry, builds nothing but seeds.
-/

namespace ModuleGateway

open Build Specifier

namespace Service

/-- A step from a state in which a job links the output of a compilation, and linking asks for a bare
specifier that no runtime global stands for and that is found installed. Linking is successful or not;
what it asks for is what any map sees that stands in the place of its own. -/
inductive Imports (s : Service) : Move → String → Prop where
  | linking {b : Building} {source output specifier : String} {next : Stage} {resolved : List String}
      (answer : String → Option String)
      (hCompiled : s.gateway.compiler ⟨b.file, source, b.kind⟩ = .done output)
      (hScript : b.importer?.isSome = true)
      (hAsked : specifier ∈ ((Relink.relink (Relink.recording answer) output).run []).2)
      (hBare : kind specifier = .bare)
      (hNoGlobal : s.gateway.sources.global? specifier = none)
      (hInstalled : ∃ m, s.gateway.sources.locate? s.world.fs specifier = some m) :
      Imports s (.work b (.compiling source) next resolved) specifier

/-- A run leads to a state by way of a step from another state. -/
def Passes (R : Service → Move → Service → Prop) (start : Service) (moves : List Move)
    (s before : Service) (move : Move) : Prop :=
  ∃ earlier later after, moves = later ++ move :: earlier ∧ Run R start earlier before ∧
    R before move after ∧ Run R after later s

variable {settings : Settings} {moves : List Move} {move : Move} {start s before after : Service}
  {name : String} {job : Job}

/-! ### Trust grows by imports -/

/-- What a step of a job resolves is what it imports. -/
theorem imports_work_iff {specifier : String} :
    Imports s (workMove s job) specifier ↔
      specifier ∈ s.gateway.resolves s.world.fs job.building job.stage := by
  obtain ⟨id, b, stage⟩ := job
  constructor
  · intro hImports
    cases hImports with
    | linking answer hCompiled hScript hAsked hBare hNoGlobal hInstalled =>
        rw [Relink.relink_recording] at hAsked
        obtain ⟨importer, hImporter⟩ := Option.isSome_iff_exists.mp hScript
        simp only [Gateway.resolves, hCompiled, hImporter]
        refine Relink.mem_resolved.mpr ⟨hAsked, hBare, ?_⟩
        exact Package.Sources.package?_eq_some_iff.mpr ⟨hNoGlobal, hInstalled, rfl⟩
  · intro hResolved
    cases stage with
    | compiling source =>
        unfold Gateway.resolves at hResolved
        dsimp only at hResolved
        split at hResolved
        · rename_i output importer hCompiled hImporter
          obtain ⟨hAsked, hBare, hPackage⟩ := Relink.mem_resolved.mp hResolved
          obtain ⟨hNoGlobal, hInstalled, -⟩ := Package.Sources.package?_eq_some_iff.mp hPackage
          rw [← Relink.relink_recording fun _ => none] at hAsked
          exact .linking _ hCompiled (by simp [hImporter]) hAsked hBare hNoGlobal hInstalled
        · cases hResolved
    | _ => cases hResolved

/-- A step trusts the packages of what it imports, and no others. -/
theorem Step.trusts_iff (hStep : Step settings s move after) (hMove : move ≠ .restart) :
    after.world.trusted.contains name = true ↔
      s.world.trusted.contains name = true ∨
        ∃ specifier, Imports s move specifier ∧ packageName specifier = name ∧ name ≠ "" := by
  have hIdle (hTrusted : after.world.trusted = s.world.trusted)
      (hNone : ∀ specifier, ¬Imports s move specifier) :
      after.world.trusted.contains name = true ↔
        s.world.trusted.contains name = true ∨
          ∃ specifier, Imports s move specifier ∧ packageName specifier = name ∧ name ≠ "" := by
    simp [hTrusted, hNone]
  cases hStep with
  | arrive => exact hIdle rfl fun _ hImports => by cases hImports
  | look => exact hIdle rfl fun _ hImports => by cases hImports
  | join => exact hIdle rfl fun _ hImports => by cases hImports
  | publish => exact hIdle rfl fun _ hImports => by cases hImports
  | answer => exact hIdle rfl fun _ hImports => by cases hImports
  | receive => exact hIdle rfl fun _ hImports => by cases hImports
  | leave => exact hIdle rfl fun _ hImports => by cases hImports
  | change => exact hIdle rfl fun _ hImports => by cases hImports
  | restart => exact absurd rfl hMove
  | @work job hJob hGoing =>
      have hImports (specifier : String) : Imports s (.work job.building job.stage (s.next job).1
          (s.gateway.resolves s.world.fs job.building job.stage)) specifier ↔
            specifier ∈ s.gateway.resolves s.world.fs job.building job.stage := imports_work_iff
      refine (contains_next name).trans (or_congr_right ?_)
      simp only [hImports]
      constructor
      · rintro ⟨hName, specifier, hResolved, hPackage⟩
        exact ⟨specifier, hResolved, hPackage, hName⟩
      · rintro ⟨specifier, hResolved, hPackage, hName⟩
        exact ⟨hName, specifier, hResolved, hPackage⟩

/-- Nothing but linking touches the registry. -/
theorem Step.trusted_eq (hStep : Step settings s move after) (hMove : move ≠ .restart)
    (hOther : ∀ b source next resolved, move ≠ .work b (.compiling source) next resolved) :
    after.world.trusted = s.world.trusted := by
  cases hStep with
  | @work job hJob hGoing =>
      show (s.next job).2.trusted = s.world.trusted
      have hNext := s.next_spec job
      generalize job.stage = stage, (s.next job).1 = next, (s.next job).2 = after at hOther hNext ⊢
      cases hNext with
      | compiled => exact absurd rfl (hOther _ _ _ _)
      | stored | missing | read | unreadable | persisted | ended => rfl
  | restart => exact absurd rfl hMove
  | _ => rfl

theorem Step.trusts (hStep : Step settings s move after) (hMove : move ≠ .restart)
    (hTrusted : s.world.trusted.contains name = true) :
    after.world.trusted.contains name = true :=
  (hStep.trusts_iff hMove).mpr (.inl hTrusted)

/-- What is trusted stays trusted until the gateway is started again. -/
theorem Run.trusts (hRun : Run (Step settings) start moves s) (hNever : .restart ∉ moves)
    (hTrusted : start.world.trusted.contains name = true) :
    s.world.trusted.contains name = true := by
  induction hRun with
  | refl => exact hTrusted
  | step run hStep ih =>
      obtain ⟨hMove, hEarlier⟩ := List.ne_and_not_mem_of_not_mem_cons hNever
      exact hStep.trusts hMove.symm (ih hEarlier)

theorem Passes.step {before : Service} {earlier : Move}
    (hPasses : Passes (Step settings) start moves s before earlier)
    (hStep : Step settings s move after) :
    Passes (Step settings) start (move :: moves) after before earlier := by
  obtain ⟨first, last, reached, rfl, hBefore, hTaken, hAfter⟩ := hPasses
  exact ⟨first, move :: last, reached, rfl, hBefore, hTaken, hAfter.step hStep⟩

theorem Run.trusts_iff (hRun : Run (Step settings) start moves s) (hNever : .restart ∉ moves) :
    s.world.trusted.contains name = true ↔ start.world.trusted.contains name = true ∨
      ∃ before move specifier, Passes (Step settings) start moves s before move ∧
        Imports before move specifier ∧ packageName specifier = name ∧ name ≠ "" := by
  constructor
  · intro hTrusted
    induction hRun with
    | refl => exact .inl hTrusted
    | step run hStep ih =>
        obtain ⟨hMove, hEarlier⟩ := List.ne_and_not_mem_of_not_mem_cons hNever
        rcases (hStep.trusts_iff hMove.symm).mp hTrusted with hOld | ⟨specifier, hImports, hName⟩
        · rcases ih hEarlier hOld with hStart | ⟨before, earlier, specifier, hPasses, hRest⟩
          · exact .inl hStart
          · exact .inr ⟨before, earlier, specifier, hPasses.step hStep, hRest⟩
        · exact .inr ⟨_, _, specifier, ⟨_, [], _, rfl, run, hStep, .refl⟩, hImports, hName⟩
  · rintro (hStart | ⟨before, move, specifier, hPasses, hImports, hName⟩)
    · exact hRun.trusts hNever hStart
    · obtain ⟨earlier, later, after, rfl, -, hStep, hAfter⟩ := hPasses
      simp only [List.mem_append, List.mem_cons, not_or] at hNever
      obtain ⟨hLater, hMove, -⟩ := hNever
      refine hAfter.trusts hLater ((hStep.trusts_iff (Ne.symm hMove)).mpr ?_)
      exact .inr ⟨specifier, hImports, hName⟩

/-! ### What is compiled is trusted -/

/-- A build of a package's module is of a trusted package. -/
def BuildingVetted (trusted : Trust.Registry) : Building → Prop
  | .vendor _ m => trusted.contains m.package = true
  | .source .. => True

/-- A client that has come past the check of its package, or was let past it, asks for a trusted
package. -/
def PursuitVetted (trusted : Trust.Registry) : Pursuit → Prop
  | .asking _ (.locating specifier) => trusted.trusts specifier = true
  | .asking _ (.building b) => BuildingVetted trusted b
  | .warming (.checking specifier) => trusted.trusts specifier = true
  | .warming (.locating specifier) => trusted.trusts specifier = true
  | .warming (.building b) => BuildingVetted trusted b
  | _ => True

/-- All that is on the way to the compiler is trusted, and so is whatever may be prewarmed. -/
structure Vetted (s : Service) : Prop where
  warmable : ∀ specifier ∈ s.gateway.warmable, s.world.trusted.trusts specifier = true
  clients : ∀ c ∈ s.clients, PursuitVetted s.world.trusted c.2
  jobs : ∀ j ∈ s.jobs, BuildingVetted s.world.trusted j.building

theorem BuildingVetted.mono {trusted later : Trust.Registry} {b : Building}
    (hMono : ∀ name, trusted.contains name = true → later.contains name = true)
    (h : BuildingVetted trusted b) : BuildingVetted later b := by
  cases b with
  | vendor specifier m => exact hMono _ h
  | source file validator kind => exact h

theorem PursuitVetted.mono {trusted later : Trust.Registry} {p : Pursuit}
    (hMono : ∀ name, trusted.contains name = true → later.contains name = true)
    (h : PursuitVetted trusted p) : PursuitVetted later p := by
  cases p with
  | asking r progress =>
      cases progress with
      | locating specifier => exact hMono _ h
      | building b => exact BuildingVetted.mono hMono h
      | _ => exact h
  | warming t =>
      cases t with
      | checking specifier => exact hMono _ h
      | locating specifier => exact hMono _ h
      | building b => exact BuildingVetted.mono hMono h
      | ended isReady => exact h

theorem buildingVetted_of_locate? {g : Gateway} {fs : FileSystem} {trusted : Trust.Registry}
    {specifier : String} {m : Package.Located} (hLocated : g.sources.locate? fs specifier = some m)
    (hTrusts : trusted.trusts specifier = true) :
    BuildingVetted trusted (.vendor specifier m) := by
  show trusted.contains m.package = true
  rw [Package.locate?_package hLocated]
  exact hTrusts

theorem pursuitVetted_begin {g : Gateway} {trusted : Trust.Registry} {errand : Errand}
    (hWarmable : ∀ specifier ∈ g.warmable, trusted.trusts specifier = true)
    (hOffered : errand.Offered g) : PursuitVetted trusted (errand.begin g) := by
  cases errand with
  | prewarm specifier => exact hWarmable specifier hOffered
  | request r =>
      show PursuitVetted trusted (.asking r (g.start r))
      have hStart := g.start_spec r
      generalize g.start r = progress at hStart ⊢
      cases hStart <;> trivial

/-- A step up to a build looks whether the package is trusted. -/
theorem pursuitVetted_look {g : Gateway} {w : World} {p : Pursuit}
    (h : PursuitVetted w.trusted p) : PursuitVetted w.trusted (p.look g w) := by
  cases p with
  | asking r progress =>
      show PursuitVetted w.trusted (.asking r (g.look r w progress))
      have hLook := g.look_spec r w progress
      generalize g.look r w progress = next at hLook ⊢
      cases hLook with
      | trusted hTrusted => exact hTrusted
      | located hLocated => exact buildingVetted_of_locate? hLocated h
      | building => exact h
      | recalled | missing | untrusted | unlocated | resolved | unresolved | gone | fresh | stale
      | answered => trivial
  | warming t =>
      show PursuitVetted w.trusted (.warming (g.glance w t))
      have hGlance := g.glance_spec w t
      generalize g.glance w t = next at hGlance ⊢
      cases hGlance with
      | located hLocated => exact buildingVetted_of_locate? hLocated h
      | wanted | building => exact h
      | ready | unlocated | ended => trivial

theorem buildingVetted_of_building? {trusted : Trust.Registry} {p : Pursuit} {b : Building}
    (hBuilding : p.building? = some b) (h : PursuitVetted trusted p) :
    BuildingVetted trusted b := by
  obtain ⟨r, rfl⟩ | rfl := Pursuit.building_cases hBuilding
  · exact h
  · exact h

/-- A gateway that starts trusts what it prewarms. -/
theorem vetted_fresh (g : Gateway) (fs : FileSystem) : Vetted (fresh g fs) where
  warmable := fun specifier hWarmable => by
    obtain ⟨hPrewarm, hServable⟩ := List.mem_filter.mp hWarmable
    show (Trust.Registry.empty.extend (g.seeds fs)).contains (packageName specifier) = true
    refine (Trust.Registry.contains_extend _ _ _).mpr (.inr ⟨?_, List.mem_map_of_mem ?_⟩)
    · exact packageName_ne_empty_of_isServable hServable
    · have hSeed : specifier ∈ g.settings.prewarm := hPrewarm
      simp [Gateway.seeds, hSeed]
  clients := fun c hClient => by cases hClient
  jobs := fun j hJob => by cases hJob

/-- Clients may leave, and jobs may end. -/
theorem Vetted.keep (h : Vetted s) (hGateway : after.gateway = s.gateway)
    (hTrusted : after.world.trusted = s.world.trusted)
    (hClients : ∀ c ∈ after.clients, c ∈ s.clients ∨ PursuitVetted s.world.trusted c.2)
    (hJobs : ∀ j ∈ after.jobs, j ∈ s.jobs ∨ BuildingVetted s.world.trusted j.building) :
    Vetted after where
  warmable := by
    rw [hGateway, hTrusted]
    exact h.warmable
  clients := fun c hClient => by
    rw [hTrusted]
    exact (hClients c hClient).elim (h.clients c) id
  jobs := fun j hJob => by
    rw [hTrusted]
    exact (hJobs j hJob).elim (h.jobs j) id

theorem Vetted.dropClient (h : Vetted s) (name : String) : Vetted (s.dropClient name) :=
  h.keep rfl rfl (fun _ hClient => .inl (List.mem_filter.mp hClient).1) fun _ hJob => .inl hJob

theorem Vetted.advance (h : Vetted s)
    (hMono : ∀ name, s.world.trusted.contains name = true →
      (s.advance job).world.trusted.contains name = true) : Vetted (s.advance job) where
  warmable := fun specifier hWarmable => hMono _ (h.warmable specifier hWarmable)
  clients := fun c hClient => (h.clients c hClient).mono hMono
  jobs := fun j hJob => by
    rcases mem_advance hJob with ⟨hOld, -⟩ | ⟨old, hOld, -, rfl⟩
    · exact (h.jobs j hOld).mono hMono
    · exact (h.jobs old hOld).mono hMono

theorem Step.vetted (hStep : Step settings s move after) (h : Vetted s) : Vetted after := by
  cases hStep with
  | arrive hNew hOffered =>
      refine h.keep rfl rfl (fun c hClient => ?_) fun _ hJob => .inl hJob
      rcases List.mem_append.mp hClient with hOld | hBegun
      · exact .inl hOld
      · obtain rfl := List.mem_singleton.mp hBegun
        exact .inr (pursuitVetted_begin h.warmable hOffered)
  | look hClient =>
      refine h.keep rfl rfl (fun c hMem => ?_) fun _ hJob => .inl hJob
      rcases mem_setClient hMem with rfl | hOld
      · exact .inr (pursuitVetted_look (h.clients _ hClient))
      · exact .inl hOld
  | join hClient hBuilding hIdle =>
      refine h.keep rfl rfl (fun c hMem => .inl hMem) fun j hJob => ?_
      simp only [Service.join] at hJob
      split at hJob
      · exact .inl hJob
      · rcases List.mem_append.mp hJob with hOld | hStarted
        · exact .inl hOld
        · obtain rfl := List.mem_singleton.mp hStarted
          exact .inr (buildingVetted_of_building? hBuilding (h.clients _ hClient))
  | work hJob hGoing =>
      have hWork : Step settings s (workMove s _) (s.advance _) := .work hJob hGoing
      exact h.advance fun name hTrusted => hWork.trusts (by simp [workMove]) hTrusted
  | publish =>
      exact h.keep rfl rfl (fun _ hMem => .inl hMem) fun _ hJob => .inl (List.mem_filter.mp hJob).1
  | answer => exact h.dropClient _
  | receive => exact h.dropClient _
  | leave => exact h.dropClient _
  | change => exact ⟨h.warmable, h.clients, h.jobs⟩
  | restart => exact vetted_fresh _ _

theorem Run.vetted {g : Gateway} {fs : FileSystem} (hRun : Run (Step settings) (fresh g fs) moves s) :
    Vetted s :=
  hRun.invariant (I := fun _ s => Vetted s) (vetted_fresh g fs) fun h hStep => hStep.vetted h

/-! ### The whole -/

/-- A gateway trusts, at any time, the packages of its seeds and those that some job has imported since
the start, and no others. Every step but a link of compiler output leaves the registry as it is,
whatever clients ask for, and no step takes a package off it. What is compiled for a package's module
lies in a package that is trusted at that time, whether the build was asked for or prewarmed. -/
theorem trust_sources {g : Gateway} {fs : FileSystem}
    (hRun : Run (Step settings) (fresh g fs) moves s) (hNever : .restart ∉ moves) :
    (∀ name, s.world.trusted.contains name = true ↔
      (g.newWorld fs).trusted.contains name = true ∨
        ∃ before move specifier, Passes (Step settings) (fresh g fs) moves s before move ∧
          Imports before move specifier ∧ packageName specifier = name ∧ name ≠ "") ∧
    (∀ move after, Step settings s move after → move ≠ .restart →
      (∀ name, s.world.trusted.contains name = true → after.world.trusted.contains name = true) ∧
      ((∀ b source next resolved, move ≠ .work b (.compiling source) next resolved) →
        after.world.trusted = s.world.trusted)) ∧
    ∀ specifier m source next resolved after,
      Step settings s (.work (.vendor specifier m) (.compiling source) next resolved) after →
        s.world.trusted.contains m.package = true := by
  refine ⟨fun name => hRun.trusts_iff hNever, fun move after hStep hMove => ⟨?_, ?_⟩, ?_⟩
  · exact fun name => hStep.trusts hMove
  · exact hStep.trusted_eq hMove
  · intro specifier m source next resolved after hStep
    obtain ⟨job, hJob, hBuilding, -⟩ := hStep.job_of_work
    have hVetted := hRun.vetted.jobs job hJob
    rw [hBuilding] at hVetted
    exact hVetted

/-- The second package of the chain is no seed. It is trusted once the first package's module, which a
client asked for, has been linked. -/
theorem trust_sources_chain :
    let run := performs chainGateway.settings chainAsked [] (fresh chainGateway chainFiles)
    (chainGateway.newWorld chainFiles).trusted.contains "b" = false ∧
      ∃ before move specifier,
        Passes (Step chainGateway.settings) (fresh chainGateway chainFiles) run.1 run.2 before move ∧
          Imports before move specifier ∧ packageName specifier = "b" := by
  intro run
  obtain ⟨hNever, hTrusted, hSeeds⟩ : .restart ∉ run.1 ∧
      run.2.world.trusted.contains "b" = true ∧
      (chainGateway.newWorld chainFiles).trusted.contains "b" = false := by decide +kernel
  have hRun : Run (Step chainGateway.settings) (fresh chainGateway chainFiles) run.1 run.2 :=
    (run_performs chainAsked .refl).mono fun _ _ _ hStep => hStep.toSecluded.step
  obtain ⟨hSources, -, -⟩ := trust_sources hRun hNever
  rcases (hSources "b").mp hTrusted with hSeed | ⟨before, move, specifier, hPasses, hImports, hName⟩
  · rw [hSeeds] at hSeed
    cases hSeed
  · exact ⟨hSeeds, before, move, specifier, hPasses, hImports, hName.1⟩

end Service

end ModuleGateway
