import ModuleGateway.Proofs.Gateway.FailedBuild

/-!
Services whose packages stay as they are. In whatever order clients and jobs come and go, all builds of one
specifier then come to the same end. If its module can be built, the first job that gets so far puts it into
the store, where every other job finds it; if not, there will never be an entry.
-/

namespace ModuleGateway

open Build

namespace Gateway

variable {g : Gateway} {before after fs : FileSystem} {w : World} {specifier message : String}
  {m : Package.Located} {b : Building} {stage : Stage} {ready : Bool}

/-! ### What can be built -/

/-- The module of a specifier lies where it lay and reads as it read. -/
structure LiesStill (g : Gateway) (before after : FileSystem) (specifier : String) : Prop where
  place : g.sources.locate? after specifier = g.sources.locate? before specifier
  text : ∀ m, g.sources.locate? before specifier = some m →
    after.readText m.file = before.readText m.file

instance : Decidable (g.LiesStill before after specifier) :=
  decidable_of_iff
    (g.sources.locate? after specifier = g.sources.locate? before specifier ∧
      ∀ m, g.sources.locate? before specifier = some m →
        after.readText m.file = before.readText m.file)
    ⟨fun ⟨hPlace, hText⟩ => ⟨hPlace, hText⟩, fun h => ⟨h.place, h.text⟩⟩

/-- There is a module for a specifier, and its build does not fail. -/
def Buildable (g : Gateway) (fs : FileSystem) (specifier : String) : Prop :=
  ∃ m, g.sources.locate? fs specifier = some m ∧
    ∀ message, ¬ g.FailsOn fs (.vendor specifier m) message

theorem fails_congr (hText : after.readText b.file = before.readText b.file)
    (h : g.Fails before b stage message) : g.Fails after b stage message := by
  cases h with
  | unreadable hRead => exact .unreadable (hText.trans hRead)
  | refused hCompiled => exact .refused hCompiled
  | panicked hCompiled => exact .panicked hCompiled
  | unterminated hCompiled hImporter hScan => exact .unterminated hCompiled hImporter hScan

theorem failsOn_congr (hText : after.readText b.file = before.readText b.file)
    (h : g.FailsOn before b message) : g.FailsOn after b message := by
  rcases h with hReading | ⟨source, hRead, hCompiling⟩
  · exact .inl (fails_congr hText hReading)
  · exact .inr ⟨source, hText.trans hRead, fails_congr hText hCompiling⟩

theorem LiesStill.buildable_iff (h : g.LiesStill before after specifier) :
    g.Buildable after specifier ↔ g.Buildable before specifier := by
  constructor
  · rintro ⟨m, hPlace, hBuilds⟩
    rw [h.place] at hPlace
    exact ⟨m, hPlace, fun message hFails =>
      hBuilds message (failsOn_congr (h.text m hPlace) hFails)⟩
  · rintro ⟨m, hPlace, hBuilds⟩
    exact ⟨m, h.place.trans hPlace, fun message hFails =>
      hBuilds message (failsOn_congr (h.text m hPlace).symm hFails)⟩

/-! ### Files around a specifier -/

/-- Whether a specifier has an entry is decided: if it has none, none can be built. -/
structure Decided (g : Gateway) (fs : FileSystem) (specifier : String) (ready : Bool) : Prop where
  entry : g.store.contains fs specifier = ready
  hopeless : ready = false → ¬ g.Buildable fs specifier

/-- How files may change around a specifier: what there is stays, and an entry comes only where the module
can be built. -/
structure Onward (g : Gateway) (before after : FileSystem) (specifier : String) : Prop extends
    g.LiesStill before after specifier where
  keeps : ∀ content, g.store.read? before specifier = some content →
    g.store.read? after specifier = some content
  grows : g.store.contains before specifier = true → g.store.contains after specifier = true
  built : g.store.contains after specifier = true →
    g.store.contains before specifier = true ∨ g.Buildable before specifier

/-- What is decided stays decided. -/
theorem Onward.decided (h : g.Onward before after specifier)
    (hDecided : g.Decided before specifier ready) : g.Decided after specifier ready where
  entry := by
    cases ready with
    | true => exact h.grows hDecided.entry
    | false =>
        rw [Bool.eq_false_iff]
        intro hThere
        rcases h.built hThere with hOld | hBuildable
        · exact Bool.false_ne_true (hDecided.entry.symm.trans hOld)
        · exact hDecided.hopeless rfl hBuildable
  hopeless := fun hNot => h.buildable_iff.not.mpr (hDecided.hopeless hNot)

/-- Nothing happens to a specifier whose entry is there or not as it was. -/
theorem Onward.of_same (hStill : g.LiesStill before after specifier)
    (hKeeps : ∀ content, g.store.read? before specifier = some content →
      g.store.read? after specifier = some content)
    (hSame : g.store.contains after specifier = g.store.contains before specifier) :
    g.Onward before after specifier where
  toLiesStill := hStill
  keeps := hKeeps
  grows := fun hThere => hSame.trans hThere
  built := fun hThere => .inl (hSame.symm.trans hThere)

/-- The entry of a module that can be built comes. -/
theorem Onward.of_built (hStill : g.LiesStill before after specifier)
    (hAbsent : g.store.contains before specifier = false) (hBuildable : g.Buildable before specifier) :
    g.Onward before after specifier where
  toLiesStill := hStill
  keeps := fun content hRead => by
    cases hAbsent.symm.trans (Store.contains_of_read? hRead)
  grows := fun hThere => by cases hAbsent.symm.trans hThere
  built := fun _ => .inr hBuildable

/-! ### The job of a specifier -/

/-- What a job for the module of a specifier knows. There is no other job for it, so once it has found no
entry there is none until it writes one. -/
def Producing (g : Gateway) (fs : FileSystem) (specifier : String) (m : Package.Located) :
    Stage → Prop
  | .checking => True
  | .reading => g.store.contains fs specifier = false
  | .compiling source =>
    g.store.contains fs specifier = false ∧ fs.readText m.file = .ok source
  | .persisting _ => g.store.contains fs specifier = false ∧ g.Buildable fs specifier
  | .ended outcome => g.Decided fs specifier outcome.isSuccess

/-- A job that waits while others work knows as much, as long as no entry comes or goes. -/
theorem Onward.producing (h : g.Onward before after specifier)
    (hPlace : g.sources.locate? before specifier = some m)
    (hSame : g.store.contains after specifier = g.store.contains before specifier)
    (hStage : g.Producing before specifier m stage) : g.Producing after specifier m stage := by
  cases stage with
  | checking => trivial
  | reading => exact hSame.trans hStage
  | compiling source => exact ⟨hSame.trans hStage.1, (h.text m hPlace).trans hStage.2⟩
  | persisting content => exact ⟨hSame.trans hStage.1, h.buildable_iff.mpr hStage.2⟩
  | ended outcome => exact h.decided hStage

/-- A module whose text is compiled and linked can be built. -/
theorem buildable_of_linked {source output : String} {trusted : Trust.Registry}
    (hPlace : g.sources.locate? fs specifier = some m) (hRead : fs.readText m.file = .ok source)
    (hLinked : ((g.compileAndLink fs (.vendor specifier m) source).run trusted).1 = .ok output) :
    g.Buildable fs specifier := by
  refine ⟨m, hPlace, fun message hFails => ?_⟩
  rcases hFails with hReading | ⟨other, hOther, hCompiling⟩
  · obtain ⟨e, hError, -⟩ := fails_reading_iff.mp hReading
    cases hRead.symm.trans hError
  · obtain rfl : source = other := Except.ok.inj (hRead.symm.trans hOther)
    cases hLinked.symm.trans (compileAndLink_error_iff.mpr hCompiling)

/-- Where a build fails there is nothing that can be built. -/
theorem not_buildable_of_failsOn (hPlace : g.sources.locate? fs specifier = some m)
    (hFails : g.FailsOn fs (.vendor specifier m) message) : ¬ g.Buildable fs specifier := by
  rintro ⟨other, hOther, hBuilds⟩
  obtain rfl : m = other := Option.some.inj (hPlace.symm.trans hOther)
  exact hBuilds message hFails

/-- Where the output cannot be linked nothing can be built; where it was linked, it is persisted. -/
theorem producing_afterLinking {source : String} {trusted : Trust.Registry}
    {linked : Except String String} (hPlace : g.sources.locate? fs specifier = some m)
    (hAbsent : g.store.contains fs specifier = false) (hRead : fs.readText m.file = .ok source)
    (hLinked : ((g.compileAndLink fs (.vendor specifier m) source).run trusted).1 = linked) :
    g.Producing fs specifier m (afterLinking (.vendor specifier m) linked) := by
  cases linked with
  | ok output => exact ⟨hAbsent, buildable_of_linked hPlace hRead hLinked⟩
  | error message =>
      have hFails := compileAndLink_error_iff.mp hLinked
      exact ⟨hAbsent, fun _ => not_buildable_of_failsOn hPlace (.inr ⟨source, hRead, hFails⟩)⟩

/-- A job of a specifier goes on and knows where it stands. -/
theorem producing_advance (hLegible : g.store.Legible w.fs)
    (hPlace : g.sources.locate? w.fs specifier = some m)
    (hWrites : ∀ content, stage = .persisting content →
      ∃ written, g.store.write w.fs specifier content = .ok written)
    (hGoing : ∀ outcome, stage ≠ .ended outcome)
    (h : g.Producing w.fs specifier m stage) :
    g.Producing (g.advance (.vendor specifier m) w stage).2.fs specifier m
      (g.advance (.vendor specifier m) w stage).1 := by
  have hAdvance := g.advance_spec (.vendor specifier m) w stage
  generalize (g.advance (.vendor specifier m) w stage).1 = next,
    (g.advance (.vendor specifier m) w stage).2 = after at hAdvance ⊢
  cases hAdvance with
  | stored hStored => exact ⟨Store.contains_of_read? hStored, fun hNot => by cases hNot⟩
  | missing hMissing =>
      show g.store.contains w.fs specifier = false
      rw [Bool.eq_false_iff]
      intro hThere
      obtain ⟨content, hRead⟩ := hLegible.read? hThere
      cases hMissing.symm.trans hRead
  | read hRead => exact ⟨h, hRead⟩
  | unreadable hRead =>
      exact ⟨h, fun _ => not_buildable_of_failsOn hPlace (.inl (.unreadable hRead))⟩
  | compiled hRun => exact producing_afterLinking hPlace h.1 h.2 (congrArg Prod.fst hRun)
  | @persisted content =>
      obtain ⟨written, hWrite⟩ := hWrites content rfl
      have hWritten := Store.written_of_write hLegible.plain hWrite
      refine ⟨?_, fun hNot => by cases hNot⟩
      simp only [persist, hWrite]
      exact Store.contains_of_read? hWritten.read?
  | @ended outcome => exact absurd rfl (hGoing outcome)

end Gateway

namespace Service

variable {settings : Settings} {g : Gateway} {specifier name : String} {moves : List Move}
  {move : Move} {s after : Service} {m : Package.Located} {p : Pursuit}

/-! ### Steady steps -/

/-- A step of a gateway that is not started again, where writes into the store succeed, nobody else is at
the store, and the packages of what is prewarmed stay as they are. -/
structure Steady (settings : Settings) (s : Service) (move : Move) (after : Service) : Prop extends
    Orderly settings s move after where
  lasts : move ≠ .restart
  still : ∀ specifier ∈ s.gateway.warmable,
    s.gateway.LiesStill s.world.fs after.world.fs specifier

/-- A step that leaves all files as they are is steady. -/
theorem Steady.of_still (hStep : Orderly settings s move after) (hStill : move.isStill = true) :
    Steady settings s move after where
  toOrderly := hStep
  lasts := fun hMove => by
    rw [hMove] at hStill
    cases hStill
  still := fun specifier _ => by
    rw [hStep.step.fs_eq hStill]
    exact ⟨rfl, fun m _ => rfl⟩

theorem Steady.of_calm (hCalm : move.isCalm = true) (hStep : Step settings s move after) :
    Steady settings s move after := by
  refine .of_still (.of_calm hCalm hStep) ?_
  cases move with
  | work => cases hCalm
  | change => cases hCalm
  | restart => cases hCalm
  | _ => rfl

/-- Whether a schedule, as far as it is possible, never starts the gateway again and leaves the packages of
what is prewarmed as they are. -/
def keepsStill (settings : Settings) : List Choice → Service → Bool
  | [], _ => true
  | choice :: later, s =>
    match s.perform? settings choice with
    | some (move, after) =>
      (move.isStill || decide (move ≠ .restart ∧ ∀ specifier ∈ s.gateway.warmable,
        s.gateway.LiesStill s.world.fs after.world.fs specifier)) && keepsStill settings later after
    | none => true

/-- Such a schedule makes a steady run. -/
theorem run_performs_steady {start : Service} (choices : List Choice)
    (hStill : keepsStill settings choices s = true) (hRun : Run (Steady settings) start moves s) :
    Run (Steady settings) start (performs settings choices moves s).1
      (performs settings choices moves s).2 := by
  induction choices generalizing moves s with
  | nil => exact hRun
  | cons choice later ih =>
      rw [keepsStill] at hStill
      rw [performs]
      split
      · rename_i move after hPerformed
        have hOrderly := perform?_sound hPerformed
        simp only [hPerformed, Bool.and_eq_true, Bool.or_eq_true, decide_eq_true_eq] at hStill
        obtain ⟨hAlone | ⟨hLasts, hPackages⟩, hLater⟩ := hStill
        · exact ih hLater (hRun.step (.of_still hOrderly hAlone))
        · exact ih hLater (hRun.step ⟨hOrderly, hLasts, hPackages⟩)
      · exact hRun

/-- The store changes only when a job writes. -/
theorem Orderly.stored (hStep : Orderly settings s move after) (hMove : move ≠ .restart)
    (hPlain : s.gateway.store.Plain (s.gateway.store.shelf s.world.fs)) :
    s.gateway.store.Untouched s.world.fs after.world.fs ∨
      ∃ job ∈ s.jobs, ∃ specifier m content, move = workMove s job ∧
        job.building = .vendor specifier m ∧ job.stage = .persisting content ∧
          s.gateway.store.Written s.world.fs after.world.fs specifier content := by
  obtain ⟨⟨hTaken, hChange⟩, hWrites, -⟩ := hStep
  cases hTaken with
  | @work job hJob hGoing =>
      by_cases hPersists : ∃ content, job.stage = .persisting content
      · obtain ⟨content, hStage⟩ := hPersists
        cases hBuilding : job.building with
        | source file validator kind =>
            have hSame : (s.next job).2.fs = s.world.fs := by
              simp only [next, hStage, hBuilding, Gateway.advance, Gateway.persist]
            refine .inl ?_
            show s.gateway.store.Untouched s.world.fs (s.next job).2.fs
            rw [hSame]
            exact .refl _ _
        | vendor specifier m =>
            obtain ⟨written, hWrite⟩ := hWrites specifier m content _ _ (by rw [hBuilding, hStage])
            have hSame : (s.next job).2.fs = written := by
              simp only [next, hStage, hBuilding, Gateway.advance, Gateway.persist, hWrite]
            refine .inr ⟨job, hJob, specifier, m, content, by rw [workMove, hBuilding], hBuilding, hStage, ?_⟩
            show s.gateway.store.Written s.world.fs (s.next job).2.fs specifier content
            rw [hSame]
            exact Store.written_of_write hPlain hWrite
      · refine .inl ?_
        show s.gateway.store.Untouched s.world.fs (s.next job).2.fs
        rw [next_fs fun content hStage => hPersists ⟨content, hStage⟩]
        exact .refl _ _
  | change => exact .inl (hChange rfl)
  | restart => exact absurd rfl hMove
  | _ => exact .inl (.refl _ _)

/-- All that a service knows of the builds of one specifier. -/
structure Sound (g : Gateway) (specifier : String) (s : Service) : Prop where
  gateway : s.gateway = g
  legible : g.store.Legible s.world.fs
  jobs : ∀ job ∈ s.jobs, ∀ m, job.building = .vendor specifier m →
    g.sources.locate? s.world.fs specifier = some m ∧
      g.Producing s.world.fs specifier m job.stage
  clients : ∀ c ∈ s.clients, ∀ m, c.2.building? = some (.vendor specifier m) →
    g.sources.locate? s.world.fs specifier = some m
  results : ResultsRight (fun b outcome => ∀ m, b = .vendor specifier m →
    g.Decided s.world.fs specifier outcome.isSuccess) s

theorem sound_fresh {fs : FileSystem} (hLegible : g.store.Legible fs) :
    Sound g specifier (fresh g fs) where
  gateway := rfl
  legible := hLegible
  jobs := fun job hJob => by cases hJob
  clients := fun c hClient => by cases hClient
  results := fun waiter hWaiter => by cases hWaiter

/-! ### What a steady step does to entries -/

theorem Steady.legible (hStep : Steady settings s move after) (h : Sound g specifier s) :
    g.store.Legible after.world.fs := by
  obtain rfl := h.gateway
  rcases hStep.stored hStep.lasts h.legible.plain with hSame | ⟨_, -, _, _, _, -, -, -, hWritten⟩
  · exact hSame.legible h.legible
  · exact hWritten.legible h.legible

/-- Only a job of the specifier brings its entry. -/
theorem Steady.contains_eq (hStep : Steady settings s move after) (h : Sound g specifier s)
    (hOther : ∀ job m, move = workMove s job → job.building ≠ .vendor specifier m) :
    g.store.contains after.world.fs specifier = g.store.contains s.world.fs specifier := by
  refine h.legible.contains_congr (hStep.legible h) ?_
  obtain rfl := h.gateway
  rcases hStep.stored hStep.lasts h.legible.plain with
    hSame | ⟨job, -, other, m, content, hMove, hBuilding, -, hWritten⟩
  · rw [hSame.shelf]
  · have hApart : specifier ≠ other := fun hSame => hOther job m hMove (hSame ▸ hBuilding)
    rw [hWritten.lookup_other hApart]

/-- Whatever a step does, it goes onward for every entry of the settings. -/
theorem Steady.onward (hStep : Steady settings s move after) (h : Sound g specifier s)
    (hWarmable : specifier ∈ g.warmable) :
    g.Onward s.world.fs after.world.fs specifier := by
  have hLater := hStep.legible h
  have hStill : g.LiesStill s.world.fs after.world.fs specifier := by
    obtain rfl := h.gateway
    exact hStep.still specifier hWarmable
  have hPlain := h.legible.plain
  rw [← h.gateway] at hPlain
  rcases hStep.stored hStep.lasts hPlain with
    hSame | ⟨job, hJob, other, m, content, -, hBuilding, hStage, hWritten⟩
  · rw [h.gateway] at hSame
    exact .of_same hStill (fun content hRead => (hSame.entries specifier).trans hRead)
      (h.legible.contains_congr hLater (by rw [hSame.shelf]))
  · rw [h.gateway] at hWritten
    by_cases hOwn : other = specifier
    · obtain ⟨-, hAbsent, hBuildable⟩ : _ ∧ g.Producing _ _ _ (.persisting content) :=
        hStage ▸ h.jobs job hJob m (hOwn ▸ hBuilding)
      exact .of_built hStill hAbsent hBuildable
    · exact .of_same hStill (fun kept => hWritten.read?_other h.legible.plain (Ne.symm hOwn))
        (h.legible.contains_congr hLater (hWritten.lookup_other (Ne.symm hOwn)))

/-! ### Every steady step keeps what is known -/

/-- A client comes to a build of a module where the module lies. -/
theorem located_of_look (g : Gateway) (w : World)
    (h : (p.look g w).building? = some (.vendor specifier m)) :
    p.building? = some (.vendor specifier m) ∨ g.sources.locate? w.fs specifier = some m := by
  cases p with
  | asking r progress =>
      change (Pursuit.asking r (g.look r w progress)).building? = _ at h
      have hLook := g.look_spec r w progress
      generalize g.look r w progress = next at hLook h
      cases hLook with
      | located hLocated =>
          cases h
          exact .inr hLocated
      | building => exact .inl h
      | recalled | missing | trusted | untrusted | unlocated | resolved | unresolved | gone | fresh
      | stale | answered => cases h
  | warming t =>
      change (Pursuit.warming (g.glance w t)).building? = _ at h
      have hGlance := g.glance_spec w t
      generalize g.glance w t = next at hGlance h
      cases hGlance with
      | located hLocated =>
          cases h
          exact .inr hLocated
      | building => exact .inl h
      | ready | wanted | unlocated | ended => cases h

theorem building?_begin (g : Gateway) (errand : Errand) : (errand.begin g).building? = none := by
  cases errand with
  | prewarm specifier => rfl
  | request r =>
      show (Pursuit.asking r (g.start r)).building? = none
      have hStart := g.start_spec r
      generalize g.start r = progress at hStart ⊢
      cases hStart <;> rfl

theorem Sound.job_after (hStep : Steady settings s move after) (hBooked : Booked s)
    (hWarmable : specifier ∈ g.warmable) (h : Sound g specifier s) {job : Job}
    (hJob : job ∈ after.jobs) (hVendor : job.building = .vendor specifier m) :
    g.sources.locate? after.world.fs specifier = some m ∧
      g.Producing after.world.fs specifier m job.stage := by
  have hOnward := hStep.onward h hWarmable
  rcases hStep.step.job_of_mem hBooked hJob with
    ⟨hOld, hOther⟩ | ⟨c, hClient, hBuilding, hFirst⟩ | ⟨old, hOld, hGoing, hMove, rfl, rfl⟩
  · obtain ⟨hPlace, hProducing⟩ := h.jobs job hOld m hVendor
    have hSame := hStep.contains_eq h fun other module hMove hOwn =>
      hOther other hMove (by rw [hVendor, hOwn]; rfl)
    exact ⟨hOnward.place.trans hPlace, hOnward.producing hPlace hSame hProducing⟩
  · rw [hVendor] at hBuilding hFirst
    rw [hFirst]
    exact ⟨hOnward.place.trans (h.clients c hClient m hBuilding), trivial⟩
  · obtain ⟨hPlace, hProducing⟩ := h.jobs old hOld m hVendor
    refine ⟨hOnward.place.trans hPlace, ?_⟩
    have hWrites : ∀ content, old.stage = .persisting content →
        ∃ written, g.store.write s.world.fs specifier content = .ok written := by
      intro content hStage
      rw [← h.gateway]
      exact hStep.writes specifier m content _ _ (by rw [hMove, workMove, hVendor, hStage])
    have hNext := Gateway.producing_advance h.legible hPlace hWrites hGoing hProducing
    rw [← h.gateway, ← hVendor] at hNext
    rw [← h.gateway]
    exact hNext

theorem Sound.client_after (hStep : Steady settings s move after)
    (hWarmable : specifier ∈ g.warmable) (h : Sound g specifier s) {c : String × Pursuit}
    (hClient : c ∈ after.clients) (hBuilding : c.2.building? = some (.vendor specifier m)) :
    g.sources.locate? after.world.fs specifier = some m := by
  rw [(hStep.onward h hWarmable).place]
  rcases hStep.step.client_of_mem hClient with hOld | ⟨_, errand, -, -, rfl⟩ | ⟨_, p, -, hThere, rfl⟩
  · exact h.clients c hOld m hBuilding
  · cases (building?_begin s.gateway errand).symm.trans hBuilding
  · rcases located_of_look s.gateway s.world hBuilding with hBefore | hPlace
    · exact h.clients _ hThere m hBefore
    · rw [h.gateway] at hPlace
      exact hPlace

theorem Steady.sound (hStep : Steady settings s move after) (hBooked : Booked s)
    (hWarmable : specifier ∈ g.warmable) (h : Sound g specifier s) :
    Sound g specifier after where
  gateway := (hStep.step.gateway_eq hStep.lasts).trans h.gateway
  legible := hStep.legible h
  jobs := fun _ hJob _ hVendor => h.job_after hStep hBooked hWarmable hJob hVendor
  clients := fun _ hClient _ hBuilding => h.client_after hStep hWarmable hClient hBuilding
  results := by
    have hRight : ∀ job ∈ s.jobs, ∀ outcome (b : Building), job.stage = .ended outcome →
        b.key = job.building.key → ∀ m, b = .vendor specifier m →
          g.Decided s.world.fs specifier outcome.isSuccess := by
      rintro job hJob outcome b hEnded hKey m rfl
      obtain ⟨module, hVendor⟩ := building_of_key hKey.symm
      have hProducing := (h.jobs job hJob module hVendor).2
      rw [hEnded] at hProducing
      exact hProducing
    exact (hStep.step.resultsRight hBooked hRight h.results).mono
      fun b outcome hBefore m hVendor => (hStep.onward h hWarmable).decided (hBefore m hVendor)

/-- The books of a steady run are in order, and what a run knows of an entry of the settings is true. -/
theorem Run.sound {fs : FileSystem} (hRun : Run (Steady settings) (fresh g fs) moves s)
    (hLegible : g.store.Legible fs) (hWarmable : specifier ∈ g.warmable) :
    Booked s ∧ Sound g specifier s :=
  hRun.invariant (I := fun _ s => Booked s ∧ Sound g specifier s)
    ⟨booked_fresh g fs, sound_fresh hLegible⟩
    fun ⟨hBooked, hSound⟩ hStep =>
      ⟨hStep.step.booked hBooked, hStep.sound hBooked hWarmable hSound⟩

end Service

end ModuleGateway
