import ModuleGateway.Proofs.Gateway.Transparency
import ModuleGateway.Proofs.Gateway.Trusting

/-!
Builds that fail. A step of a job fails in one of four ways, and in none of them is anything kept of the
build: clients receive what shows the failure and are told to ask again, no file has changed, the key is
free, and whoever asks again starts another job. Only what is trusted may have grown, by the packages of
the imports that the scan of the output came to.
-/

namespace ModuleGateway

open Build Specifier

/-- Nothing has changed in a world but what is trusted, by the packages of some specifiers. What was given
to the compiler is told apart from this. -/
structure World.OnlyTrusts (specifiers : List String) (w after : World) : Prop where
  fs : after.fs = w.fs
  warming : after.warming = w.warming
  coordinator : after.coordinator = w.coordinator
  trusted : ∀ name, after.trusted.contains name = true ↔
    w.trusted.contains name = true ∨ (name ≠ "" ∧ ∃ s ∈ specifiers, packageName s = name)

theorem World.OnlyTrusts.refl (w : World) : w.OnlyTrusts [] w where
  fs := rfl
  warming := rfl
  coordinator := rfl
  trusted := by simp

namespace Gateway

variable {g : Gateway} {fs : FileSystem} {w later : World} {b : Building} {r : Request}
  {source message : String} {stage : Stage} {trusted : Trust.Registry}

/-! ### Ways to fail -/

/-- How a step of a job fails, with the message that is shown. -/
inductive Fails (g : Gateway) (fs : FileSystem) (b : Building) : Stage → String → Prop where
  /-- The file cannot be read, or what it holds is no text. -/
  | unreadable {e : FileError} (hRead : fs.readText b.file = .error e) :
      Fails g fs b .reading (b.unreadable e)
  | refused {source message : String}
      (hCompiled : g.compiler ⟨b.file, source, b.kind⟩ = .failed message) :
      Fails g fs b (.compiling source) message
  | panicked {source message : String}
      (hCompiled : g.compiler ⟨b.file, source, b.kind⟩ = .panicked message) :
      Fails g fs b (.compiling source)
        ("compiler task failed: task N panicked with message " ++ Text.quoted message)
  /-- The output ends within a construct, after any number of imports. -/
  | unterminated {source output : String} {importer : Relink.Importer} {e : Relink.Unterminated}
      (hCompiled : g.compiler ⟨b.file, source, b.kind⟩ = .done output)
      (hImporter : b.importer? = some importer) (hScan : Relink.failure? output = some e) :
      Fails g fs b (.compiling source) e.message

/-- A build fails when it comes to a step that does. -/
def FailsOn (g : Gateway) (fs : FileSystem) (b : Building) (message : String) : Prop :=
  g.Fails fs b .reading message ∨
    ∃ source, fs.readText b.file = .ok source ∧ g.Fails fs b (.compiling source) message

theorem fails_reading_iff :
    g.Fails fs b .reading message ↔ ∃ e, fs.readText b.file = .error e ∧ b.unreadable e = message := by
  constructor
  · intro h
    cases h with
    | unreadable hRead => exact ⟨_, hRead, rfl⟩
  · rintro ⟨e, hRead, rfl⟩
    exact .unreadable hRead

theorem linkResult_eq_error {linked : Except Relink.Unterminated String} :
    linkResult linked = .error message ↔ ∃ e, linked = .error e ∧ e.message = message := by
  cases linked <;> simp [linkResult]

theorem compileAndLink_error_iff :
    ((g.compileAndLink fs b source).run trusted).1 = .error message ↔
      g.Fails fs b (.compiling source) message := by
  constructor
  · intro h
    cases hCompiled : g.compiler ⟨b.file, source, b.kind⟩ with
    | failed reason =>
        rw [compileAndLink, hCompiled] at h
        cases h
        exact .refused hCompiled
    | panicked reason =>
        rw [compileAndLink, hCompiled] at h
        cases h
        exact .panicked hCompiled
    | done output =>
        cases hImporter : b.importer? with
        | none =>
            rw [compileAndLink, hCompiled, hImporter] at h
            cases h
        | some importer =>
            rw [compileAndLink_of_done hCompiled hImporter] at h
            obtain ⟨e, hLinked, rfl⟩ := linkResult_eq_error.mp h
            exact .unterminated hCompiled hImporter (Relink.link_error_iff.mp hLinked)
  · intro h
    cases h with
    | refused hCompiled =>
        rw [compileAndLink, hCompiled]
        rfl
    | panicked hCompiled =>
        rw [compileAndLink, hCompiled]
        rfl
    | unterminated hCompiled hImporter hScan =>
        rw [compileAndLink_of_done hCompiled hImporter]
        exact linkResult_eq_error.mpr ⟨_, Relink.link_error_iff.mpr hScan, rfl⟩

theorem afterLinking_eq_failure {linked : Except String String} :
    afterLinking b linked = .ended (.failure message) ↔ linked = .error message := by
  cases linked with
  | error reason => simp [afterLinking]
  | ok output => cases b <;> simp [afterLinking]

/-- A job that goes on fails in these ways and in no others. -/
theorem advance_failure_iff (hGoing : ∀ outcome, stage ≠ .ended outcome) :
    (g.advance b w stage).1 = .ended (.failure message) ↔ g.Fails w.fs b stage message := by
  have hAdvance := g.advance_spec b w stage
  generalize (g.advance b w stage).1 = next, (g.advance b w stage).2 = after at hAdvance ⊢
  cases hAdvance with
  | stored | missing | persisted => exact ⟨fun h => (by cases h), fun h => by cases h⟩
  | read hRead => simp [fails_reading_iff, hRead]
  | unreadable hRead => simp [fails_reading_iff, hRead]
  | compiled hRun =>
      obtain rfl := congrArg Prod.fst hRun
      exact afterLinking_eq_failure.trans compileAndLink_error_iff
  | @ended outcome => exact absurd rfl (hGoing outcome)

/-- A build that finds nothing in the store fails in these ways and in no others. -/
theorem make_failure_iff :
    (g.make fs trusted b).1 = .failure message ↔ g.FailsOn fs b message := by
  have hFinished (linked : Except String String) :
      finished b linked = .failure message ↔ linked = .error message := by
    cases linked <;> simp [finished]
  rw [FailsOn, fails_reading_iff]
  cases hRead : fs.readText b.file with
  | error e => simp [make, hRead]
  | ok source => simp [make, hRead, hFinished, compileAndLink_error_iff]

/-! ### What a step leaves -/

/-- A step that does not end its job with success changes nothing but what is trusted. -/
theorem onlyTrusts_advance
    (hNext : ∀ content type, (g.advance b w stage).1 ≠ .ended (.success content type)) :
    w.OnlyTrusts (g.resolves w.fs b stage) (g.advance b w stage).2 := by
  have hAdvance := g.advance_spec b w stage
  generalize (g.advance b w stage).1 = next, (g.advance b w stage).2 = after at hNext hAdvance ⊢
  cases hAdvance with
  | stored | missing | read | unreadable | ended => exact .refl w
  | @compiled source linked trusted hRun =>
      refine ⟨rfl, rfl, rfl, fun name => ?_⟩
      have hContains := Service.contains_compileAndLink g w.fs b source name w.trusted
      rwa [hRun] at hContains
  | @persisted content => exact absurd rfl (hNext content b.kind.contentType)

/-! ### What clients are told -/

/-- The name of what a failed build was for, as its clients are shown it. -/
def shownName (g : Gateway) : Building → String
  | .vendor specifier _ => specifier
  | .source file _ _ => g.shownPath file

/-- The response that shows a failure. It is to be asked for again every time, and it has no tag by which
it could be confirmed. -/
def failureResponse (g : Gateway) (method : Method) (b : Building) (message : String) : Response where
  status := 200
  contentType := some b.kind.contentType
  cacheControl := noCache
  etag := none
  body :=
    if method = .head then ByteArray.empty
    else (Diagnostic.render b.kind (g.shownName b) message).toUTF8

theorem replyOf_failure (method : Method) (b : Building) (message : String) :
    (g.replyOf b (.failure message)).fit method = .respond (g.failureResponse method b message) := by
  cases b <;> cases method <;> rfl

/-! ### Asking again -/

/-- A look sees as much where more is trusted, unless it ends in an answer. -/
theorem look_grown (hFiles : later.fs = w.fs)
    (hGrown : ∀ name, w.trusted.contains name = true → later.trusted.contains name = true)
    (p : Progress) : g.look r later p = g.look r w p ∨ ∃ reply, g.look r w p = .answered reply := by
  cases p with
  | trusting specifier =>
      cases hTrusted : w.trusted.trusts specifier with
      | false => exact .inr ⟨g.missed specifier, by simp [look, hTrusted]⟩
      | true =>
          have hLater : later.trusted.trusts specifier = true := hGrown _ hTrusted
          exact .inl (by simp [look, hTrusted, hLater])
  | recalling specifier => exact .inl (by simp only [look, hFiles])
  | locating specifier => exact .inl (by simp only [look, hFiles])
  | resolving path kind => exact .inl (by simp only [look, hFiles])
  | validating file kind => exact .inl (by simp only [look, hFiles])
  | building b => exact .inl rfl
  | answered reply => exact .inl rfl

theorem looks_answered (n : Nat) (reply : Reply) :
    g.looks r w n (.answered reply) = .answered reply := by
  induction n with
  | zero => rfl
  | succ n ih => exact ih

/-- A request that came to a build comes to it again, on the same files and where no less is trusted. -/
theorem looks_grown (hFiles : later.fs = w.fs)
    (hGrown : ∀ name, w.trusted.contains name = true → later.trusted.contains name = true)
    {n : Nat} {p : Progress} (hBuilding : g.looks r w n p = .building b) :
    g.looks r later n p = .building b := by
  induction n generalizing p with
  | zero => exact hBuilding
  | succ n ih =>
      rw [looks] at hBuilding ⊢
      rcases look_grown (g := g) (r := r) hFiles hGrown p with hSame | ⟨reply, hAnswered⟩
      · rw [hSame]
        exact ih hBuilding
      · rw [hAnswered, looks_answered] at hBuilding
        cases hBuilding

/-- A request comes to a build only when there is nothing for it in the store. -/
theorem stored?_of_looks (hBuilding : g.looks r w longestLook (g.start r) = .building b) :
    g.stored? w.fs b = none := by
  rcases g.start_cases r with ⟨reply, hStart⟩ | ⟨specifier, hStart⟩ | ⟨path, -, hStart⟩
  · rw [hStart, looks_answered] at hBuilding
    cases hBuilding
  · rw [hStart, looks_longestLook] at hBuilding
    cases hStored : g.store.read? w.fs specifier with
    | some content => simp [look, hStored] at hBuilding
    | none =>
        have hMissing : g.looks r w longestLook (g.start r) = g.aim r w := by
          refine looks_of_missing fun other hOther => ?_
          rw [hStart] at hOther
          cases hOther
          exact hStored
        rw [← looks_longestLook, ← hStart, hMissing, aim_of_recalling hStart] at hBuilding
        split at hBuilding
        · split at hBuilding
          · cases hBuilding
            exact hStored
          · cases hBuilding
        · cases hBuilding
  · have hMissing : g.looks r w longestLook (g.start r) = g.aim r w := by
      refine looks_of_missing fun other hOther => ?_
      rw [hStart] at hOther
      cases hOther
    rw [hMissing, aim_of_resolving hStart] at hBuilding
    split at hBuilding
    · cases hBuilding
    · split at hBuilding
      · cases hBuilding
      · split at hBuilding
        · cases hBuilding
        · cases hBuilding
          rfl

/-- A job that finds nothing in the store gives its file to the compiler, if it can be read. -/
theorem compiled_of_missing (hMissing : g.stored? w.fs b = none)
    (hRead : w.fs.readText b.file = .ok source) :
    (g.work w b).2.compiled = b.file :: w.compiled := by
  rcases hRun : (g.compileAndLink w.fs b source).run w.trusted with ⟨linked, trusted⟩
  cases linked <;> cases b <;>
    simp [work, longestJob, advances, Stage.first, advance, hMissing, hRead, hRun, afterLinking]

end Gateway

namespace Service

variable {settings : Settings} {moves later : List Move} {move : Move} {s t after : Service}
  {job failed : Job} {id : JobId} {outcome : Outcome} {message : String}

/-! ### Jobs that have ended -/

/-- The job of this number has been started, and has ended if it is still known. -/
def EndedWith (s : Service) (id : JobId) (outcome : Outcome) : Prop :=
  id < s.world.coordinator.started ∧ ∀ j ∈ s.jobs, j.id = id → j.stage = .ended outcome

/-- A job that has ended does not go on, and its number is not given again. -/
theorem Step.endedWith (hStep : Step settings s move after) (hMove : move ≠ .restart)
    (hBooked : Booked s) (h : s.EndedWith id outcome) : after.EndedWith id outcome := by
  cases hStep with
  | arrive => exact h
  | look => exact h
  | @join name p b hClient hBuilding hIdle =>
      cases hFound : s.world.coordinator.jobFor? b.key with
      | some running =>
          rw [join_of_taken hFound]
          exact h
      | none =>
          rw [join_of_free hFound]
          refine ⟨Nat.lt_succ_of_lt h.1, fun j hJob hId => ?_⟩
          rcases List.mem_append.mp hJob with hOld | hNew
          · exact h.2 j hOld hId
          · rw [List.mem_singleton.mp hNew] at hId
            exact absurd hId.symm (Nat.ne_of_lt h.1)
  | @work other hOther hGoing =>
      refine ⟨?_, fun j hJob hId => ?_⟩
      · show id < (s.next other).2.coordinator.started
        rw [next, advance_coordinator]
        exact h.1
      · rcases mem_advance hJob with ⟨hOld, -⟩ | ⟨old, hOld, hKey, rfl⟩
        · exact h.2 j hOld hId
        · obtain rfl := job_unique hBooked.keys hOld hOther hKey
          exact absurd (h.2 old hOld hId) (hGoing outcome)
  | publish hOther =>
      rw [Service.publish, finish_of_job hBooked hOther]
      exact ⟨h.1, fun j hJob => h.2 j (List.mem_filter.mp hJob).1⟩
  | answer => exact h
  | receive => exact h
  | leave => exact h
  | change => exact h
  | restart => exact absurd rfl hMove

/-- While the gateway is not started again, its books stay in order and what has ended stays ended. -/
theorem Run.endedWith (hRun : Run (Step settings) s later t) (hKept : .restart ∉ later)
    (hBooked : Booked s) (h : s.EndedWith id outcome) : Booked t ∧ t.EndedWith id outcome := by
  induction hRun with
  | refl => exact ⟨hBooked, h⟩
  | @step moves move u after run hStep ih =>
      obtain ⟨hBooks, hEnded⟩ := ih (List.not_mem_of_not_mem_cons hKept)
      have hMove : move ≠ .restart := (List.ne_of_not_mem_cons hKept).symm
      exact ⟨hStep.booked hBooks, hStep.endedWith hMove hBooks hEnded⟩

/-! ### Failed jobs -/

/-- A step of a job that is going to fail changes nothing but what is trusted. -/
theorem onlyTrusts_of_failed (hBooked : Booked s) (hJob : job ∈ s.jobs)
    (hLater : Run (Step settings) (s.advance job) later t) (hKept : .restart ∉ later)
    (hFailed : failed ∈ t.jobs) (hSame : failed.id = job.id)
    (hStage : failed.stage = .ended (.failure message)) :
    s.world.OnlyTrusts (s.gateway.resolves s.world.fs job.building job.stage)
        (s.advance job).world ∧
      ∀ outcome, (s.next job).1 = .ended outcome → outcome = .failure message := by
  -- What the step ends the job with is what the job has ended with later.
  have hEnds (outcome : Outcome) (hNext : (s.next job).1 = .ended outcome) :
      outcome = .failure message := by
    have hNow : (s.advance job).EndedWith job.id outcome := by
      refine ⟨?_, fun j hMoved hId => ?_⟩
      · show job.id < (s.next job).2.coordinator.started
        rw [next, advance_coordinator]
        exact hBooked.started job hJob
      · rcases mem_advance hMoved with ⟨hOld, hKey⟩ | ⟨old, hOld, hKey, rfl⟩
        · exact absurd (congrArg (·.building.key) (List.inj_on_of_nodup_map hBooked.ids hOld hJob hId))
            hKey
        · exact hNext
    obtain ⟨-, -, hEnded⟩ := hLater.endedWith hKept (hBooked.advance job) hNow
    exact Stage.ended.inj ((hEnded failed hFailed hSame).symm.trans hStage)
  refine ⟨Gateway.onlyTrusts_advance fun content type hNext => ?_, hEnds⟩
  cases hEnds _ hNext

/-- When a failed job is published its key is free, and nothing but the books has changed. -/
theorem freed_of_published (hBooked : Booked t) (hFailed : failed ∈ t.jobs) :
    (t.publish failed).world.coordinator.isBuilding failed.building.key = false ∧
      (t.publish failed).world =
        { t.world with coordinator := (t.publish failed).world.coordinator } := by
  refine ⟨(isBuilding_eq_false (hBooked.publish hFailed)).mpr fun j hJob => ?_, rfl⟩
  simpa using (List.mem_filter.mp hJob).2

/-- Whoever waits for a job that failed can fetch the failure, and a request is then answered with the
response that shows it. -/
theorem told_of_failed (hBooked : Booked t) (hFailed : failed ∈ t.jobs)
    (hStage : failed.stage = .ended (.failure message)) {waiter : Waiter}
    (hWaiter : waiter ∈ t.world.coordinator.waiting) (hJob : waiter.job = failed.id) :
    ⟨waiter.client, waiter.job, .failure message⟩ ∈ (t.publish failed).world.coordinator.due ∧
      ∃ p b, (waiter.client, p) ∈ t.clients ∧ p.building? = some b ∧
        b.key = failed.building.key ∧
        ∀ r progress, p = .asking r progress →
          p.receive? t.gateway (.failure message) =
            some (.replied r (.respond (t.gateway.failureResponse r.method b message))) := by
  constructor
  · rw [Service.publish, finish_of_job hBooked hFailed, hStage]
    refine List.mem_filterMap.mpr ⟨waiter, hWaiter, ?_⟩
    rw [hJob, List.lookup_cons_self]
    rfl
  · obtain ⟨p, b, hClient, hBuilding, hState⟩ := hBooked.waiters waiter hWaiter
    refine ⟨p, b, hClient, hBuilding, ?_, fun r progress hAsking => ?_⟩
    · rcases hState with ⟨j, hRuns, hId, hKey⟩ | hGone
      · obtain rfl := List.inj_on_of_nodup_map hBooked.ids hRuns hFailed (hId.trans hJob)
        exact hKey.symm
      · rw [hJob, lookup_ended_of_job hBooked hFailed] at hGone
        cases hGone
    · subst hAsking
      cases progress <;> cases hBuilding
      rw [Pursuit.receive?, Gateway.replyOf_failure]

/-- A request whose build failed is built again when it comes again: on the same files it leads to the same
build, for which another job is started. That job finds nothing in the store, gives the file to the
compiler if it can be read, and fails again. -/
theorem built_again {g : Gateway} {r : Request} {b : Building} {w again : World}
    (hBuilding : g.looks r w Gateway.longestLook (g.start r) = .building b)
    (hFails : g.FailsOn w.fs b message) (hFiles : again.fs = w.fs)
    (hGrown : ∀ package, w.trusted.contains package = true → again.trusted.contains package = true)
    (hFree : again.coordinator.isBuilding b.key = false) (name : String) :
    g.looks r again Gateway.longestLook (g.start r) = .building b ∧
      (again.join name b).coordinator.started = again.coordinator.started + 1 ∧
      (g.work (again.join name b) b).1 = .failure message ∧
      ∀ source, w.fs.readText b.file = .ok source →
        (g.work (again.join name b) b).2.compiled = b.file :: again.compiled := by
  have hMissing : g.stored? (again.join name b).fs b = none := by
    show g.stored? again.fs b = none
    rw [hFiles]
    exact Gateway.stored?_of_looks hBuilding
  refine ⟨Gateway.looks_grown hFiles hGrown hBuilding, ?_, ?_, fun source hRead => ?_⟩
  · have hNone : again.coordinator.jobFor? b.key = none := by
      simpa [Coordinator.isBuilding] using hFree
    rw [World.join, Coordinator.request_of_free hNone]
  · refine (Gateway.work_of_missing hMissing).1.trans (Gateway.make_failure_iff.mpr ?_)
    show g.FailsOn again.fs b message
    rw [hFiles]
    exact hFails
  · have hAgain : again.fs.readText b.file = .ok source := by rw [hFiles, hRead]
    exact Gateway.compiled_of_missing hMissing hAgain

/-- A failed build leaves no trace. In any run, with any number of other requests and jobs going on, let a
job make a step, and let it have failed in a later state.
The job fails exactly when its file cannot be read or is no text, the compiler refuses the file or breaks
down, or the output ends within a construct. The step has changed nothing, neither the store nor any other
file, but what is trusted, and that by the installed packages of the imports that were seen before. When
the failure is published the key is free. All who wait for the job are told of the failure; a request is
answered with a response that shows it, that is not kept and has no tag. The same request on the same files
leads to the same build again, whose job is a new one and does everything again. -/
theorem failed_build_leaves_no_trace {g : Gateway} {fs : FileSystem}
    (hRun : Run (Step settings) (fresh g fs) moves s) (hJob : job ∈ s.jobs)
    (hGoing : ∀ outcome, job.stage ≠ .ended outcome)
    (hLater : Run (Step settings) (s.advance job) later t) (hKept : .restart ∉ later)
    (hFailed : failed ∈ t.jobs) (hSame : failed.id = job.id)
    (hStage : failed.stage = .ended (.failure message)) :
    (∀ reason, (s.next job).1 = .ended (.failure reason) ↔
      s.gateway.Fails s.world.fs job.building job.stage reason) ∧
    (s.world.OnlyTrusts (s.gateway.resolves s.world.fs job.building job.stage)
        (s.advance job).world ∧
      ∀ outcome, (s.next job).1 = .ended outcome → outcome = .failure message) ∧
    ((t.publish failed).world.coordinator.isBuilding failed.building.key = false ∧
      (t.publish failed).world =
        { t.world with coordinator := (t.publish failed).world.coordinator }) ∧
    (∀ waiter ∈ t.world.coordinator.waiting, waiter.job = failed.id →
      ⟨waiter.client, waiter.job, .failure message⟩ ∈
          (t.publish failed).world.coordinator.due ∧
        ∃ p b, (waiter.client, p) ∈ t.clients ∧ p.building? = some b ∧
          b.key = failed.building.key ∧
          ∀ r progress, p = .asking r progress →
            p.receive? t.gateway (.failure message) =
              some (.replied r (.respond (t.gateway.failureResponse r.method b message)))) ∧
    ∀ r b (w again : World) reason, t.gateway.looks r w Gateway.longestLook (t.gateway.start r) =
        .building b → t.gateway.FailsOn w.fs b reason → again.fs = w.fs →
      (∀ package, w.trusted.contains package = true → again.trusted.contains package = true) →
      again.coordinator.isBuilding b.key = false → ∀ name,
        t.gateway.looks r again Gateway.longestLook (t.gateway.start r) = .building b ∧
          (again.join name b).coordinator.started = again.coordinator.started + 1 ∧
          (t.gateway.work (again.join name b) b).1 = .failure reason ∧
          ∀ source, w.fs.readText b.file = .ok source →
            (t.gateway.work (again.join name b) b).2.compiled = b.file :: again.compiled := by
  have hBooked : Booked s := hRun.invariant (booked_fresh g fs) fun h hStep => hStep.booked h
  have hBooks : Booked t :=
    hLater.invariant (hBooked.advance job) fun h hStep => hStep.booked h
  exact ⟨fun reason => Gateway.advance_failure_iff hGoing,
    onlyTrusts_of_failed hBooked hJob hLater hKept hFailed hSame hStage,
    freed_of_published hBooks hFailed,
    fun waiter hWaiter hWaits => told_of_failed hBooks hFailed hStage hWaiter hWaits,
    fun r b w again reason hBuilding hFails hFiles hGrown hFree name =>
      built_again hBuilding hFails hFiles hGrown hFree name⟩

/-- A project with a package whose module imports another one and then ends within a string. -/
def openFiles : FileSystem where
  root := .directory
    [("src", .directory []),
      ("node_modules", .directory
        [("a", .directory [("index.js", .file ⟨"import \"b\"; 'open".toUTF8, 0⟩)]),
          ("b", .directory [("index.js", .file ⟨"export default 1;\n".toUTF8, 0⟩)])])]

/-- The gateway of that project with a compiler that changes nothing. The first package is prewarmed. -/
def openGateway : Gateway where
  settings := { prewarm := ["a"] }
  root := ["src"]
  store := { directory := ⟨".kiln/cache"⟩ }
  compiler := fun unit => .done unit.source

def openModule : Package.Located :=
  ⟨"a", ⟨"/node_modules/a"⟩, ⟨"/node_modules/a/index.js"⟩⟩

def openRequest : Request where
  target := "/modules/vendor/a"

/-- A client waits for the module, whose file has been read. -/
def openRun : List Move × Service :=
  performs openGateway.settings [.arrive "reader" (.request openRequest), .look "reader", .look "reader",
    .look "reader", .join "reader", .work 0, .work 0] [] (fresh openGateway openFiles)

def openJob : Job :=
  ⟨0, .vendor "a" openModule, .compiling "import \"b\"; 'open"⟩

def openMessage : String :=
  "unterminated string literal starting at byte 12"

theorem failed_build_leaves_no_trace_open :
    let t := openRun.2.advance openJob
    let failed : Job := { openJob with stage := .ended (.failure openMessage) }
    let freed := (t.publish failed).world
    openJob ∈ openRun.2.jobs ∧ failed ∈ t.jobs ∧ t.world.fs = openRun.2.world.fs ∧
      t.world.trusted.contains "b" = true ∧ freed.coordinator.isBuilding "vendor:a" = false ∧
      (t.gateway.work (freed.join "again" openJob.building) openJob.building).1 =
        .failure openMessage := by
  intro t failed freed
  have hRun : Run (Step openGateway.settings) (fresh openGateway openFiles) openRun.1 openRun.2 :=
    (run_performs _ .refl).mono fun _ _ _ hStep => hStep.step
  obtain ⟨hStands, hNext, hSeen, hPackage, hRead, hLooks⟩ :
      openRun.2.jobs.map (fun j => (j.id, j.building, j.stage)) =
          [(openJob.id, openJob.building, openJob.stage)] ∧
        (openRun.2.next openJob).1 = .ended (.failure openMessage) ∧
        openRun.2.gateway.resolves openRun.2.world.fs openJob.building openJob.stage = ["b"] ∧
        Specifier.packageName "b" = "b" ∧
        openRun.2.world.fs.readText openJob.building.file = .ok "import \"b\"; 'open" ∧
        t.gateway.looks openRequest openRun.2.world Gateway.longestLook
          (t.gateway.start openRequest) = .building openJob.building := by
    decide +kernel
  have hJob : openJob ∈ openRun.2.jobs := by
    obtain ⟨⟨id, b, stage⟩, hJobs, hSame⟩ := List.map_eq_singleton_iff.mp hStands
    cases hSame
    rw [hJobs]
    exact List.mem_cons_self
  have hFailed : failed ∈ t.jobs := by
    refine List.mem_map.mpr ⟨openJob, hJob, ?_⟩
    rw [if_pos rfl, hNext]
  obtain ⟨-, ⟨hOnly, -⟩, ⟨hFree, -⟩, -, hAgain⟩ :=
    failed_build_leaves_no_trace hRun hJob (by simp [openJob]) .refl (by simp) hFailed rfl rfl
  refine ⟨hJob, hFailed, hOnly.fs, (hOnly.trusted "b").mpr (.inr ⟨by decide, "b", ?_, hPackage⟩),
    hFree, ?_⟩
  · rw [hSeen]
    exact List.mem_cons_self
  · have hFails : t.gateway.FailsOn openRun.2.world.fs openJob.building openMessage :=
      .inr ⟨"import \"b\"; 'open", hRead, (Gateway.advance_failure_iff (by simp)).mp hNext⟩
    exact (hAgain openRequest openJob.building openRun.2.world freed openMessage hLooks hFails hOnly.fs
      (fun name hName => (hOnly.trusted name).mpr (.inl hName)) hFree "again").2.2.1

end Service

end ModuleGateway
