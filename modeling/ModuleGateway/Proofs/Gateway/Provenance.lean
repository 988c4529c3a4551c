import ModuleGateway.Proofs.Gateway.Schedule
import ModuleGateway.Proofs.Store.Failure

/-!
Where bodies come from. Every module body that a client receives was linked by some job, in this start
of the gateway or, when it comes from the store, in an earlier one. Writes into the store may fail, and
the gateway may be started again at any time.
-/

namespace ModuleGateway

open Build

namespace Move

/-- The output that a job linked, with the installed specifiers that its links lead to. -/
def linked? : Move → Option (ByteArray × List String)
  | .work _ (.compiling _) (.persisting content) resolved => some (content, resolved)
  | .work _ (.compiling _) (.ended (.success content _)) resolved => some (content, resolved)
  | _ => none

end Move

/-- The body of a reply that is a module: what was built or persisted, not what shows a failure or a
runtime global. -/
def Reply.moduleBody? : Reply → Option ByteArray
  | .respond response =>
    if response.status = 200 &&
        (response.cacheControl = Gateway.vendorCacheControl || response.etag.isSome) then
      some response.body
    else none
  | _ => none

namespace Service

/-- A job linked this output, and its links lead to these installed specifiers. -/
def Linked (moves : List Move) (content : ByteArray) (targets : List String) : Prop :=
  ∃ move ∈ moves, move.linked? = some (content, targets)

instance (moves : List Move) (content : ByteArray) (targets : List String) :
    Decidable (Linked moves content targets) :=
  inferInstanceAs (Decidable (∃ move ∈ moves, move.linked? = some (content, targets)))

/-! ### The invariant -/

variable {settings : Settings} {made now : ByteArray → Prop} {moves : List Move} {move : Move}
  {s after : Service} {name : String} {p : Pursuit} {b : Building} {job : Job}

/-- A successful outcome holds what was made. -/
def OutcomeTraced (made : ByteArray → Prop) : Outcome → Prop
  | .success content _ => made content
  | .failure _ => True

/-- What a job is about to write, or ended with, was made. -/
def StageTraced (made : ByteArray → Prop) : Stage → Prop
  | .persisting content => made content
  | .ended outcome => OutcomeTraced made outcome
  | _ => True

/-- The body of a module was made. -/
def ReplyTraced (made : ByteArray → Prop) (reply : Reply) : Prop :=
  ∀ body, reply.moduleBody? = some body → made body

/-- What a client is about to leave with was made. -/
def PursuitTraced (made : ByteArray → Prop) : Pursuit → Prop
  | .asking _ (.answered reply) => ReplyTraced made reply
  | _ => True

/-- Everything that can become the body of a module was made: entries of the store, what jobs hold,
results that clients wait for, and replies that clients are about to leave with. -/
structure Traced (settings : Settings) (made : ByteArray → Prop) (s : Service) : Prop where
  directory : s.gateway.store.directory = settings.cacheDirectory
  files : Store.OnlyFiles (s.gateway.store.shelf s.world.fs)
  entries : ∀ specifier data, (s.gateway.store.shelf s.world.fs).lookup
    (Specifier.entryName specifier) = some (.file data) → made data.content
  jobs : ∀ job ∈ s.jobs, StageTraced made job.stage
  endings : ∀ id ending, (id, ending) ∈ s.world.coordinator.ended →
    OutcomeTraced made ending.outcome
  clients : ∀ name p, (name, p) ∈ s.clients → PursuitTraced made p

theorem OutcomeTraced.mono {outcome : Outcome} (hMono : ∀ content, made content → now content)
    (h : OutcomeTraced made outcome) : OutcomeTraced now outcome := by
  cases outcome with
  | success content contentType => exact hMono content h
  | failure message => trivial

theorem StageTraced.mono {stage : Stage} (hMono : ∀ content, made content → now content)
    (h : StageTraced made stage) : StageTraced now stage := by
  cases stage with
  | persisting content => exact hMono content h
  | ended outcome => exact OutcomeTraced.mono hMono h
  | _ => trivial

theorem PursuitTraced.mono (hMono : ∀ content, made content → now content)
    (h : PursuitTraced made p) : PursuitTraced now p := by
  cases p with
  | warming t => trivial
  | asking r progress =>
      cases progress with
      | answered reply => exact fun body hBody => hMono body (h body hBody)
      | _ => trivial

/-- What was made stays made. -/
theorem Traced.mono (hMono : ∀ content, made content → now content)
    (h : Traced settings made s) : Traced settings now s where
  directory := h.directory
  files := h.files
  entries := fun specifier data hEntry => hMono _ (h.entries specifier data hEntry)
  jobs := fun job hJob => (h.jobs job hJob).mono hMono
  endings := fun id ending hEnded => (h.endings id ending hEnded).mono hMono
  clients := fun name p hClient => (h.clients name p hClient).mono hMono

/-! ### Replies -/

theorem replyTraced_of_none {reply : Reply} (h : reply.moduleBody? = none) :
    ReplyTraced made reply := by
  intro body hBody
  rw [h] at hBody
  cases hBody

theorem moduleBody?_missed (g : Gateway) (specifier : String) :
    (g.missed specifier).moduleBody? = none := by
  unfold Gateway.missed
  split <;> rfl

theorem moduleBody?_transient (kind : AssetKind) (body : String) :
    (Gateway.transientResponse kind body).moduleBody? = none := by
  cases kind <;> rfl

/-- A reply with the result of a build has the body that was built. -/
theorem replyTraced_replyOf {g : Gateway} {outcome : Outcome} (h : OutcomeTraced made outcome) :
    ReplyTraced made (g.replyOf b outcome) := by
  intro body hBody
  cases b with
  | vendor specifier m =>
      cases outcome with
      | success content contentType =>
          cases hBody
          exact h
      | failure message =>
          rw [Gateway.replyOf, moduleBody?_transient] at hBody
          cases hBody
  | source file validator kind =>
      cases outcome with
      | success content contentType =>
          simp only [Gateway.replyOf, Reply.moduleBody?, Response.ok, Option.isSome_some,
            Bool.or_true, decide_true, Bool.and_true, if_true, Option.some.injEq] at hBody
          exact hBody ▸ h
      | failure message =>
          rw [Gateway.replyOf, moduleBody?_transient] at hBody
          cases hBody

theorem replyTraced_fit {reply : Reply} {method : Method} (hMethod : method ≠ .head)
    (h : ReplyTraced made reply) : ReplyTraced made (reply.fit method) := by
  have hSame : reply.fit method = reply := by
    cases reply with
    | respond response => exact if_neg hMethod
    | redirect url => rfl
    | pass => rfl
  rw [hSame]
  exact h

/-! ### Clients -/

theorem Traced.made_of_read {specifier : String} {content : ByteArray}
    (h : Traced settings made s)
    (hRead : s.gateway.store.read? s.world.fs specifier = some content) : made content := by
  obtain ⟨-, -, -, data, hEntry, rfl⟩ := Store.entry_of_read? (h.files _) hRead
  exact h.entries specifier data hEntry

theorem pursuitTraced_begin (g : Gateway) (errand : Errand) :
    PursuitTraced made (errand.begin g) := by
  cases errand with
  | prewarm specifier => trivial
  | request r =>
      show PursuitTraced made (.asking r (g.start r))
      have hStart := g.start_spec r
      generalize g.start r = progress at hStart ⊢
      cases hStart with
      | passed => exact replyTraced_of_none rfl
      | shim => exact replyTraced_of_none (moduleBody?_transient _ _)
      | recalling | resolving => trivial

theorem Traced.pursuit_look (h : Traced settings made s) (hPursuit : PursuitTraced made p) :
    PursuitTraced made (p.look s.gateway s.world) := by
  cases p with
  | warming t => trivial
  | asking r progress =>
      show PursuitTraced made (.asking r (s.gateway.look r s.world progress))
      have hLook := s.gateway.look_spec r s.world progress
      generalize s.gateway.look r s.world progress = next at hLook ⊢
      cases hLook with
      | recalled hStored =>
          intro body hBody
          cases hBody
          exact h.made_of_read hStored
      | untrusted | unlocated => exact replyTraced_of_none (moduleBody?_missed _ _)
      | unresolved | gone | fresh => exact replyTraced_of_none rfl
      | answered => exact hPursuit
      | missing | trusted | located | resolved | stale | building => trivial

theorem Traced.dropClient (h : Traced settings made s) (name : String) :
    Traced settings made (s.dropClient name) where
  directory := h.directory
  files := h.files
  entries := h.entries
  jobs := h.jobs
  endings := h.endings
  clients := fun other p hClient => h.clients other p (List.mem_filter.mp hClient).1

/-! ### Jobs -/

theorem ended_request (c : Coordinator) (client key : String) :
    (c.request client key).ended = c.ended := by
  unfold Coordinator.request
  split <;> rfl

theorem Traced.join (h : Traced settings made s) : Traced settings made (s.join name b) where
  directory := h.directory
  files := h.files
  entries := h.entries
  jobs := fun job hJob => by
    unfold Service.join at hJob
    dsimp only at hJob
    split at hJob
    · exact h.jobs job hJob
    · rcases List.mem_append.mp hJob with hOld | hNew
      · exact h.jobs job hOld
      · cases List.mem_singleton.mp hNew
        cases b <;> trivial
  endings := fun id ending hEnded => by
    refine h.endings id ending ?_
    rw [← ended_request s.world.coordinator name b.key]
    exact hEnded
  clients := h.clients

theorem Traced.publish (h : Traced settings made s) (hJob : job ∈ s.jobs) :
    Traced settings made (s.publish job) where
  directory := h.directory
  files := h.files
  entries := h.entries
  jobs := fun other hOther => h.jobs other (List.mem_filter.mp hOther).1
  endings := fun id ending hEnded => by
    have hOutcome : OutcomeTraced made job.stage.outcome := by
      have hStage := h.jobs job hJob
      cases hCase : job.stage with
      | ended outcome =>
          rw [hCase] at hStage
          exact hStage
      | _ => trivial
    simp only [Service.publish, Coordinator.finish] at hEnded
    split at hEnded
    · rcases List.mem_cons.mp hEnded with hNew | hOld
      · cases hNew
        exact hOutcome
      · exact h.endings id ending hOld
    · exact h.endings id ending hEnded
  clients := h.clients

/-- What a step of a job does to the store, where writes may fail. -/
theorem Traced.next_entries (h : Traced settings made s) (hJob : job ∈ s.jobs) :
    Store.OnlyFiles (s.gateway.store.shelf (s.next job).2.fs) ∧
      ∀ specifier data, (s.gateway.store.shelf (s.next job).2.fs).lookup
        (Specifier.entryName specifier) = some (.file data) → made data.content := by
  have hStage := h.jobs job hJob
  by_cases hPersists : ∃ content, job.stage = .persisting content
  · obtain ⟨content, hPersisting⟩ := hPersists
    have hMade : made content := by
      rw [hPersisting] at hStage
      exact hStage
    have hLeft : (s.next job).2.fs = s.gateway.persist s.world.fs job.building content := by
      simp only [next, hPersisting, Gateway.advance]
    rw [hLeft]
    cases hBuilding : job.building with
    | source file validator kind => exact ⟨h.files, h.entries⟩
    | vendor specifier m =>
        simp only [Gateway.persist]
        split
        · rename_i written hWrite
          have hWritten := Store.written_of_write (h.files.plain _) hWrite
          refine ⟨hWritten.onlyFiles h.files, fun other data hEntry => ?_⟩
          by_cases hOther : other = specifier
          · rw [hOther, hWritten.entry] at hEntry
            cases hEntry
            exact hMade
          · rw [hWritten.lookup_other hOther] at hEntry
            exact h.entries other data hEntry
        · rename_i failed hWrite
          have hSpared := Store.spared_of_write_error h.files hWrite
          refine ⟨hSpared.files, fun other data hEntry => ?_⟩
          rw [hSpared.others _ (Store.entryName_ne_unfinishedName _ _ _)] at hEntry
          exact h.entries other data hEntry
  · rw [next_fs fun content hCase => hPersists ⟨content, hCase⟩]
    exact ⟨h.files, h.entries⟩

/-- The stage that a job goes on to holds what was made, if what it links counts as made. -/
theorem Traced.next_stage (h : Traced settings made s) (hJob : job ∈ s.jobs)
    (hLinks : ∀ content targets, (workMove s job).linked? = some (content, targets) →
      made content) : StageTraced made (s.next job).1 := by
  have hStage := h.jobs job hJob
  have hNext := s.next_spec job
  unfold workMove at hLinks
  generalize job.stage = stage, (s.next job).1 = next, (s.next job).2 = after
    at hLinks hStage hNext ⊢
  cases hNext with
  | stored hStored =>
      cases hBuilding : job.building with
      | source file validator kind =>
          rw [hBuilding] at hStored
          cases hStored
      | vendor specifier m =>
          rw [hBuilding] at hStored
          exact h.made_of_read hStored
  | missing | read | unreadable => trivial
  | @compiled source linked trusted hRun =>
      cases hAfter : Gateway.afterLinking job.building linked with
      | persisting content =>
          rw [hAfter] at hLinks
          exact hLinks content _ rfl
      | ended outcome =>
          rw [hAfter] at hLinks
          cases outcome with
          | success content contentType => exact hLinks content _ rfl
          | failure message => trivial
      | _ => trivial
  | persisted | ended => exact hStage

theorem Traced.advance (h : Traced settings made s) (hJob : job ∈ s.jobs)
    (hLinks : ∀ content targets, (workMove s job).linked? = some (content, targets) →
      made content) : Traced settings made (s.advance job) where
  directory := h.directory
  files := (h.next_entries hJob).1
  entries := (h.next_entries hJob).2
  jobs := fun j hRuns => by
    rcases mem_advance hRuns with ⟨hOld, -⟩ | ⟨old, -, -, rfl⟩
    · exact h.jobs j hOld
    · exact h.next_stage hJob hLinks
  endings := fun id ending hEnded => by
    refine h.endings id ending ?_
    rw [← advance_coordinator s.gateway job.building s.world job.stage]
    exact hEnded
  clients := h.clients

/-! ### Runs -/

theorem traced_fresh {g : Gateway} {fs : FileSystem}
    (hDirectory : g.store.directory = settings.cacheDirectory)
    (hFiles : Store.OnlyFiles (g.store.shelf fs))
    (hEntries : ∀ specifier data, (g.store.shelf fs).lookup (Specifier.entryName specifier) =
      some (.file data) → made data.content) : Traced settings made (fresh g fs) where
  directory := hDirectory
  files := hFiles
  entries := hEntries
  jobs := fun job hJob => by cases hJob
  endings := fun id ending hEnded => by cases hEnded
  clients := fun name p hClient => by cases hClient

/-- What a step leaves was made before, or is what the step links. -/
theorem Secluded.traced {written : Settings} (hNormal : written.normalize = .ok settings)
    (hStep : Secluded written s move after) (h : Traced settings made s)
    (hLinks : ∀ content targets, move.linked? = some (content, targets) → made content) :
    Traced settings made after := by
  obtain ⟨hMove, hChange⟩ := hStep
  cases hMove with
  | arrive hNew hOffered =>
      refine ⟨h.directory, h.files, h.entries, h.jobs, h.endings, fun other p hClient => ?_⟩
      rcases List.mem_append.mp hClient with hOld | hLast
      · exact h.clients other p hOld
      · cases List.mem_singleton.mp hLast
        exact pursuitTraced_begin _ _
  | look hClient =>
      refine ⟨h.directory, h.files, h.entries, h.jobs, h.endings, fun other p hMem => ?_⟩
      rcases mem_setClient hMem with hMoved | hOld
      · obtain ⟨rfl, rfl⟩ := Prod.mk.inj hMoved
        exact h.pursuit_look (h.clients _ _ hClient)
      · exact h.clients other p hOld
  | join => exact h.join
  | work hJob hGoing => exact h.advance hJob hLinks
  | publish hJob hEnded => exact h.publish hJob
  | answer => exact h.dropClient _
  | receive => exact h.dropClient _
  | leave => exact h.dropClient _
  | change fs =>
      have hShelf := (hChange rfl).shelf
      refine ⟨h.directory, ?_, ?_, h.jobs, h.endings, h.clients⟩
      · show Store.OnlyFiles (s.gateway.store.shelf fs)
        rw [hShelf]
        exact h.files
      · intro specifier data hEntry
        refine h.entries specifier data ?_
        rw [← hShelf]
        exact hEntry
  | restart process hStart =>
      obtain ⟨hSettings, hDirectory, -⟩ := Gateway.ofSettings_spec hStart
      obtain hSame := Except.ok.inj (hSettings.symm.trans hNormal)
      rw [hSame] at hDirectory
      have hShelf := Store.shelf_congr (hDirectory.trans h.directory.symm) s.world.fs
      refine traced_fresh hDirectory ?_ fun specifier data hEntry => ?_
      · exact hShelf ▸ h.files
      · exact h.entries specifier data (hShelf ▸ hEntry)

/-- What a client leaves with was made. -/
theorem Traced.replied {written : Settings} {r : Request} {reply : Reply}
    (h : Traced settings made s) (hStep : Step written s (.answer name (.replied r reply)) after)
    (hMethod : r.method ≠ .head) :
    ReplyTraced made reply := by
  cases hStep with
  | answer hClient hSettled =>
      rename_i p
      have hPursuit := h.clients _ _ hClient
      unfold Pursuit.settled? at hSettled
      split at hSettled
      · cases hSettled
        exact replyTraced_fit hMethod hPursuit
      · cases hSettled
      · cases hSettled
  | receive hDue hClient hReceived =>
      rename_i p d
      have hOutcome : OutcomeTraced made d.outcome := by
        obtain ⟨waiter, -, ending, hEnded, rfl⟩ := Coordinator.ending_of_due hDue
        exact h.endings waiter.job ending (mem_of_lookup hEnded)
      unfold Pursuit.receive? at hReceived
      split at hReceived
      · cases hReceived
        exact replyTraced_fit hMethod (replyTraced_replyOf hOutcome)
      · cases hReceived
      · cases hReceived

/-- After every run that starts with an empty store, what can become a module's body was linked. -/
theorem Run.traced {written : Settings} {compiler : Compiler} {fs : FileSystem} {g : Gateway}
    (hStart : Gateway.ofSettings written compiler fs = .ok g) (hEmpty : g.store.shelf fs = [])
    (hRun : Run (Secluded written) (fresh g fs) moves s) :
    Traced g.settings (fun content => ∃ targets, Linked moves content targets) s := by
  obtain ⟨hNormal, hDirectory, -⟩ := Gateway.ofSettings_spec hStart
  refine hRun.invariant (I := fun moves s =>
    Traced g.settings (fun content => ∃ targets, Linked moves content targets) s) ?_ ?_
  · refine traced_fresh hDirectory ?_ ?_
    · rw [hEmpty]
      exact Store.onlyFiles_nil
    · intro specifier data hEntry
      rw [hEmpty] at hEntry
      cases hEntry
  · intro moves move s after h hStep
    refine hStep.traced hNormal (h.mono ?_) ?_
    · rintro content ⟨targets, earlier, hEarlier, hLinked⟩
      exact ⟨targets, earlier, List.mem_cons_of_mem _ hEarlier, hLinked⟩
    · intro content targets hLinked
      exact ⟨targets, move, List.mem_cons_self, hLinked⟩

end Service

end ModuleGateway
