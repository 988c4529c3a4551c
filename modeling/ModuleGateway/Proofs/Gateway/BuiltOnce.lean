import ModuleGateway.Proofs.Gateway.Schedule

/-!
A vendor module is built once. Two requests may both miss the store and start jobs one after the
other; the second job finds what the first one left. So the module of a specifier is linked at most
once and written at most once, and every client that is served the module is served the same bytes.
-/

namespace ModuleGateway

open Build

/-! ### What is counted -/

namespace Move

/-- A job linked the module of a specifier. -/
def isLinking (specifier : String) : Move → Bool
  | .work (.vendor s _) (.compiling _) (.persisting _) _ => s = specifier
  | _ => false

/-- A job wrote the module of a specifier into the store. -/
def isWriting (specifier : String) : Move → Bool
  | .work (.vendor s _) (.persisting _) _ _ => s = specifier
  | _ => false

end Move

/-- A reply that a client may keep for ever. -/
def Reply.isLasting : Reply → Bool
  | .respond response =>
    response.status = 200 && response.cacheControl = Gateway.vendorCacheControl
  | _ => false

/-- A request for the module of a specifier. -/
def Request.AsksFor (r : Request) (settings : Settings) (specifier : String) : Prop :=
  Route.ofPath? settings r.path = some (.vendor specifier)

namespace Service

/-! ### The invariant -/

/-- Where the module of a specifier is on its way into the store. -/
inductive Making where
  | notYet
  | linked (content : ByteArray)
  | stored (content : ByteArray)

/-- The content that was linked. -/
def Making.content? : Making → Option ByteArray
  | .notYet => none
  | .linked content => some content
  | .stored content => some content

/-- A successful outcome has the content that was linked. -/
def OutcomeAgrees (made : Option ByteArray) : Outcome → Prop
  | .success content contentType =>
    made = some content ∧ contentType = AssetKind.script.contentType
  | .failure _ => True

/-- A job reads and compiles only while nothing was linked. -/
def StageAgrees (making : Making) : Stage → Prop
  | .checking => True
  | .reading => making = .notYet
  | .compiling _ => making = .notYet
  | .persisting content => making = .linked content
  | .ended outcome => OutcomeAgrees making.content? outcome

/-- A lasting reply has the content that was linked. -/
def ReplyAgrees (made : Option ByteArray) (method : Method) (reply : Reply) : Prop :=
  reply.isLasting = true → ∃ content, made = some content ∧
    reply = (Gateway.vendorResponse AssetKind.script.contentType content).fit method

/-- A client that asks for the specifier is on the way to its module. -/
def PursuitAgrees (specifier : String) (made : Option ByteArray) : Progress → Prop
  | .recalling s => s = specifier
  | .trusting s => s = specifier
  | .locating s => s = specifier
  | .building (.vendor s _) => s = specifier
  | .answered reply => ReplyAgrees made .get reply
  | _ => False

/-- What the store and the jobs say about where the module is. -/
def Standing (specifier : String) (moves : List Move) (s : Service) : Making → Prop
  | .notYet =>
    (s.gateway.store.shelf s.world.fs).lookup (Specifier.entryName specifier) = none ∧
      moves.countP (Move.isLinking specifier) = 0 ∧ moves.countP (Move.isWriting specifier) = 0
  | .linked content =>
    (s.gateway.store.shelf s.world.fs).lookup (Specifier.entryName specifier) = none ∧
      moves.countP (Move.isLinking specifier) = 1 ∧ moves.countP (Move.isWriting specifier) = 0 ∧
      ∃ job ∈ s.jobs, (∃ m, job.building = .vendor specifier m) ∧ job.stage = .persisting content
  | .stored content =>
    s.gateway.store.read? s.world.fs specifier = some content ∧
      moves.countP (Move.isLinking specifier) = 1 ∧ moves.countP (Move.isWriting specifier) = 1

/-- The module of a specifier was linked and written as often as it is on its way, and nobody has
another content in hand. -/
structure BuiltOnce (settings : Settings) (specifier : String) (making : Making)
    (moves : List Move) (s : Service) : Prop where
  configured : s.gateway.settings = settings
  directory : s.gateway.store.directory = settings.cacheDirectory
  files : Store.OnlyFiles (s.gateway.store.shelf s.world.fs)
  standing : Standing specifier moves s making
  jobs : ∀ job ∈ s.jobs, ∀ m, job.building = .vendor specifier m → StageAgrees making job.stage
  clients : ∀ name r p, (name, .asking r p) ∈ s.clients → r.AsksFor settings specifier →
    PursuitAgrees specifier making.content? p
  results : ∀ waiter ∈ s.world.coordinator.waiting, ∀ p m, (waiter.client, p) ∈ s.clients →
    p.building? = some (.vendor specifier m) →
    ∀ ending, s.world.coordinator.ended.lookup waiter.job = some ending →
      OutcomeAgrees making.content? ending.outcome
  replies : ∀ name r reply, .answer name (.replied r reply) ∈ moves →
    r.AsksFor settings specifier → ReplyAgrees making.content? r.method reply

variable {settings : Settings} {specifier name : String} {making : Making} {made : Option ByteArray}
  {moves : List Move} {move : Move} {s after : Service} {p : Pursuit} {b : Building} {job : Job}

/-! ### Replies -/

theorem replyAgrees_fit {reply : Reply} (method : Method) (h : ReplyAgrees made .get reply) :
    ReplyAgrees made method (reply.fit method) := by
  intro hLasting
  have hSame : (reply.fit method).isLasting = reply.isLasting := by
    cases reply <;> cases method <;> rfl
  obtain ⟨content, hMade, rfl⟩ := h (hSame ▸ hLasting)
  exact ⟨content, hMade, rfl⟩

theorem replyAgrees_of_passing {reply : Reply} {method : Method} (h : reply.isLasting = false) :
    ReplyAgrees made method reply := by
  intro hLasting
  rw [h] at hLasting
  cases hLasting

theorem missed_isLasting (g : Gateway) (other : String) : (g.missed other).isLasting = false := by
  unfold Gateway.missed
  split <;> rfl

theorem transient_isLasting (kind : AssetKind) (body : String) :
    (Gateway.transientResponse kind body).isLasting = false := by
  cases kind <;> rfl

/-- The outcome of the module's build becomes a reply with its content. -/
theorem replyAgrees_replyOf {g : Gateway} {m : Package.Located} {outcome : Outcome}
    (method : Method) (h : OutcomeAgrees made outcome) :
    ReplyAgrees made method ((g.replyOf (.vendor specifier m) outcome).fit method) := by
  refine replyAgrees_fit method ?_
  cases outcome with
  | success content contentType =>
      obtain ⟨hMade, rfl⟩ := h
      exact fun _ => ⟨content, hMade, rfl⟩
  | failure message => exact replyAgrees_of_passing (transient_isLasting _ _)

/-! ### Requests -/

theorem pursuitAgrees_start {g : Gateway} {r : Request} (hAsks : r.AsksFor g.settings specifier) :
    PursuitAgrees specifier made (g.start r) := by
  have hStart := g.start_spec r
  generalize g.start r = progress at hStart ⊢
  cases hStart with
  | passed => exact replyAgrees_of_passing rfl
  | shim => exact replyAgrees_of_passing (transient_isLasting _ _)
  | recalling _ hRoute =>
      cases hRoute.symm.trans hAsks
      rfl
  | resolving hRoute => cases hRoute.symm.trans hAsks

theorem pursuitAgrees_look {g : Gateway} {r : Request} {w : World} {progress : Progress}
    (hRead : ∀ content, g.store.read? w.fs specifier = some content → made = some content)
    (h : PursuitAgrees specifier made progress) :
    PursuitAgrees specifier made (g.look r w progress) := by
  have hLook := g.look_spec r w progress
  generalize g.look r w progress = next at hLook ⊢
  cases hLook with
  | @recalled other content hStored =>
      obtain rfl : other = specifier := h
      exact fun _ => ⟨content, hRead content hStored, rfl⟩
  | untrusted | unlocated => exact replyAgrees_of_passing (missed_isLasting _ _)
  | missing | trusted | located | building | answered => exact h
  | resolved | unresolved | gone | fresh | stale => exact h.elim

/-! ### Where the module is -/

/-- What can be read is what was linked. -/
theorem BuiltOnce.made_of_read {content : ByteArray}
    (h : BuiltOnce settings specifier making moves s)
    (hRead : s.gateway.store.read? s.world.fs specifier = some content) :
    making.content? = some content := by
  have hStanding := h.standing
  cases making with
  | notYet =>
      rw [Store.read?_eq_none hStanding.1] at hRead
      cases hRead
  | linked other =>
      rw [Store.read?_eq_none hStanding.1] at hRead
      cases hRead
  | stored other => exact hStanding.1.symm.trans hRead

/-- A step that links and writes nothing leaves the module where it is, if the store and the job that
is about to write stay as they are. -/
theorem Standing.keep (h : Standing specifier moves s making)
    (hLinking : move.isLinking specifier = false) (hWriting : move.isWriting specifier = false)
    (hEntry : (after.gateway.store.shelf after.world.fs).lookup (Specifier.entryName specifier) =
      (s.gateway.store.shelf s.world.fs).lookup (Specifier.entryName specifier))
    (hRead : ∀ content, s.gateway.store.read? s.world.fs specifier = some content →
      after.gateway.store.read? after.world.fs specifier = some content)
    (hJobs : ∀ job ∈ s.jobs, ∀ content, (∃ m, job.building = .vendor specifier m) →
      job.stage = .persisting content → job ∈ after.jobs) :
    Standing specifier (move :: moves) after making := by
  have hLinks : (move :: moves).countP (Move.isLinking specifier) =
      moves.countP (Move.isLinking specifier) := List.countP_cons_of_neg (by simp [hLinking])
  have hWrites : (move :: moves).countP (Move.isWriting specifier) =
      moves.countP (Move.isWriting specifier) := List.countP_cons_of_neg (by simp [hWriting])
  cases making with
  | notYet =>
      obtain ⟨hNone, hNoLink, hNoWrite⟩ := h
      exact ⟨hEntry.trans hNone, hLinks.trans hNoLink, hWrites.trans hNoWrite⟩
  | linked content =>
      obtain ⟨hNone, hOneLink, hNoWrite, job, hJob, hBuilding, hStage⟩ := h
      exact ⟨hEntry.trans hNone, hLinks.trans hOneLink, hWrites.trans hNoWrite, job,
        hJobs job hJob content hBuilding hStage, hBuilding, hStage⟩
  | stored content =>
      obtain ⟨hFound, hOneLink, hOneWrite⟩ := h
      exact ⟨hRead content hFound, hLinks.trans hOneLink, hWrites.trans hOneWrite⟩

theorem Standing.counts (h : Standing specifier moves s making) :
    moves.countP (Move.isLinking specifier) ≤ 1 ∧
      moves.countP (Move.isWriting specifier) ≤ 1 := by
  cases making with
  | notYet =>
      obtain ⟨-, hLinks, hWrites⟩ := h
      omega
  | linked content =>
      obtain ⟨-, hLinks, hWrites, -⟩ := h
      omega
  | stored content =>
      obtain ⟨-, hLinks, hWrites⟩ := h
      omega

/-! ### Clients come and go -/

theorem BuiltOnce.arrive {errand : Errand} (h : BuiltOnce settings specifier making moves s)
    (hBooked : Booked s) (hNew : ∀ c ∈ s.clients, c.1 ≠ name) :
    BuiltOnce settings specifier making (.arrive name errand :: moves)
      { s with clients := s.clients ++ [(name, errand.begin s.gateway)] } where
  configured := h.configured
  directory := h.directory
  files := h.files
  standing := h.standing.keep rfl rfl rfl (fun _ hRead => hRead) (fun _ hJob _ _ _ => hJob)
  jobs := h.jobs
  clients := fun other r p hClient hAsks => by
    rcases List.mem_append.mp hClient with hOld | hLast
    · exact h.clients other r p hOld hAsks
    · cases errand with
      | prewarm s => simp [Errand.begin] at hLast
      | request asked =>
          cases List.mem_singleton.mp hLast
          refine pursuitAgrees_start ?_
          rw [h.configured]
          exact hAsks
  results := fun waiter hWaiter p m hClient hBuilding ending hEnded => by
    rcases List.mem_append.mp hClient with hOld | hLast
    · exact h.results waiter hWaiter p m hOld hBuilding ending hEnded
    · -- A client that waits was there before.
      obtain ⟨q, b, hThere, -⟩ := hBooked.waiters waiter hWaiter
      have hName : waiter.client = name := congrArg Prod.fst (List.mem_singleton.mp hLast)
      exact absurd hName (hNew _ hThere)
  replies := fun other r reply hMem => by
    rcases List.mem_cons.mp hMem with hMove | hOld
    · cases hMove
    · exact h.replies other r reply hOld

theorem BuiltOnce.look (h : BuiltOnce settings specifier making moves s) (hBooked : Booked s)
    (hClient : (name, p) ∈ s.clients) :
    BuiltOnce settings specifier making (.look name :: moves)
      (s.setClient name (p.look s.gateway s.world)) where
  configured := h.configured
  directory := h.directory
  files := h.files
  standing := h.standing.keep rfl rfl rfl (fun _ hRead => hRead) (fun _ hJob _ _ _ => hJob)
  jobs := h.jobs
  clients := fun other r progress hMem hAsks => by
    rcases mem_setClient hMem with hMoved | hOld
    · obtain ⟨rfl, hLook⟩ := Prod.mk.inj hMoved
      cases p with
      | warming t => cases hLook
      | asking asked before =>
          cases hLook
          exact pursuitAgrees_look (fun _ => h.made_of_read)
            (h.clients other r before hClient hAsks)
    · exact h.clients other r progress hOld hAsks
  results := fun waiter hWaiter q m hMem hBuilding ending hEnded => by
    rcases mem_setClient hMem with hMoved | hOld
    · obtain ⟨hName, rfl⟩ := Prod.mk.inj hMoved
      obtain ⟨standing, b, hThere, hNeeds, -⟩ := hBooked.waiters waiter hWaiter
      rw [hName] at hThere
      obtain rfl := client_unique hBooked.names hClient hThere
      rw [look_of_building _ _ hNeeds] at hBuilding
      exact h.results waiter hWaiter p m (hName ▸ hClient) hBuilding ending hEnded
    · exact h.results waiter hWaiter q m hOld hBuilding ending hEnded
  replies := fun other r reply hMem => by
    rcases List.mem_cons.mp hMem with hMove | hOld
    · cases hMove
    · exact h.replies other r reply hOld

/-- A client may leave at any time; what it leaves with has to be the module, if it may be kept. -/
theorem BuiltOnce.dropClient (h : BuiltOnce settings specifier making moves s) (name : String)
    (hLinking : move.isLinking specifier = false) (hWriting : move.isWriting specifier = false)
    (hReply : ∀ other r reply, move = .answer other (.replied r reply) →
      r.AsksFor settings specifier → ReplyAgrees making.content? r.method reply) :
    BuiltOnce settings specifier making (move :: moves) (s.dropClient name) where
  configured := h.configured
  directory := h.directory
  files := h.files
  standing := h.standing.keep hLinking hWriting rfl (fun _ hRead => hRead)
    (fun _ hJob _ _ _ => hJob)
  jobs := h.jobs
  clients := fun other r p hMem => h.clients other r p (List.mem_filter.mp hMem).1
  results := fun waiter hWaiter p m hMem =>
    h.results waiter (List.mem_filter.mp hWaiter).1 p m (List.mem_filter.mp hMem).1
  replies := fun other r reply hMem => by
    rcases List.mem_cons.mp hMem with hMove | hOld
    · exact hReply other r reply hMove.symm
    · exact h.replies other r reply hOld

/-- A client that needs no build leaves with what it came to. -/
theorem BuiltOnce.settled {result : Result} (h : BuiltOnce settings specifier making moves s)
    (hClient : (name, p) ∈ s.clients) (hSettled : p.settled? = some result) :
    BuiltOnce settings specifier making (.answer name result :: moves) (s.dropClient name) := by
  refine h.dropClient name rfl rfl fun other r reply hMove hAsks => ?_
  cases hMove
  cases p with
  | warming t => cases t <;> cases hSettled
  | asking asked progress =>
      cases progress with
      | answered found =>
          cases hSettled
          exact replyAgrees_fit _ (h.clients name r _ hClient hAsks)
      | _ => cases hSettled

/-- A client that waited leaves with the outcome of the build. -/
theorem BuiltOnce.receive {result : Result} {d : Delivery}
    (h : BuiltOnce settings specifier making moves s) (hDue : d ∈ s.world.coordinator.due)
    (hClient : (d.client, p) ∈ s.clients)
    (hReceived : p.receive? s.gateway d.outcome = some result) :
    BuiltOnce settings specifier making (.answer d.client result :: moves)
      (s.dropClient d.client) := by
  refine h.dropClient d.client rfl rfl fun other r reply hMove hAsks => ?_
  cases hMove
  obtain ⟨waiter, hWaiter, ending, hEnded, rfl⟩ := Coordinator.ending_of_due hDue
  cases p with
  | warming t => cases t <;> cases hReceived
  | asking asked progress =>
      cases progress with
      | building b =>
          cases hReceived
          have hAgrees := h.clients _ r _ hClient hAsks
          cases b with
          | source file validator kind => exact hAgrees.elim
          | vendor other m =>
              obtain rfl : other = specifier := hAgrees
              exact replyAgrees_replyOf _
                (h.results waiter hWaiter _ m hClient rfl ending hEnded)
      | _ => cases hReceived

/-! ### Jobs start and end -/

theorem BuiltOnce.join (h : BuiltOnce settings specifier making moves s) (hBooked : Booked s) :
    BuiltOnce settings specifier making (.join name b :: moves) (s.join name b) := by
  have hReplies : ∀ other r reply, .answer other (.replied r reply) ∈ Move.join name b :: moves →
      r.AsksFor settings specifier → ReplyAgrees making.content? r.method reply := by
    intro other r reply hMem
    rcases List.mem_cons.mp hMem with hMove | hOld
    · cases hMove
    · exact h.replies other r reply hOld
  cases hFound : s.world.coordinator.jobFor? b.key with
  | some id =>
      rw [join_of_taken hFound]
      refine ⟨h.configured, h.directory, h.files,
        h.standing.keep rfl rfl rfl (fun _ hRead => hRead) (fun _ hJob _ _ _ => hJob), h.jobs,
        h.clients, fun waiter hWaiter p m hClient hBuilding ending hEnded => ?_, hReplies⟩
      rcases List.mem_append.mp hWaiter with hOld | hNew
      · exact h.results waiter hOld p m hClient hBuilding ending hEnded
      · obtain rfl := List.mem_singleton.mp hNew
        obtain ⟨j, hJob, -, rfl⟩ := (jobFor?_eq_some hBooked).mp hFound
        exact absurd ((lookup_ended_of_job hBooked hJob).symm.trans hEnded) (by simp)
  | none =>
      rw [join_of_free hFound]
      refine ⟨h.configured, h.directory, h.files,
        h.standing.keep rfl rfl rfl (fun _ hRead => hRead)
          (fun _ hJob _ _ _ => List.mem_append_left _ hJob), fun job hJob m hVendor => ?_,
        h.clients, fun waiter hWaiter p m hClient hBuilding ending hEnded => ?_, hReplies⟩
      · rcases List.mem_append.mp hJob with hOld | hNew
        · exact h.jobs job hOld m hVendor
        · obtain rfl := List.mem_singleton.mp hNew
          obtain rfl : b = .vendor specifier m := hVendor
          trivial
      · rcases List.mem_append.mp hWaiter with hOld | hNew
        · exact h.results waiter hOld p m hClient hBuilding ending hEnded
        · obtain rfl := List.mem_singleton.mp hNew
          exact absurd ((lookup_ended_started hBooked).symm.trans hEnded) (by simp)

theorem BuiltOnce.publish {outcome : Outcome} (h : BuiltOnce settings specifier making moves s)
    (hBooked : Booked s) (hJob : job ∈ s.jobs) (hEnded : job.stage = .ended outcome) :
    BuiltOnce settings specifier making (.publish job.building outcome :: moves)
      (s.publish job) := by
  rw [Service.publish, finish_of_job hBooked hJob, hEnded]
  refine ⟨h.configured, h.directory, h.files,
    h.standing.keep rfl rfl rfl (fun _ hRead => hRead) fun j hRuns content hVendor hStage => ?_,
    fun j hRuns m hVendor => h.jobs j (List.mem_filter.mp hRuns).1 m hVendor,
    h.clients, fun waiter hWaiter p m hClient hBuilding ending hFound => ?_,
    fun other r reply hMem => ?_⟩
  · -- The job that is about to write has not ended.
    refine List.mem_filter.mpr ⟨hRuns, ?_⟩
    have hOther : j.building.key ≠ job.building.key := fun hKey => by
      rw [job_unique hBooked.keys hRuns hJob hKey, hEnded] at hStage
      cases hStage
    simpa using hOther
  · by_cases hId : waiter.job = job.id
    · simp only [hId, List.lookup_cons_self, Option.some.injEq] at hFound
      subst hFound
      obtain ⟨q, b, hThere, hNeeds, hState⟩ := hBooked.waiters waiter hWaiter
      obtain rfl := client_unique hBooked.names hClient hThere
      obtain rfl := Option.some.inj (hBuilding.symm.trans hNeeds)
      rcases hState with ⟨j, hRuns, hSame, hKey⟩ | hGone
      · obtain rfl := List.inj_on_of_nodup_map hBooked.ids hRuns hJob (hSame.trans hId)
        obtain ⟨module, hVendor⟩ := building_of_key hKey
        have hAgrees := h.jobs j hRuns module hVendor
        rw [hEnded] at hAgrees
        exact hAgrees
      · rw [hId, lookup_ended_of_job hBooked hJob] at hGone
        cases hGone
    · rw [List.lookup_cons, beq_false_of_ne hId] at hFound
      exact h.results waiter hWaiter p m hClient hBuilding ending hFound
  · rcases List.mem_cons.mp hMem with hMove | hOld
    · cases hMove
    · exact h.replies other r reply hOld

/-! ### Jobs work -/

theorem OutcomeAgrees.mono {other : Option ByteArray} {outcome : Outcome}
    (hMade : ∀ content, made = some content → other = some content)
    (h : OutcomeAgrees made outcome) : OutcomeAgrees other outcome := by
  cases outcome with
  | success content contentType => exact ⟨hMade content h.1, h.2⟩
  | failure message => trivial

theorem ReplyAgrees.mono {other : Option ByteArray} {method : Method} {reply : Reply}
    (hMade : ∀ content, made = some content → other = some content)
    (h : ReplyAgrees made method reply) : ReplyAgrees other method reply := by
  intro hLasting
  obtain ⟨content, hContent, hReply⟩ := h hLasting
  exact ⟨content, hMade content hContent, hReply⟩

theorem PursuitAgrees.mono {other : Option ByteArray} {progress : Progress}
    (hMade : ∀ content, made = some content → other = some content)
    (h : PursuitAgrees specifier made progress) : PursuitAgrees specifier other progress := by
  cases progress with
  | answered reply => exact ReplyAgrees.mono hMade h
  | building b => cases b <;> exact h
  | _ => exact h

/-- A job's step, by what it does to the store and to the stage of the specifier's job. -/
theorem BuiltOnce.advance {later : Making} (h : BuiltOnce settings specifier making moves s)
    (hMade : ∀ content, making.content? = some content → later.content? = some content)
    (hFiles : Store.OnlyFiles (s.gateway.store.shelf (s.next job).2.fs))
    (hStanding : Standing specifier (workMove s job :: moves) (s.advance job) later)
    (hStages : ∀ j ∈ (s.advance job).jobs, ∀ m, j.building = .vendor specifier m →
      StageAgrees later j.stage) :
    BuiltOnce settings specifier later (workMove s job :: moves) (s.advance job) where
  configured := h.configured
  directory := h.directory
  files := hFiles
  standing := hStanding
  jobs := hStages
  clients := fun other r p hClient hAsks => (h.clients other r p hClient hAsks).mono hMade
  results := fun waiter hWaiter p m hClient hBuilding ending hEnded => by
    have hCoordinator : (s.advance job).world.coordinator = s.world.coordinator :=
      advance_coordinator _ _ _ _
    rw [hCoordinator] at hWaiter hEnded
    exact (h.results waiter hWaiter p m hClient hBuilding ending hEnded).mono hMade
  replies := fun other r reply hMem hAsks => by
    rcases List.mem_cons.mp hMem with hMove | hOld
    · cases hMove
    · exact (h.replies other r reply hOld hAsks).mono hMade

theorem isLinking_other (before : Stage) {next : Stage} {resolved : List String}
    (h : ∀ m, b ≠ .vendor specifier m) :
    (Move.work b before next resolved).isLinking specifier = false ∧
      (Move.work b before next resolved).isWriting specifier = false := by
  cases b with
  | source file validator kind => exact ⟨rfl, rfl⟩
  | vendor other m =>
      have hOther : other ≠ specifier := fun hSame => h m (hSame ▸ rfl)
      cases before <;> cases next <;> simp [Move.isLinking, Move.isWriting, hOther]

/-- What a job that is not for the specifier does to the store. -/
theorem next_effect (hOther : ∀ m, job.building ≠ .vendor specifier m)
    (hFiles : Store.OnlyFiles (s.gateway.store.shelf s.world.fs))
    (hWrites : ∀ other m content, job.building = .vendor other m →
      job.stage = .persisting content →
        ∃ written, s.gateway.store.write s.world.fs other content = .ok written) :
    (s.next job).2.fs = s.world.fs ∨ ∃ other content, other ≠ specifier ∧
      s.gateway.store.Written s.world.fs (s.next job).2.fs other content := by
  by_cases hPersists : ∃ content, job.stage = .persisting content
  · obtain ⟨content, hStage⟩ := hPersists
    cases hBuilding : job.building with
    | source file validator kind =>
        refine .inl ?_
        simp only [next, hStage, hBuilding, Gateway.advance, Gateway.persist]
    | vendor other m =>
        obtain ⟨written, hWritten⟩ := hWrites other m content hBuilding hStage
        refine .inr ⟨other, content, fun hSame => hOther m (hSame ▸ hBuilding), ?_⟩
        have hLeft : (s.next job).2.fs = written := by
          simp only [next, hStage, hBuilding, Gateway.advance, Gateway.persist, hWritten]
        rw [hLeft]
        exact Store.written_of_write (hFiles.plain _) hWritten
  · exact .inl (next_fs fun content hStage => hPersists ⟨content, hStage⟩)

/-- A job for something else leaves the module where it is. -/
theorem BuiltOnce.advance_other (h : BuiltOnce settings specifier making moves s)
    (hOther : ∀ m, job.building ≠ .vendor specifier m)
    (hWrites : ∀ other m content, job.building = .vendor other m →
      job.stage = .persisting content →
        ∃ written, s.gateway.store.write s.world.fs other content = .ok written) :
    BuiltOnce settings specifier making (workMove s job :: moves) (s.advance job) := by
  have hKeys {j : Job} {m : Package.Located} (hVendor : j.building = .vendor specifier m) :
      j.building.key ≠ job.building.key := by
    intro hKey
    obtain ⟨module, hSame⟩ := building_of_key (hKey.symm.trans (congrArg Building.key hVendor))
    exact hOther module hSame
  obtain ⟨hLinking, hWriting⟩ := isLinking_other job.stage hOther
  have hEffect := next_effect hOther h.files hWrites
  refine h.advance (fun _ hMade => hMade) ?_ (h.standing.keep hLinking hWriting ?_ ?_ ?_) ?_
  · rcases hEffect with hSame | ⟨other, content, -, hWritten⟩
    · rw [hSame]
      exact h.files
    · exact hWritten.onlyFiles h.files
  · show (s.gateway.store.shelf (s.next job).2.fs).lookup (Specifier.entryName specifier) = _
    rcases hEffect with hSame | ⟨other, content, hApart, hWritten⟩
    · rw [hSame]
    · exact hWritten.lookup_other hApart.symm
  · intro content hRead
    show s.gateway.store.read? (s.next job).2.fs specifier = some content
    rcases hEffect with hSame | ⟨other, written, hApart, hWritten⟩
    · rw [hSame]
      exact hRead
    · exact hWritten.read?_other (h.files.plain _) hApart.symm hRead
  · rintro j hRuns content ⟨m, hVendor⟩ -
    exact mem_advance_of_ne hRuns (hKeys hVendor)
  · intro j hRuns m hVendor
    rcases mem_advance hRuns with ⟨hOld, -⟩ | ⟨old, hOld, hKey, rfl⟩
    · exact h.jobs j hOld m hVendor
    · exact absurd hKey (hKeys hVendor)

theorem next_stage {m : Package.Located} (hOwn : job.building = .vendor specifier m)
    (later : Making) (hNext : StageAgrees later (s.next job).1) :
    ∀ j ∈ (s.advance job).jobs, ∀ module, j.building = .vendor specifier module →
      StageAgrees later j.stage := by
  intro j hRuns module hVendor
  rcases mem_advance hRuns with ⟨-, hKey⟩ | ⟨old, -, -, rfl⟩
  · exact absurd (by rw [hVendor, hOwn]; rfl) hKey
  · exact hNext

/-- A step of the specifier's job that neither links nor writes. -/
theorem BuiltOnce.advance_calm {m : Package.Located}
    (h : BuiltOnce settings specifier making moves s) (hBooked : Booked s) (hJob : job ∈ s.jobs)
    (hOwn : job.building = .vendor specifier m)
    (hStage : ∀ content, job.stage ≠ .persisting content)
    (hLinking : (workMove s job).isLinking specifier = false)
    (hNext : StageAgrees making (s.next job).1) :
    BuiltOnce settings specifier making (workMove s job :: moves) (s.advance job) := by
  have hFs := next_fs (s := s) hStage
  have hWriting : (workMove s job).isWriting specifier = false := by
    unfold workMove
    rw [hOwn]
    cases hBefore : job.stage with
    | persisting content => exact absurd hBefore (hStage content)
    | _ => rfl
  refine h.advance (fun _ hMade => hMade) (by rw [hFs]; exact h.files) ?_
    (next_stage hOwn making hNext)
  refine h.standing.keep hLinking hWriting ?_ ?_ ?_
  · show (s.gateway.store.shelf (s.next job).2.fs).lookup _ = _
    rw [hFs]
  · intro content hRead
    show s.gateway.store.read? (s.next job).2.fs specifier = _
    rw [hFs]
    exact hRead
  · rintro j hRuns content ⟨module, hVendor⟩ hPersists
    have hSame : j = job := job_unique hBooked.keys hRuns hJob (by rw [hVendor, hOwn]; rfl)
    exact absurd (hSame ▸ hPersists) (hStage content)

/-- A job that misses the store is the first to build the module. -/
theorem BuiltOnce.notYet_of_missing {m : Package.Located}
    (h : BuiltOnce settings specifier making moves s) (hBooked : Booked s) (hJob : job ∈ s.jobs)
    (hOwn : job.building = .vendor specifier m) (hStage : job.stage = .checking)
    (hMissing : s.gateway.store.read? s.world.fs specifier = none) : making = .notYet := by
  have hStanding := h.standing
  cases making with
  | notYet => rfl
  | linked content =>
      obtain ⟨-, -, -, j, hRuns, ⟨module, hVendor⟩, hPersists⟩ := hStanding
      have hSame : j = job := job_unique hBooked.keys hRuns hJob (by rw [hVendor, hOwn]; rfl)
      rw [hSame, hStage] at hPersists
      cases hPersists
  | stored content =>
      rw [hStanding.1] at hMissing
      cases hMissing

/-- The specifier's job compiles its file: it links the module, or it fails. -/
theorem BuiltOnce.advance_compiling {m : Package.Located} {source : String}
    (h : BuiltOnce settings specifier .notYet moves s) (hBooked : Booked s) (hJob : job ∈ s.jobs)
    (hOwn : job.building = .vendor specifier m) (hStage : job.stage = .compiling source) :
    ∃ later, BuiltOnce settings specifier later (workMove s job :: moves) (s.advance job) := by
  have hKept : ∀ content, job.stage ≠ .persisting content := by simp [hStage]
  have hNext : (s.next job).1 = Gateway.afterLinking job.building
      ((s.gateway.compileAndLink s.world.fs job.building source).run s.world.trusted).1 := by
    simp only [next, hStage, Gateway.advance]
    rfl
  cases hLinked :
      ((s.gateway.compileAndLink s.world.fs job.building source).run s.world.trusted).1 with
  | error message =>
      rw [hLinked] at hNext
      refine ⟨.notYet, h.advance_calm hBooked hJob hOwn hKept ?_ ?_⟩
      · simp [workMove, hStage, hOwn, hNext, Gateway.afterLinking, Move.isLinking]
      · rw [hNext]
        trivial
  | ok output =>
      rw [hLinked, hOwn] at hNext
      have hLinks : (workMove s job).isLinking specifier = true := by
        simp [workMove, hStage, hOwn, hNext, Gateway.afterLinking, Move.isLinking]
      have hWriting : (workMove s job).isWriting specifier = false := by
        simp [workMove, hStage, hOwn, Move.isWriting]
      obtain ⟨hNone, hNoLink, hNoWrite⟩ := h.standing
      refine ⟨.linked output.toUTF8, h.advance (fun _ hMade => by cases hMade) ?_
        ⟨?_, ?_, ?_, { job with stage := (s.next job).1 }, ?_, ⟨m, hOwn⟩, hNext⟩
        (next_stage hOwn _ ?_)⟩
      · rw [next_fs hKept]
        exact h.files
      · show (s.gateway.store.shelf (s.next job).2.fs).lookup _ = none
        rw [next_fs hKept]
        exact hNone
      · rw [List.countP_cons_of_pos hLinks, hNoLink]
      · rw [List.countP_cons_of_neg (by simp [hWriting])]
        exact hNoWrite
      · exact List.mem_map.mpr ⟨job, hJob, if_pos rfl⟩
      · rw [hNext]
        rfl

/-- The specifier's job writes the module that it linked. -/
theorem BuiltOnce.advance_persisting {m : Package.Located} {content : ByteArray}
    {written : FileSystem} (h : BuiltOnce settings specifier (.linked content) moves s)
    (hOwn : job.building = .vendor specifier m) (hStage : job.stage = .persisting content)
    (hWritten : s.gateway.store.write s.world.fs specifier content = .ok written) :
    BuiltOnce settings specifier (.stored content) (workMove s job :: moves) (s.advance job) := by
  have hStored := Store.written_of_write (h.files.plain _) hWritten
  have hNext : s.next job = (.ended (.success content AssetKind.script.contentType),
      { s.world with fs := written }) := by
    simp only [next, hStage, hOwn, Gateway.advance, Gateway.persist, hWritten]
    rfl
  obtain ⟨-, hLinks, hNoWrite, -⟩ := h.standing
  refine h.advance (fun _ hMade => hMade) ?_ ⟨?_, ?_, ?_⟩ (next_stage hOwn _ ?_)
  · rw [hNext]
    exact hStored.onlyFiles h.files
  · show s.gateway.store.read? (s.next job).2.fs specifier = some content
    rw [hNext]
    exact hStored.read?
  · rw [List.countP_cons_of_neg (by simp [workMove, hStage, hOwn, Move.isLinking])]
    exact hLinks
  · rw [List.countP_cons_of_pos (by simp [workMove, hStage, hOwn, Move.isWriting]), hNoWrite]
  · rw [hNext]
    exact ⟨rfl, rfl⟩

/-- The specifier's job goes on. -/
theorem BuiltOnce.advance_own {m : Package.Located}
    (h : BuiltOnce settings specifier making moves s) (hBooked : Booked s) (hJob : job ∈ s.jobs)
    (hOwn : job.building = .vendor specifier m)
    (hWrites : ∀ content, job.stage = .persisting content →
      ∃ written, s.gateway.store.write s.world.fs specifier content = .ok written)
    (hGoing : ∀ outcome, job.stage ≠ .ended outcome) :
    ∃ later, BuiltOnce settings specifier later (workMove s job :: moves) (s.advance job) := by
  have hAgrees := h.jobs job hJob m hOwn
  cases hStage : job.stage with
  | checking =>
      refine ⟨making, h.advance_calm hBooked hJob hOwn (by simp [hStage]) ?_ ?_⟩
      · simp [workMove, hStage, hOwn, Move.isLinking]
      · cases hRead : s.gateway.store.read? s.world.fs specifier with
        | some content =>
            simp only [next, hStage, hOwn, Gateway.advance, Gateway.stored?, hRead]
            exact ⟨h.made_of_read hRead, rfl⟩
        | none =>
            simp only [next, hStage, hOwn, Gateway.advance, Gateway.stored?, hRead]
            exact h.notYet_of_missing hBooked hJob hOwn hStage hRead
  | reading =>
      rw [hStage] at hAgrees
      refine ⟨making, h.advance_calm hBooked hJob hOwn (by simp [hStage]) ?_ ?_⟩
      · simp [workMove, hStage, hOwn, Move.isLinking]
      · simp only [next, hStage, Gateway.advance]
        split
        · exact hAgrees
        · trivial
  | compiling source =>
      rw [hStage] at hAgrees
      obtain rfl : making = .notYet := hAgrees
      exact h.advance_compiling hBooked hJob hOwn hStage
  | persisting content =>
      rw [hStage] at hAgrees
      obtain rfl : making = .linked content := hAgrees
      obtain ⟨written, hWritten⟩ := hWrites content hStage
      exact ⟨.stored content, h.advance_persisting hOwn hStage hWritten⟩
  | ended outcome => exact absurd hStage (hGoing outcome)

/-! ### The outside -/

theorem BuiltOnce.change {fs : FileSystem} (h : BuiltOnce settings specifier making moves s)
    (hUntouched : s.gateway.store.Untouched s.world.fs fs) :
    BuiltOnce settings specifier making (.change :: moves)
      { s with world := { s.world with fs } } where
  configured := h.configured
  directory := h.directory
  files := by
    show Store.OnlyFiles (s.gateway.store.shelf fs)
    rw [hUntouched.shelf]
    exact h.files
  standing := by
    refine h.standing.keep rfl rfl ?_ ?_ (fun _ hJob _ _ _ => hJob)
    · show (s.gateway.store.shelf fs).lookup _ = _
      rw [hUntouched.shelf]
    · intro content hRead
      exact (hUntouched.entries specifier).trans hRead
  jobs := h.jobs
  clients := h.clients
  results := h.results
  replies := fun other r reply hMem => by
    rcases List.mem_cons.mp hMem with hMove | hOld
    · cases hMove
    · exact h.replies other r reply hOld

/-- A gateway that starts on a store of files. -/
theorem builtOnce_fresh {g : Gateway} {fs : FileSystem} (hSettings : g.settings = settings)
    (hDirectory : g.store.directory = settings.cacheDirectory)
    (hFiles : Store.OnlyFiles (g.store.shelf fs))
    (hStanding : Standing specifier moves (fresh g fs) making)
    (hReplies : ∀ name r reply, .answer name (.replied r reply) ∈ moves →
      r.AsksFor settings specifier → ReplyAgrees making.content? r.method reply) :
    BuiltOnce settings specifier making moves (fresh g fs) where
  configured := hSettings
  directory := hDirectory
  files := hFiles
  standing := hStanding
  jobs := fun job hJob => by cases hJob
  clients := fun other r p hClient => by cases hClient
  results := fun waiter hWaiter => by cases hWaiter
  replies := hReplies

theorem BuiltOnce.restart {g : Gateway} (h : BuiltOnce settings specifier making moves s)
    (hJobs : s.jobs = []) (hSettings : g.settings = settings)
    (hDirectory : g.store.directory = settings.cacheDirectory) :
    BuiltOnce settings specifier making (.restart :: moves) (fresh g s.world.fs) := by
  have hSame : g.store.directory = s.gateway.store.directory := hDirectory.trans h.directory.symm
  refine builtOnce_fresh hSettings hDirectory ?_ ?_ fun other r reply hMem => ?_
  · rw [Store.shelf_congr hSame]
    exact h.files
  · refine h.standing.keep rfl rfl ?_ ?_ ?_
    · show (g.store.shelf s.world.fs).lookup _ = _
      rw [Store.shelf_congr hSame]
    · intro content hRead
      exact (Store.read?_congr hSame s.world.fs specifier).trans hRead
    · intro job hJob
      rw [hJobs] at hJob
      cases hJob
  · rcases List.mem_cons.mp hMem with hMove | hOld
    · cases hMove
    · exact h.replies other r reply hOld

/-! ### Runs -/

/-- Every orderly step keeps the module from being built again. -/
theorem Orderly.builtOnce {written : Settings} (hNormal : written.normalize = .ok settings)
    (hStep : Orderly written s move after) (hBooked : Booked s)
    (h : BuiltOnce settings specifier making moves s) :
    ∃ later, BuiltOnce settings specifier later (move :: moves) after := by
  obtain ⟨⟨hMove, hChange⟩, hWrites, hRestart⟩ := hStep
  cases hMove with
  | arrive hNew => exact ⟨making, h.arrive hBooked hNew⟩
  | look hClient => exact ⟨making, h.look hBooked hClient⟩
  | join => exact ⟨making, h.join hBooked⟩
  | work hJob hGoing =>
      rename_i job
      by_cases hOwn : ∃ m, job.building = .vendor specifier m
      · obtain ⟨m, hBuilding⟩ := hOwn
        refine h.advance_own hBooked hJob hBuilding (fun content hStage => ?_) hGoing
        exact hWrites specifier m content _ _ (by rw [hBuilding, hStage])
      · refine ⟨making, h.advance_other (fun m hBuilding => hOwn ⟨m, hBuilding⟩) ?_⟩
        intro other m content hBuilding hStage
        exact hWrites other m content _ _ (by rw [hBuilding, hStage])
  | publish hJob hEnded => exact ⟨making, h.publish hBooked hJob hEnded⟩
  | answer hClient hSettled => exact ⟨making, h.settled hClient hSettled⟩
  | receive hDue hClient hReceived => exact ⟨making, h.receive hDue hClient hReceived⟩
  | leave =>
      exact ⟨making, h.dropClient _ rfl rfl fun _ _ _ hMove => by cases hMove⟩
  | change => exact ⟨making, h.change (hChange rfl)⟩
  | restart process hStart =>
      obtain ⟨hSettings, hDirectory, -⟩ := Gateway.ofSettings_spec hStart
      obtain hSame := Except.ok.inj (hSettings.symm.trans hNormal)
      exact ⟨making, h.restart (hRestart rfl) hSame (hSame ▸ hDirectory)⟩

/-- The module of a specifier is built once, whatever happens between the steps of requests, of
prewarming tasks and of jobs, and however often the gateway is started again while no job runs: its
file is linked at most once, its entry is written at most once, and every reply that a client may keep
has the same content, before and after restarts and whatever becomes of the package. The store has to be
empty at the start and left alone by others, and writes have to succeed. -/
theorem vendor_module_built_once {written : Settings} {compiler : Build.Compiler}
    {fs : FileSystem} {g : Gateway} (hStart : Gateway.ofSettings written compiler fs = .ok g)
    (hEmpty : g.store.shelf fs = []) (hRun : Run (Orderly written) (fresh g fs) moves s)
    (specifier : String) :
    moves.countP (Move.isLinking specifier) ≤ 1 ∧ moves.countP (Move.isWriting specifier) ≤ 1 ∧
      ∃ content, ∀ name r reply, .answer name (.replied r reply) ∈ moves →
        r.AsksFor g.settings specifier → reply.isLasting = true →
          reply = (Gateway.vendorResponse AssetKind.script.contentType content).fit r.method := by
  obtain ⟨hNormal, hDirectory, -⟩ := Gateway.ofSettings_spec hStart
  have hInvariant : Booked s ∧ ∃ making, BuiltOnce g.settings specifier making moves s := by
    refine hRun.invariant (I := fun moves s =>
      Booked s ∧ ∃ making, BuiltOnce g.settings specifier making moves s) ?_ ?_
    · refine ⟨booked_fresh g fs, .notYet, builtOnce_fresh rfl hDirectory ?_ ⟨?_, rfl, rfl⟩ ?_⟩
      · rw [hEmpty]
        exact Store.onlyFiles_nil
      · show (g.store.shelf fs).lookup _ = none
        rw [hEmpty]
        rfl
      · intro name r reply hMem
        cases hMem
    · rintro moves move s after ⟨hBooked, making, h⟩ hStep
      exact ⟨hStep.step.booked hBooked, hStep.builtOnce hNormal hBooked h⟩
  obtain ⟨-, making, h⟩ := hInvariant
  obtain ⟨hLinks, hWrites⟩ := h.standing.counts
  refine ⟨hLinks, hWrites, making.content?.getD ByteArray.empty, ?_⟩
  intro name r reply hMem hAsks hLasting
  obtain ⟨content, hMade, hReply⟩ := h.replies name r reply hMem hAsks hLasting
  rw [hMade]
  exact hReply

/-- A project with one package. -/
def pairFiles : FileSystem where
  root := .directory
    [("src", .directory []),
      ("node_modules", .directory
        [("a", .directory [("index.js", .file ⟨"export default 1;\n".toUTF8, 0⟩)])])]

/-- The gateway of that project with a compiler that changes nothing. The package is prewarmed, so it is
trusted. -/
def pairGateway : Gateway where
  settings := { prewarm := ["a"] }
  root := ["src"]
  store := { directory := ⟨".kiln/cache"⟩ }
  compiler := fun unit => .done unit.source

/-- Two clients miss the store, and the second one starts a job after the first one's job has ended. Then
the gateway is started again, and a third client comes. -/
def pairSchedule : List Choice :=
  [ask "first", ask "second", .look "first", .look "second", .look "first", .look "second",
    .look "first", .look "second", .join "first", .work 0, .work 0, .work 0, .work 0, .publish 0,
    .join "second", .work 0, .publish 0, .receive "first", .receive "second", .restart 2,
    ask "third", .look "third", .answer "third"]
where
  ask (name : String) : Choice := .arrive name (.request { target := "/modules/vendor/a" })

/-- All three clients receive the module that the first job linked and wrote. -/
theorem vendor_module_built_once_pair :
    let moves := (performs pairGateway.settings pairSchedule [] (fresh pairGateway pairFiles)).1
    (moves.countP (Move.isLinking "a") ≤ 1 ∧ moves.countP (Move.isWriting "a") ≤ 1 ∧
      ∃ content, ∀ name r reply, .answer name (.replied r reply) ∈ moves →
        r.AsksFor pairGateway.settings "a" → reply.isLasting = true →
          reply = (Gateway.vendorResponse AssetKind.script.contentType content).fit r.method) ∧
    ∀ name ∈ ["first", "second", "third"],
      .answer name (.replied { target := "/modules/vendor/a" }
        (Gateway.vendorResponse AssetKind.script.contentType "export default 1;\n".toUTF8)) ∈
          moves := by
  intro moves
  have hStart : Gateway.ofSettings pairGateway.settings pairGateway.compiler pairFiles =
      .ok pairGateway := rfl
  have hEmpty : pairGateway.store.shelf pairFiles = [] :=
    List.isEmpty_iff.mp (by decide +kernel)
  exact ⟨vendor_module_built_once hStart hEmpty (run_performs pairSchedule .refl) "a",
    by decide +kernel⟩

end Service

end ModuleGateway
