import ModuleGateway.Proofs.Gateway.Following
import ModuleGateway.Proofs.Gateway.Schedule
import ModuleGateway.Proofs.Gateway.Sequential

/-!
Requests for which nothing is served. On the way to such an answer a client only looks, so that whatever
paths clients make up, they start no job, put nothing into the store and make nothing trusted. Only the
path of a vendor module is sent to the CDN, and only if the gateway looked for that module in vain.
-/

namespace ModuleGateway

open Build

/-- Nothing is served: the request is passed on, or its client is sent to another address. -/
def Reply.IsMiss : Reply → Prop
  | .respond _ => False
  | .redirect _ => True
  | .pass => True

/-- The client that makes a move. -/
def Move.client? : Move → Option String
  | .arrive client _ => some client
  | .look client => some client
  | .join client _ => some client
  | .answer client _ => some client
  | .leave client => some client
  | .work .. | .publish .. | .change | .restart => none

namespace Gateway

variable {g : Gateway} {r : Request} {w : World} {seen now : World → Prop} {p : Progress}
  {specifier url : String}

/-! ### What a request has seen -/

/-- The request is for the module of a specifier that may be served, and no global stands for it. -/
structure Seeks (g : Gateway) (r : Request) (specifier : String) : Prop where
  method : r.method ≠ .other
  route : Route.ofPath? g.settings r.path = some (.vendor specifier)
  servable : Specifier.isServable specifier = true
  noGlobal : g.sources.global? specifier = none

/-- The request is for a module that was not found in the worlds that it has seen, and the CDN is used.
The module was missing in the store; and its package was not trusted, or the module not installed. -/
structure Redirects (g : Gateway) (r : Request) (seen : World → Prop) (specifier url : String) : Prop
    extends Seeks g r specifier where
  notStored : ∃ w, seen w ∧ g.store.read? w.fs specifier = none
  notProvided : ∃ w, seen w ∧
    (w.trusted.trusts specifier = false ∨ g.sources.locate? w.fs specifier = none)
  enabled : g.settings.cdnEnabled = true
  address : url = g.settings.cdnAddress ++ "/" ++ specifier

/-- What a request that has come this far has seen. -/
def HasSeen (g : Gateway) (r : Request) (seen : World → Prop) : Progress → Prop
  | .recalling specifier => g.Seeks r specifier
  | .trusting specifier | .locating specifier =>
    g.Seeks r specifier ∧ ∃ w, seen w ∧ g.store.read? w.fs specifier = none
  | .answered (.redirect url) => ∃ specifier, g.Redirects r seen specifier url
  | _ => True

theorem HasSeen.mono (hMono : ∀ w, seen w → now w) (h : g.HasSeen r seen p) : g.HasSeen r now p := by
  have hSome {P : World → Prop} : (∃ w, seen w ∧ P w) → ∃ w, now w ∧ P w :=
    fun ⟨w, hSeen, hThere⟩ => ⟨w, hMono w hSeen, hThere⟩
  cases p with
  | recalling specifier => exact h
  | trusting specifier => exact ⟨h.1, hSome h.2⟩
  | locating specifier => exact ⟨h.1, hSome h.2⟩
  | resolving path kind => trivial
  | validating file kind => trivial
  | building b => trivial
  | answered reply =>
      cases reply with
      | respond response => trivial
      | pass => trivial
      | redirect url =>
          obtain ⟨specifier, hRedirects⟩ := h
          exact ⟨specifier, { hRedirects with
            notStored := hSome hRedirects.notStored
            notProvided := hSome hRedirects.notProvided }⟩

theorem hasSeen_start (g : Gateway) (r : Request) (seen : World → Prop) : g.HasSeen r seen (g.start r) := by
  have hStart := g.start_spec r
  generalize g.start r = progress at hStart ⊢
  cases hStart with
  | recalling hMethod hRoute hServable hNoGlobal => exact ⟨hMethod, hRoute, hServable, hNoGlobal⟩
  | passed | shim | resolving => trivial

theorem start_of_seeks (h : g.Seeks r specifier) : g.start r = .recalling specifier := by
  rw [start, if_neg h.method]
  simp [h.route, h.servable, h.noGlobal]

theorem missed_eq_redirect :
    g.missed specifier = .redirect url ↔
      g.settings.cdnEnabled = true ∧ url = g.settings.cdnAddress ++ "/" ++ specifier := by
  unfold missed Package.Sources.cdnUrl? sources Package.Sources.ofSettings
  cases hEnabled : g.settings.cdnEnabled with
  | false => simp
  | true => simp [eq_comm]

theorem hasSeen_missed (hSeeks : g.Seeks r specifier)
    (hStored : ∃ w, seen w ∧ g.store.read? w.fs specifier = none)
    (hProvided : ∃ w, seen w ∧
      (w.trusted.trusts specifier = false ∨ g.sources.locate? w.fs specifier = none)) :
    g.HasSeen r seen (.answered (g.missed specifier)) := by
  cases hMissed : g.missed specifier with
  | respond response => trivial
  | pass => trivial
  | redirect url =>
      obtain ⟨hEnabled, hAddress⟩ := missed_eq_redirect.mp hMissed
      exact ⟨specifier, hSeeks, hStored, hProvided, hEnabled, hAddress⟩

/-- A look adds what there is to be seen at its moment. -/
theorem HasSeen.look (hSeen : seen w) (h : g.HasSeen r seen p) : g.HasSeen r seen (g.look r w p) := by
  have hLook := g.look_spec r w p
  generalize g.look r w p = next at hLook ⊢
  cases hLook with
  | missing hMissing => exact ⟨h, w, hSeen, hMissing⟩
  | untrusted hTrusted => exact hasSeen_missed h.1 h.2 ⟨w, hSeen, .inl hTrusted⟩
  | unlocated hNowhere => exact hasSeen_missed h.1 h.2 ⟨w, hSeen, .inr hNowhere⟩
  | trusted | answered => exact h
  | recalled | located | resolved | unresolved | gone | fresh | stale | building => trivial

theorem hasSeen_looks (hSeen : seen w) (n : Nat) (h : g.HasSeen r seen p) :
    g.HasSeen r seen (g.looks r w n p) := by
  induction n generalizing p with
  | zero => exact h
  | succ n ih => exact ih (h.look hSeen)

/-! ### Handling a request that is not served -/

theorem not_isMiss_replyOf (b : Building) (outcome : Outcome) (method : Method) :
    ¬((g.replyOf b outcome).fit method).IsMiss := by
  obtain ⟨response, hReply, -⟩ := replyOf_serves g b outcome method
  rw [hReply]
  exact id

theorem fit_eq_redirect {reply : Reply} {method : Method} :
    reply.fit method = .redirect url ↔ reply = .redirect url := by
  cases reply with
  | respond response =>
      unfold Reply.fit
      dsimp only
      split <;> simp
  | redirect other => exact Iff.rfl
  | pass => exact Iff.rfl

/-- A request that is not served changes nothing. -/
theorem handle_miss (h : (g.handle w r).1.IsMiss) : (g.handle w r).2 = w := by
  rcases looks_settles g r w with ⟨reply, hAnswered⟩ | ⟨b, hBuilding⟩
  · rw [handle_of_answered g hAnswered]
  · rw [handle_of_building g hBuilding] at h
    exact absurd h (not_isMiss_replyOf b _ _)

/-- A request is sent to the CDN exactly when it is for a module that is not found. -/
theorem handle_redirect_iff :
    (g.handle w r).1 = .redirect url ↔ ∃ specifier, g.Redirects r (w = ·) specifier url := by
  constructor
  · intro h
    rcases looks_settles g r w with ⟨reply, hAnswered⟩ | ⟨b, hBuilding⟩
    · rw [handle_of_answered g hAnswered] at h
      obtain rfl := fit_eq_redirect.mp h
      have hSeen := hasSeen_looks rfl longestLook (hasSeen_start g r (w = ·))
      rw [hAnswered] at hSeen
      exact hSeen
    · rw [handle_of_building g hBuilding] at h
      have hMiss : ((g.replyOf b (g.work (w.join onlyClient b) b).1).fit r.method).IsMiss := by
        rw [h]
        trivial
      exact absurd hMiss (not_isMiss_replyOf b _ _)
  · rintro ⟨specifier, hSeeks, ⟨_, rfl, hStored⟩, ⟨_, rfl, hProvided⟩, hEnabled, hAddress⟩
    have hMissed : g.looks r w longestLook (g.start r) = .answered (g.missed specifier) := by
      rw [looks_longestLook, start_of_seeks hSeeks]
      rcases hProvided with hTrusted | hLocated
      · simp [look, hStored, hTrusted]
      · cases hTrusted : w.trusted.trusts specifier <;> simp [look, hStored, hTrusted, hLocated]
    rw [handle_of_answered g hMissed]
    exact fit_eq_redirect.mpr (missed_eq_redirect.mpr ⟨hEnabled, hAddress⟩)

end Gateway

/-- What a client that has come this far has seen. -/
def Pursuit.HasSeen (g : Gateway) (seen : World → Prop) : Pursuit → Prop
  | .asking r progress => g.HasSeen r seen progress
  | .warming _ => True

theorem Pursuit.HasSeen.mono {g : Gateway} {seen now : World → Prop} {p : Pursuit}
    (hMono : ∀ w, seen w → now w) (h : p.HasSeen g seen) : p.HasSeen g now := by
  cases p with
  | asking r progress => exact Gateway.HasSeen.mono hMono h
  | warming t => trivial

theorem Pursuit.HasSeen.look {g : Gateway} {w : World} {seen : World → Prop} {p : Pursuit}
    (h : p.HasSeen g seen) (hSeen : seen w) : (p.look g w).HasSeen g seen := by
  cases p with
  | asking r progress => exact Gateway.HasSeen.look hSeen h
  | warming t => trivial

namespace Service

variable {settings : Settings} {moves earlier later : List Move} {move : Move}
  {first s t after u : Service} {name : String} {p : Pursuit} {b : Building} {r : Request}
  {reply : Reply}

/-! ### Clients that wait for builds -/

theorem settled?_of_building (h : p.building? = some b) : p.settled? = none := by
  obtain ⟨r, rfl⟩ | rfl := Pursuit.building_cases h
  · rfl
  · rfl

/-- What a client receives of a build is served. -/
theorem not_isMiss_of_receive {g : Gateway} {outcome : Outcome}
    (h : p.receive? g outcome = some (.replied r reply)) : ¬reply.IsMiss := by
  cases p with
  | asking asked progress =>
      cases progress with
      | building b =>
          obtain ⟨rfl, rfl⟩ := Result.replied.inj (Option.some.inj h)
          exact Gateway.not_isMiss_replyOf b _ _
      | _ => cases h
  | warming t => cases t <;> cases h

/-- Until a client comes again, only its looks change how far it has come. -/
theorem Step.client_kept {P : Gateway → Pursuit → Prop} (hStep : Step settings s move after)
    (hMove : ∀ errand, move ≠ .arrive name errand)
    (hLook : ∀ p, P s.gateway p → P s.gateway (p.look s.gateway s.world))
    (h : ∀ p, (name, p) ∈ s.clients → P s.gateway p) :
    ∀ p, (name, p) ∈ after.clients → P after.gateway p := by
  cases hStep with
  | @arrive newcomer errand =>
      intro p hClient
      rcases List.mem_append.mp hClient with hOld | hLast
      · exact h p hOld
      · obtain rfl : name = newcomer := congrArg Prod.fst (List.mem_singleton.mp hLast)
        exact absurd rfl (hMove errand)
  | @look looker standing hThere =>
      intro p hClient
      rcases mem_setClient hClient with hMoved | hOld
      · obtain ⟨rfl, rfl⟩ := Prod.mk.inj hMoved
        exact hLook standing (h standing hThere)
      · exact h p hOld
  | join => exact h
  | work => exact h
  | publish => exact h
  | answer => exact fun p hClient => h p (List.mem_filter.mp hClient).1
  | receive => exact fun p hClient => h p (List.mem_filter.mp hClient).1
  | leave => exact fun p hClient => h p (List.mem_filter.mp hClient).1
  | change => exact h
  | restart => exact fun p hClient => by cases hClient

/-- A client needs a build, or is not there. -/
def Committed (name : String) (s : Service) : Prop :=
  ∀ p, (name, p) ∈ s.clients → ∃ b, p.building? = some b

theorem committed_dropClient (s : Service) (name : String) : Committed name (s.dropClient name) := by
  intro p hClient
  obtain ⟨-, hOther⟩ := List.mem_filter.mp hClient
  simp at hOther

/-- Until it comes again, a client that needs a build keeps it. -/
theorem Run.committed (hRun : Run (Step settings) s later t)
    (hOnce : ∀ errand, .arrive name errand ∉ later) (h : Committed name s) : Committed name t := by
  induction hRun with
  | refl => exact h
  | step run hStep ih =>
      have hBefore := ih fun errand => List.not_mem_of_not_mem_cons (hOnce errand)
      refine hStep.client_kept (P := fun _ p => ∃ b, p.building? = some b)
        (fun errand => (List.ne_of_not_mem_cons (hOnce errand)).symm) ?_ hBefore
      rintro p ⟨b, hBuilding⟩
      exact ⟨b, by rw [look_of_building _ _ hBuilding, hBuilding]⟩

/-- A client that needs a build is served. -/
theorem not_committed_of_miss (hAnswer : Step settings t (.answer name (.replied r reply)) u)
    (hMiss : reply.IsMiss) : ¬Committed name t := by
  intro h
  cases hAnswer with
  | answer hClient hSettled =>
      obtain ⟨b, hBuilding⟩ := h _ hClient
      rw [settled?_of_building hBuilding] at hSettled
      cases hSettled
  | receive hDue hClient hReceived => exact not_isMiss_of_receive hReceived hMiss

/-- Whoever leaves without having needed a build leaves no trace. -/
theorem dropClient_of_miss (hBooked : Booked t)
    (hAnswer : Step settings t (.answer name (.replied r reply)) u) (hMiss : reply.IsMiss) :
    u.world = t.world ∧ u.jobs = t.jobs := by
  have hFree : ∀ waiter ∈ t.world.coordinator.waiting, waiter.client ≠ name := by
    rintro waiter hWaiter rfl
    obtain ⟨p, b, hClient, hBuilding, -⟩ := hBooked.waiters waiter hWaiter
    refine not_committed_of_miss hAnswer hMiss fun q hThere => ⟨b, ?_⟩
    rw [client_unique hBooked.names hThere hClient, hBuilding]
  have hCancel : t.world.coordinator.cancel name = t.world.coordinator := by
    rw [Coordinator.cancel, List.filter_eq_self.mpr fun waiter hWaiter => by simpa using hFree waiter hWaiter]
  have hDropped : (t.dropClient name).world = t.world := by rw [dropClient, hCancel]
  cases hAnswer with
  | answer => exact ⟨hDropped, rfl⟩
  | receive => exact ⟨hDropped, rfl⟩

/-! ### What a client has seen -/

/-- The world at some moment of a run. -/
def Saw (settings : Settings) (first t : Service) (w : World) : Prop :=
  ∃ before s later, Run (Step settings) first before s ∧ Run (Step settings) s later t ∧ s.world = w

theorem Saw.step {w : World} (hStep : Step settings t move u) (h : Saw settings first t w) :
    Saw settings first u w := by
  obtain ⟨before, s, later, hBefore, hLater, hWorld⟩ := h
  exact ⟨before, s, move :: later, hBefore, hLater.step hStep, hWorld⟩

theorem Run.saw (hRun : Run (Step settings) first moves t) : Saw settings first t t.world :=
  ⟨moves, t, [], hRun, .refl, rfl⟩

/-- What a client comes to has grounds in what was to be seen since it came. -/
theorem Run.hasSeen {errand : Errand} (hArrive : Step settings s (.arrive name errand) first)
    (hRun : Run (Step settings) first later t) (hOnce : ∀ errand, .arrive name errand ∉ later) :
    ∀ p, (name, p) ∈ t.clients → p.HasSeen t.gateway (Saw settings first t) := by
  induction hRun with
  | refl =>
      cases hArrive with
      | arrive hNew =>
          intro p hClient
          rcases List.mem_append.mp hClient with hOld | hLast
          · exact absurd rfl (hNew _ hOld)
          · obtain rfl : p = errand.begin s.gateway := congrArg Prod.snd (List.mem_singleton.mp hLast)
            cases errand with
            | request r => exact Gateway.hasSeen_start _ _ _
            | prewarm specifier => trivial
  | @step moves move u after run hStep ih =>
      have hBefore := ih fun errand => List.not_mem_of_not_mem_cons (hOnce errand)
      have hNow := hStep.client_kept (P := fun g p => p.HasSeen g (Saw settings first u))
        (fun errand => (List.ne_of_not_mem_cons (hOnce errand)).symm) (fun _ hSeen => hSeen.look run.saw)
        hBefore
      exact fun p hClient => (hNow p hClient).mono fun _ => Saw.step hStep

/-- A client that is sent to the CDN has come so far. -/
theorem redirects_of_answer {seen : World → Prop} {url : String}
    (h : ∀ p, (name, p) ∈ t.clients → p.HasSeen t.gateway seen)
    (hAnswer : Step settings t (.answer name (.replied r (.redirect url))) u) :
    ∃ specifier, t.gateway.Redirects r seen specifier url := by
  have hFound : (name, Pursuit.asking r (.answered (.redirect url))) ∈ t.clients := by
    cases hAnswer with
    | @answer _ p _ hClient hSettled =>
        cases p with
        | asking asked progress =>
            cases progress with
            | answered given =>
                obtain ⟨rfl, hReply⟩ := Result.replied.inj (Option.some.inj hSettled)
                rw [← Gateway.fit_eq_redirect.mp hReply]
                exact hClient
            | _ => cases hSettled
        | warming task => cases task <;> cases hSettled
    | receive hDue hClient hReceived => exact absurd trivial (not_isMiss_of_receive hReceived)
  exact h _ hFound

/-- A client's step on the way to an answer with which nothing is served leaves no trace. -/
theorem Step.of_miss (hBooked : Booked s) (hStep : Step settings s move after)
    (hMove : move.client? = some name) (hLater : Run (Step settings) after later t)
    (hOnce : ∀ errand, .arrive name errand ∉ later)
    (hAnswer : Step settings t (.answer name (.replied r reply)) u) (hMiss : reply.IsMiss) :
    after.world = s.world ∧ after.jobs = s.jobs := by
  have hFree : ¬Committed name after := fun h =>
    not_committed_of_miss hAnswer hMiss (hLater.committed hOnce h)
  cases hStep with
  | arrive => exact ⟨rfl, rfl⟩
  | look => exact ⟨rfl, rfl⟩
  | @join _ p b hClient hBuilding =>
      cases hMove
      refine absurd (fun q hThere => ⟨b, ?_⟩) hFree
      rw [client_unique hBooked.names hThere hClient, hBuilding]
  | answer =>
      cases hMove
      exact absurd (committed_dropClient s name) hFree
  | receive =>
      cases hMove
      exact absurd (committed_dropClient s _) hFree
  | leave =>
      cases hMove
      exact absurd (committed_dropClient s name) hFree
  | work => cases hMove
  | publish => cases hMove
  | change => cases hMove
  | restart => cases hMove

/-- Requests for which nothing is served have no effects. In any reachable state, a request that is handled
at once and passed on or sent to another address leaves the world as it is: what is trusted, all files and
with them the store, the jobs that run, and what the compiler was given. It is sent to an address exactly
when it asks for a module that may be served, no global stands for it, it is not in the store, its package
is not trusted or it is not installed, and the CDN is used; the address is the module's there.
The same holds when other clients and jobs go on between the steps of the request. Each step that its
client makes leaves the world and the jobs as they are, and when the client is sent to an address, all this
was so at some moments since it came. -/
theorem misses_leave_no_trace {g : Gateway} {fs : FileSystem}
    (hRun : Run (Step settings) (fresh g fs) earlier s) :
    (∀ r, (s.gateway.handle s.world r).1.IsMiss → (s.gateway.handle s.world r).2 = s.world) ∧
    (∀ r url, (s.gateway.handle s.world r).1 = .redirect url ↔
      ∃ specifier, s.gateway.Redirects r (s.world = ·) specifier url) ∧
    ∀ name move after later t r reply u, Step settings s move after → move.client? = some name →
      Run (Step settings) after later t → (∀ errand, .arrive name errand ∉ later) →
      Step settings t (.answer name (.replied r reply)) u → reply.IsMiss →
        (after.world = s.world ∧ after.jobs = s.jobs) ∧ (u.world = t.world ∧ u.jobs = t.jobs) ∧
        ∀ errand url, move = .arrive name errand → reply = .redirect url →
          ∃ specifier, t.gateway.Redirects r (Saw settings after t) specifier url := by
  refine ⟨fun r => Gateway.handle_miss, fun r url => Gateway.handle_redirect_iff, ?_⟩
  intro name move after later t r reply u hStep hMove hLater hOnce hAnswer hMiss
  have hBooked : Booked s := hRun.invariant (booked_fresh g fs) fun h hNext => hNext.booked h
  have hBooks : Booked t :=
    hLater.invariant (hStep.booked hBooked) fun h hNext => hNext.booked h
  refine ⟨hStep.of_miss hBooked hMove hLater hOnce hAnswer hMiss, dropClient_of_miss hBooks hAnswer hMiss, ?_⟩
  rintro errand url rfl rfl
  exact redirects_of_answer (hLater.hasSeen hStep hOnce) hAnswer

/-- A project with one source file and no packages. -/
def bareFiles : FileSystem where
  root := .directory [("src", .directory [("a.js", .file ⟨"export default 1;\n".toUTF8, 0⟩)])]

/-- The gateway of that project, which uses the CDN. -/
def bareGateway : Gateway where
  settings := { cdnEnabled := true }
  root := ["src"]
  store := { directory := ⟨".kiln/cache"⟩ }
  compiler := fun unit => .done unit.source

def strayRequest : Request where
  target := "/modules/vendor/b?x"

/-- One client waits for the source file. -/
def busyRun : List Move × Service :=
  performs bareGateway.settings [.arrive "busy" (.request { target := "/modules/a.js" }), .look "busy",
    .look "busy", .join "busy", .work 0] [] (fresh bareGateway bareFiles)

/-- Another client comes for a package. -/
def strayStart : Service :=
  { busyRun.2 with clients := busyRun.2.clients ++ [("stray", .asking strayRequest
      (busyRun.2.gateway.start strayRequest))] }

/-- It looks twice, and in between the job goes on. -/
def strayRun : List Move × Service :=
  performs bareGateway.settings [.look "stray", .work 0, .look "stray"] [] strayStart

theorem misses_leave_no_trace_stray :
    (busyRun.2.gateway.handle busyRun.2.world strayRequest).2 = busyRun.2.world ∧
      strayStart.world = busyRun.2.world ∧
      (strayRun.2.dropClient "stray").world = strayRun.2.world ∧
      (strayRun.2.dropClient "stray").jobs = strayRun.2.jobs ∧
      ∃ specifier, strayRun.2.gateway.Redirects strayRequest
        (Saw bareGateway.settings strayStart strayRun.2) specifier "https://esm.sh/b" := by
  have hBusy : Run (Step bareGateway.settings) (fresh bareGateway bareFiles) busyRun.1 busyRun.2 :=
    (run_performs _ .refl).mono fun _ _ _ hStep => hStep.step
  have hArrive : Step bareGateway.settings busyRun.2 (.arrive "stray" (.request strayRequest)) strayStart :=
    .arrive (by decide +kernel) trivial
  have hStray : Run (Step bareGateway.settings) strayStart strayRun.1 strayRun.2 :=
    (run_performs _ .refl).mono fun _ _ _ hStep => hStep.step
  have hOnce : ∀ errand, .arrive "stray" errand ∉ strayRun.1 := by
    have hNone : strayRun.1.all (fun move => !(move matches .arrive ..)) = true := by decide +kernel
    intro errand hMem
    cases List.all_eq_true.mp hNone _ hMem
  have hClient : ("stray", .asking strayRequest (.answered (.redirect "https://esm.sh/b"))) ∈
      strayRun.2.clients := by decide +kernel
  have hAnswer : Step bareGateway.settings strayRun.2
      (.answer "stray" (.replied strayRequest (.redirect "https://esm.sh/b")))
      (strayRun.2.dropClient "stray") := .answer hClient rfl
  obtain ⟨hHandled, hRedirect, hVisit⟩ := misses_leave_no_trace hBusy
  obtain ⟨⟨hWorld, -⟩, ⟨hLeft, hJobs⟩, hSent⟩ :=
    hVisit _ _ _ _ _ _ _ _ hArrive rfl hStray hOnce hAnswer trivial
  have hMiss : (busyRun.2.gateway.handle busyRun.2.world strayRequest).1 =
      .redirect "https://esm.sh/b" := by decide +kernel
  exact ⟨hHandled _ (by rw [hMiss]; trivial), hWorld, hLeft, hJobs, hSent _ _ rfl rfl⟩

end Service

end ModuleGateway
