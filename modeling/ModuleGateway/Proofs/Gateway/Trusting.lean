import ModuleGateway.Proofs.Gateway.Provenance

/-!
What a running gateway trusts: the packages that it started with, and those of the links that jobs made
since then. A body from the store may be older than the last start, and nobody looks at its links, so
they may lead to packages that are not trusted any more.
-/

namespace ModuleGateway

open Build Specifier

namespace Move

/-- The installed specifiers that a step resolved. -/
def resolved : Move → List String
  | .work _ _ _ resolved => resolved
  | _ => []

end Move

namespace Service

/-- The installed specifiers that were resolved since the gateway was started last. -/
def resolvedSinceStart (moves : List Move) : List String :=
  (moves.takeWhile (· ≠ .restart)).flatMap Move.resolved

variable {settings : Settings} {moves : List Move} {move : Move} {s after : Service}
  {name : String} {job : Job}

theorem resolvedSinceStart_cons (hMove : move ≠ .restart) :
    resolvedSinceStart (move :: moves) = move.resolved ++ resolvedSinceStart moves := by
  rw [resolvedSinceStart, List.takeWhile_cons_of_pos (by simpa using hMove), List.flatMap_cons]
  rfl

theorem resolvedSinceStart_restart (moves : List Move) :
    resolvedSinceStart (.restart :: moves) = [] := by
  rw [resolvedSinceStart, List.takeWhile_cons_of_neg (by simp)]
  rfl

/-! ### The invariant -/

/-- The gateway trusts the packages that it started with and those that were resolved since. -/
def TrustsGrounds (moves : List Move) (s : Service) : Prop :=
  ∀ name, s.world.trusted.contains name = true ↔
    name ≠ "" ∧ name ∈ (s.gateway.seeds s.origin ++ resolvedSinceStart moves).map packageName

theorem trustsGrounds_fresh {g : Gateway} {fs : FileSystem} (hNone : resolvedSinceStart moves = []) :
    TrustsGrounds moves (fresh g fs) := by
  intro name
  rw [hNone, List.append_nil]
  show (Trust.Registry.empty.extend (g.seeds fs)).contains name = true ↔ _
  rw [Trust.Registry.contains_extend, Trust.Registry.contains_empty]
  simp [fresh]

/-- A step that resolves nothing leaves the grounds for trust as they are. -/
theorem TrustsGrounds.keep (h : TrustsGrounds moves s) (hMove : move ≠ .restart)
    (hNone : move.resolved = []) (hGateway : after.gateway = s.gateway)
    (hOrigin : after.origin = s.origin) (hTrusted : after.world.trusted = s.world.trusted) :
    TrustsGrounds (move :: moves) after := by
  intro name
  rw [resolvedSinceStart_cons hMove, hNone, hGateway, hOrigin, hTrusted]
  exact h name

/-- Compiling a file trusts the packages that its output is linked to, and no others. -/
theorem contains_compileAndLink (g : Gateway) (fs : FileSystem) (b : Building) (source name : String)
    (trusted : Trust.Registry) :
    ((g.compileAndLink fs b source).run trusted).2.contains name = true ↔
      trusted.contains name = true ∨
        (name ≠ "" ∧ ∃ t ∈ g.resolves fs b (.compiling source), packageName t = name) := by
  simp only [Gateway.compileAndLink, Gateway.resolves]
  cases g.compiler ⟨b.file, source, b.kind⟩ with
  | failed message =>
      rw [Relink.trusted_pure]
      simp
  | panicked message =>
      rw [Relink.trusted_pure]
      simp
  | done output =>
      cases b.importer? with
      | none =>
          rw [Relink.trusted_pure]
          simp
      | some importer =>
          rw [← Relink.contains_link g.sources fs importer output name trusted]
          simp only [StateT.run, bind, StateT.bind]
          rcases Relink.link g.sources fs importer output trusted with ⟨_ | _, later⟩ <;> rfl

theorem contains_next (name : String) :
    (s.next job).2.trusted.contains name = true ↔ s.world.trusted.contains name = true ∨
      (name ≠ "" ∧ ∃ t ∈ s.gateway.resolves s.world.fs job.building job.stage,
        packageName t = name) := by
  have hNext := s.next_spec job
  generalize job.stage = stage, (s.next job).1 = next, (s.next job).2 = after at hNext ⊢
  cases hNext with
  | @compiled source linked trusted hRun =>
      have hContains := contains_compileAndLink s.gateway s.world.fs job.building source name
        s.world.trusted
      rwa [hRun] at hContains
  | stored | missing | read | unreadable | persisted | ended => simp [Gateway.resolves]

theorem TrustsGrounds.advance (h : TrustsGrounds moves s) (job : Job) :
    TrustsGrounds (workMove s job :: moves) (s.advance job) := by
  intro name
  rw [resolvedSinceStart_cons (by simp [workMove])]
  show (s.next job).2.trusted.contains name = true ↔
    name ≠ "" ∧ name ∈ (s.gateway.seeds s.origin ++
      (s.gateway.resolves s.world.fs job.building job.stage ++ resolvedSinceStart moves)).map
        packageName
  rw [contains_next, h name, ← and_or_left]
  simp only [List.map_append, List.mem_append, List.mem_map]
  refine and_congr_right fun _ => ?_
  rw [or_assoc]
  exact or_congr_right or_comm

theorem Step.trustsGrounds (hStep : Step settings s move after) (h : TrustsGrounds moves s) :
    TrustsGrounds (move :: moves) after := by
  cases hStep with
  | arrive => exact h.keep (by simp) rfl rfl rfl rfl
  | look => exact h.keep (by simp) rfl rfl rfl rfl
  | join => exact h.keep (by simp) rfl rfl rfl rfl
  | work => exact h.advance _
  | publish => exact h.keep (by simp) rfl rfl rfl rfl
  | answer => exact h.keep (by simp) rfl rfl rfl rfl
  | receive => exact h.keep (by simp) rfl rfl rfl rfl
  | leave => exact h.keep (by simp) rfl rfl rfl rfl
  | change => exact h.keep (by simp) rfl rfl rfl rfl
  | restart => exact trustsGrounds_fresh (resolvedSinceStart_restart moves)

theorem Run.trustsGrounds {g : Gateway} {fs : FileSystem}
    (hRun : Run (Secluded settings) (fresh g fs) moves s) : TrustsGrounds moves s :=
  hRun.invariant (trustsGrounds_fresh rfl) fun h hStep => hStep.step.trustsGrounds h

/-! ### Links that are served -/

theorem resolved_of_linked? {content : ByteArray} {targets : List String}
    (h : move.linked? = some (content, targets)) : move.resolved = targets := by
  unfold Move.linked? at h
  split at h
  · cases h
    rfl
  · cases h
    rfl
  · cases h

/-- What the gateway linked since it was started, it resolved since then. -/
theorem mem_resolvedSinceStart {content : ByteArray} {targets : List String} {target : String}
    (hLinked : Linked (moves.takeWhile (· ≠ .restart)) content targets) (hTarget : target ∈ targets) :
    target ∈ resolvedSinceStart moves := by
  obtain ⟨move, hMove, hTargets⟩ := hLinked
  exact List.mem_flatMap.mpr ⟨move, hMove, resolved_of_linked? hTargets ▸ hTarget⟩

/-- A client that receives the body of a module can follow those of its links whose packages the gateway
started with, or that some job resolved since the gateway was started last, and no others. All links are
among these when the body was linked since then; a body from the store may be older. -/
theorem served_link_trusted_iff {written : Settings} {compiler : Compiler} {fs : FileSystem}
    {g : Gateway} {r : Request} {reply : Reply} {body : ByteArray}
    (hStart : Gateway.ofSettings written compiler fs = .ok g) (hEmpty : g.store.shelf fs = [])
    (hRun : Run (Secluded written) (fresh g fs) (.answer name (.replied r reply) :: moves) s)
    (hMethod : r.method ≠ .head) (hBody : reply.moduleBody? = some body) :
    (∃ targets, Linked moves body targets) ∧
      (∀ targets, Linked moves body targets → ∀ target ∈ targets,
        (s.world.trusted.trusts target = true ↔ packageName target ≠ "" ∧
          packageName target ∈
            (s.gateway.seeds s.origin ++ resolvedSinceStart moves).map packageName)) ∧
      (∀ targets, Linked (moves.takeWhile (· ≠ .restart)) body targets → ∀ target ∈ targets,
        packageName target ≠ "" → s.world.trusted.trusts target = true) := by
  have hTrust (target : String) : s.world.trusted.trusts target = true ↔
      packageName target ≠ "" ∧ packageName target ∈
        (s.gateway.seeds s.origin ++ resolvedSinceStart moves).map packageName := by
    rw [Trust.Registry.trusts_eq, hRun.trustsGrounds, resolvedSinceStart_cons (by simp)]
    rfl
  refine ⟨?_, fun _ _ target _ => hTrust target, fun targets hLinked target hTarget hName => ?_⟩
  · cases hRun with
    | step hBefore hStep =>
        exact (hBefore.traced hStart hEmpty).replied hStep.step hMethod body hBody
  · refine (hTrust target).mpr ⟨hName, List.mem_map_of_mem ?_⟩
    exact List.mem_append_right _ (mem_resolvedSinceStart hLinked hTarget)

/-- A project with two packages, one of which imports the other. -/
def chainFiles : FileSystem where
  root := .directory
    [("src", .directory []),
      ("node_modules", .directory
        [("a", .directory [("index.js", .file ⟨"import \"b\";\n".toUTF8, 0⟩)]),
          ("b", .directory [("index.js", .file ⟨"export default 1;\n".toUTF8, 0⟩)])])]

/-- The gateway of that project with a compiler that changes nothing. The first package is prewarmed. -/
def chainGateway : Gateway where
  settings := { prewarm := ["a"] }
  root := ["src"]
  store := { directory := ⟨".kiln/cache"⟩ }
  compiler := fun unit => .done unit.source

/-- The first package's module, linked. -/
def chainBody : ByteArray :=
  "import \"/modules/vendor/b\";\n".toUTF8

/-- A client asked for the first package's module and received it. -/
def chainAnswer : Move :=
  .answer "reader" (.replied { target := "/modules/vendor/a" }
    (Gateway.vendorResponse AssetKind.script.contentType chainBody))

/-- A client asks for the first package's module and waits for its build. -/
def chainAsked : List Choice :=
  [.arrive "reader" (.request { target := "/modules/vendor/a" }), .look "reader", .look "reader",
    .look "reader", .join "reader", .work 0, .work 0, .work 0, .work 0, .publish 0, .receive "reader"]

/-- The first package's module is prewarmed, and a client asks for it after another start. -/
def chainRestarted : List Choice :=
  [.arrive "task" (.prewarm "a"), .look "task", .look "task", .join "task", .work 0, .work 0, .work 0,
    .work 0, .publish 0, .receive "task", .restart 2,
    .arrive "reader" (.request { target := "/modules/vendor/a" }), .look "reader", .answer "reader"]

/-- The link can be followed while the gateway that made it runs. -/
theorem served_link_trusted_at_once :
    let run := performs chainGateway.settings chainAsked [] (fresh chainGateway chainFiles)
    run.1 = chainAnswer :: run.1.tail ∧ Linked run.1.tail chainBody ["b"] ∧
      run.2.world.trusted.trusts "b" = true := by
  intro run
  obtain ⟨hMoves, hLinked, hResolved⟩ : run.1 = chainAnswer :: run.1.tail ∧
      Linked run.1.tail chainBody ["b"] ∧ "b" ∈ resolvedSinceStart run.1.tail := by decide +kernel
  have hRun : Run (Secluded chainGateway.settings) (fresh chainGateway chainFiles)
      (chainAnswer :: run.1.tail) run.2 := by
    rw [← hMoves]
    exact (run_performs chainAsked .refl).mono fun _ _ _ hStep => hStep.toSecluded
  have hStart : Gateway.ofSettings chainGateway.settings chainGateway.compiler chainFiles =
      .ok chainGateway := rfl
  have hEmpty : chainGateway.store.shelf chainFiles = [] :=
    List.isEmpty_iff.mp (by decide +kernel)
  obtain ⟨-, hTrusted, -⟩ := served_link_trusted_iff hStart hEmpty hRun (by decide) rfl
  refine ⟨hMoves, hLinked, (hTrusted ["b"] hLinked "b" List.mem_cons_self).mpr ⟨by decide, ?_⟩⟩
  exact List.mem_map_of_mem (List.mem_append_right _ hResolved)

/-- After another start the body comes from the store, and its link is refused: nothing else imports the
second package. -/
theorem served_link_refused_after_restart :
    let run := performs chainGateway.settings chainRestarted [] (fresh chainGateway chainFiles)
    Gateway.ofSettings chainGateway.settings chainGateway.compiler chainFiles = .ok chainGateway ∧
      chainGateway.store.shelf chainFiles = [] ∧
      Run (Secluded chainGateway.settings) (fresh chainGateway chainFiles) run.1 run.2 ∧
      run.1.head? = some chainAnswer ∧ Linked run.1 chainBody ["b"] ∧
      run.2.world.trusted.trusts "b" = false ∧
      (run.2.gateway.handle run.2.world { target := "/modules/vendor/b" }).1 = .pass := by
  intro run
  refine ⟨rfl, List.isEmpty_iff.mp (by decide +kernel), ?_, by decide +kernel⟩
  exact (run_performs chainRestarted .refl).mono fun _ _ _ hStep => hStep.toSecluded

end Service

end ModuleGateway
