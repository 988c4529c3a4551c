import ModuleGateway.Proofs.Gateway.Looking
import ModuleGateway.Proofs.Gateway.Routing
import ModuleGateway.Proofs.Package.Resolve

/-!
Following the path that an import was linked to. The linker accepts whatever can be located among the
installed packages, the router only what it holds for a servable specifier; a specifier that ends in a
slash is one of those on which the two disagree.
-/

namespace ModuleGateway.Gateway

variable (g : Gateway) {r : Request} {w : World} {specifier : String}

theorem start_publicPath (hMethod : r.method ≠ .other)
    (hPath : r.path = g.sources.publicPath specifier) :
    g.start r =
      if !Specifier.isServable specifier then .answered .pass
      else
        match g.sources.global? specifier with
        | some expression =>
          .answered (transientResponse .script (Diagnostic.globalShim expression))
        | none => .recalling specifier := by
  have hRoute : Route.ofPath? g.settings r.path = some (.vendor specifier) := by
    rw [hPath]
    exact Route.ofPath?_publicPath g.settings specifier
  rw [start, if_neg hMethod]
  split
  · rename_i hNone
    rw [hRoute] at hNone
    cases hNone
  · rename_i path hSource
    rw [hRoute] at hSource
    cases hSource
  · rename_i other hVendor
    rw [hRoute] at hVendor
    cases hVendor
    rfl

/-- What a build ends with is served, also when it failed. -/
theorem replyOf_serves (b : Building) (outcome : Build.Outcome) (method : Method) :
    ∃ response, (g.replyOf b outcome).fit method = .respond response ∧ response.status = 200 := by
  cases b <;> cases outcome <;> cases method <;> exact ⟨_, rfl, rfl⟩

theorem looks_longestLook (p : Progress) :
    g.looks r w longestLook p = g.look r w (g.look r w (g.look r w p)) := rfl

theorem handle_of_answered {reply : Reply}
    (h : g.looks r w longestLook (g.start r) = .answered reply) :
    g.handle w r = (reply.fit r.method, w) := by
  rw [handle, h]

theorem handle_of_building {b : Building}
    (h : g.looks r w longestLook (g.start r) = .building b) :
    (g.handle w r).1 =
      (g.replyOf b (g.work (w.join onlyClient b) b).1).fit r.method := by
  rw [handle, h]

/-- A specifier that may be served, for which no global stands, is served when its package is trusted
and it can be located. -/
theorem handle_serves (hMethod : r.method ≠ .other)
    (hPath : r.path = g.sources.publicPath specifier)
    (hServable : Specifier.isServable specifier = true)
    (hGlobal : g.sources.global? specifier = none)
    (hLocated : (g.sources.locate? w.fs specifier).isSome)
    (hTrusted : w.trusted.trusts specifier = true) :
    ∃ response, (g.handle w r).1 = .respond response ∧ response.status = 200 := by
  obtain ⟨m, hModule⟩ := Option.isSome_iff_exists.mp hLocated
  have hStart : g.start r = .recalling specifier := by
    rw [start_publicPath g hMethod hPath, hServable, hGlobal]
    rfl
  cases hStored : g.store.read? w.fs specifier with
  | some content =>
      have hLooks : g.looks r w longestLook (g.start r) =
          .answered (vendorResponse AssetKind.script.contentType content) := by
        simp only [looks_longestLook, hStart, look, hStored]
      rw [handle_of_answered g hLooks]
      cases r.method <;> exact ⟨_, rfl, rfl⟩
  | none =>
      have hLooks : g.looks r w longestLook (g.start r) = .building (.vendor specifier m) := by
        simp only [looks_longestLook, hStart, look, hStored, hTrusted, if_true, hModule]
      rw [handle_of_building g hLooks]
      exact replyOf_serves g _ _ _

/-- An import that an installed package provides is linked to a path, and a later request for that
path is answered with the module, or with what shows why it cannot be built, exactly when the
specifier may be served. Otherwise the request is passed on. -/
theorem handle_linked_iff {later : World} {package path : String} {trusted : Trust.Registry}
    (hLinked : (g.sources.resolveTrusting w.fs specifier).run w.trusted =
      (.installed package path, trusted))
    (hQuery : '?' ∉ path.toList) (hFragment : '#' ∉ path.toList)
    (hFiles : later.fs = w.fs)
    (hTrusted : ∀ name, trusted.contains name = true → later.trusted.contains name = true) :
    ((∃ response, (g.handle later { target := path }).1 = .respond response ∧
        response.status = 200) ↔ Specifier.isServable specifier = true) ∧
      (Specifier.isServable specifier = false →
        g.handle later { target := path } = (.pass, later)) := by
  rw [Package.Sources.resolveTrusting_run, Prod.mk.injEq] at hLinked
  obtain ⟨hResolved, hAfter⟩ := hLinked
  obtain ⟨hGlobal, ⟨m, hModule⟩, rfl, rfl⟩ :=
    Package.Sources.resolve_eq_installed_iff.mp hResolved
  have hMethod : Method.get ≠ .other := by decide
  have hPath := Request.path_eq (r := { target := g.sources.publicPath specifier }) hQuery hFragment
  have hRefused (hServable : Specifier.isServable specifier = false) :
      g.handle later { target := g.sources.publicPath specifier } = (.pass, later) := by
    have hStart := start_publicPath g (r := { target := g.sources.publicPath specifier })
      hMethod hPath
    rw [hServable] at hStart
    have hLooks : g.looks { target := g.sources.publicPath specifier } later longestLook
        (g.start { target := g.sources.publicPath specifier }) = .answered .pass := by
      rw [hStart]
      rfl
    rw [handle_of_answered g hLooks]
    rfl
  refine ⟨⟨fun ⟨response, hReply, _⟩ => ?_, fun hServable => ?_⟩, hRefused⟩
  · by_contra hNot
    rw [hRefused (Bool.not_eq_true _ ▸ hNot)] at hReply
    cases hReply
  · refine handle_serves g hMethod hPath hServable hGlobal ?_ ?_
    · rw [hFiles, hModule]
      rfl
    · refine hTrusted _ ?_
      rw [← hAfter, hResolved]
      refine (Trust.Registry.contains_register _ _ _).mpr (.inr ⟨?_, ?_⟩)
      · rw [Specifier.packageName_packageName]
      · exact Specifier.packageName_ne_empty_of_isServable hServable

/-- A project with one source file, which imports a package by its name and a slash. -/
def slashFiles : FileSystem where
  root := .directory
    [("src", .directory [("a.js", .file ⟨"import \"buffer/\";\n".toUTF8, 0⟩)]),
      ("node_modules", .directory
        [("buffer", .directory [("index.js", .file ⟨"export default 1;\n".toUTF8, 0⟩)])])]

/-- The gateway of that project with a compiler that changes nothing. -/
def slashGateway : Gateway where
  settings := {}
  root := ["src"]
  store := { directory := ⟨".kiln/cache"⟩ }
  compiler := fun unit => .done unit.source

theorem handle_linked_plain :
    ∃ response, (slashGateway.handle (slashGateway.newWorld slashFiles)
      { target := "/modules/vendor/buffer" }).1 = .respond response ∧ response.status = 200 := by
  have hLinked : (slashGateway.sources.resolveTrusting (slashGateway.newWorld slashFiles).fs
      "buffer").run (slashGateway.newWorld slashFiles).trusted =
        (.installed "buffer" "/modules/vendor/buffer", ⟨["buffer"]⟩) :=
    Prod.ext (by decide +kernel) (by decide +kernel)
  exact (handle_linked_iff slashGateway hLinked (by decide +kernel) (by decide +kernel) rfl
    (fun _ h => h)).1.mpr (by decide +kernel)

/-- The slash at the end is kept in the link, and the router refuses what it leads to. -/
theorem handle_linked_slash :
    let first := slashGateway.handle (slashGateway.newWorld slashFiles) { target := "/modules/a.js" }
    (∃ response, first.1 = .respond response ∧
      response.body = "import \"/modules/vendor/buffer/\";\n".toUTF8) ∧
    ((slashGateway.sources.resolveTrusting first.2.fs "buffer/").run first.2.trusted).1 =
      .installed "buffer" "/modules/vendor/buffer/" ∧
    (slashGateway.handle first.2 { target := "/modules/vendor/buffer/" }).1 = .pass := by
  have hFirst : (slashGateway.handle (slashGateway.newWorld slashFiles)
      { target := "/modules/a.js" }).1 =
        .respond { Response.ok "application/javascript; charset=utf-8" "no-cache"
          "import \"/modules/vendor/buffer/\";\n".toUTF8 with etag := some ⟨18, 0, false⟩ } := by
    decide +kernel
  exact ⟨⟨_, hFirst, rfl⟩, by decide +kernel, by decide +kernel⟩

end ModuleGateway.Gateway
