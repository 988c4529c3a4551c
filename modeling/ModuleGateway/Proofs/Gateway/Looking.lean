import ModuleGateway.Gateway.Prewarm
import ModuleGateway.Gateway.Serving

/-!
What the steps of requests, prewarming tasks and jobs may do. Each of them is a relation with one
constructor for each thing that the step may find, with what is so then.
-/

namespace ModuleGateway.Gateway

/-- Where a request may start: with an answer, with the store or with a source file. -/
inductive Starts (g : Gateway) (r : Request) : Progress → Prop where
  | passed : Starts g r (.answered .pass)
  | shim {specifier expression : String} (hGlobal : g.sources.global? specifier = some expression) :
      Starts g r (.answered (transientResponse .script (Diagnostic.globalShim expression)))
  | recalling {specifier : String} (hMethod : r.method ≠ .other)
      (hRoute : Route.ofPath? g.settings r.path = some (.vendor specifier))
      (hServable : Specifier.isServable specifier = true)
      (hNoGlobal : g.sources.global? specifier = none) : Starts g r (.recalling specifier)
  | resolving {path : String} (hRoute : Route.ofPath? g.settings r.path = some (.source path)) :
      Starts g r (.resolving path (AssetKind.ofPath path))

/-- What one look of a request does. -/
inductive Look (g : Gateway) (r : Request) (w : World) : Progress → Progress → Prop where
  | recalled {specifier : String} {content : ByteArray}
      (hStored : g.store.read? w.fs specifier = some content) :
      Look g r w (.recalling specifier)
        (.answered (vendorResponse AssetKind.script.contentType content))
  | missing {specifier : String} (hMissing : g.store.read? w.fs specifier = none) :
      Look g r w (.recalling specifier) (.trusting specifier)
  | trusted {specifier : String} (hTrusted : w.trusted.trusts specifier = true) :
      Look g r w (.trusting specifier) (.locating specifier)
  | untrusted {specifier : String} (hTrusted : w.trusted.trusts specifier = false) :
      Look g r w (.trusting specifier) (.answered (g.missed specifier))
  | located {specifier : String} {m : Package.Located}
      (hLocated : g.sources.locate? w.fs specifier = some m) :
      Look g r w (.locating specifier) (.building (.vendor specifier m))
  | unlocated {specifier : String} (hNowhere : g.sources.locate? w.fs specifier = none) :
      Look g r w (.locating specifier) (.answered (g.missed specifier))
  | resolved {path : String} {kind : AssetKind} {file : Location}
      (hResolved : Source.resolve? w.fs g.root kind path = some file) :
      Look g r w (.resolving path kind) (.validating file kind)
  | unresolved {path : String} {kind : AssetKind} (hNone : Source.resolve? w.fs g.root kind path = none) :
      Look g r w (.resolving path kind) (.answered .pass)
  | gone {file : Location} {kind : AssetKind} (hGone : stamp? w.fs file = none) :
      Look g r w (.validating file kind) (.answered .pass)
  | fresh {file : Location} {kind : AssetKind} {stamp : Stamp} {v : Validator}
      (hStamp : stamp? w.fs file = some stamp)
      (hFresh : Freshness.check stamp g.settings.minify r.ifNoneMatch = .fresh v) :
      Look g r w (.validating file kind)
        (.answered (.respond (.notModified v g.settings.localCacheControl)))
  | stale {file : Location} {kind : AssetKind} {stamp : Stamp} {v : Validator}
      (hStamp : stamp? w.fs file = some stamp)
      (hStale : Freshness.check stamp g.settings.minify r.ifNoneMatch = .stale v) :
      Look g r w (.validating file kind) (.building (.source file v kind))
  | building {b : Building} : Look g r w (.building b) (.building b)
  | answered {reply : Reply} : Look g r w (.answered reply) (.answered reply)

/-- What one look of a prewarming task does. -/
inductive Glance (g : Gateway) (w : World) : Warming → Warming → Prop where
  | ready {specifier : String}
      (hReady : (g.sources.global? specifier).isSome = true ∨ g.store.contains w.fs specifier = true) :
      Glance g w (.checking specifier) (.ended true)
  | wanted {specifier : String} (hNoGlobal : (g.sources.global? specifier).isSome = false)
      (hMissing : g.store.contains w.fs specifier = false) :
      Glance g w (.checking specifier) (.locating specifier)
  | located {specifier : String} {m : Package.Located}
      (hLocated : g.sources.locate? w.fs specifier = some m) :
      Glance g w (.locating specifier) (.building (.vendor specifier m))
  | unlocated {specifier : String} (hNowhere : g.sources.locate? w.fs specifier = none) :
      Glance g w (.locating specifier) (.ended false)
  | building {b : Building} : Glance g w (.building b) (.building b)
  | ended {isReady : Bool} : Glance g w (.ended isReady) (.ended isReady)

/-- What one step of a job does, and what it leaves of the world. -/
inductive Advance (g : Gateway) (b : Building) (w : World) : Stage → Stage → World → Prop where
  | stored {content : ByteArray} (hStored : g.stored? w.fs b = some content) :
      Advance g b w .checking (.ended (.success content b.kind.contentType)) w
  | missing (hMissing : g.stored? w.fs b = none) : Advance g b w .checking .reading w
  | read {source : String} (hRead : w.fs.readText b.file = .ok source) :
      Advance g b w .reading (.compiling source) w
  | unreadable {e : FileError} (hRead : w.fs.readText b.file = .error e) :
      Advance g b w .reading (.ended (.failure (b.unreadable e))) w
  | compiled {source : String} {linked : Except String String} {trusted : Trust.Registry}
      (hRun : (g.compileAndLink w.fs b source).run w.trusted = (linked, trusted)) :
      Advance g b w (.compiling source) (afterLinking b linked)
        { w with trusted, compiled := b.file :: w.compiled }
  | persisted {content : ByteArray} :
      Advance g b w (.persisting content) (.ended (.success content b.kind.contentType))
        { w with fs := g.persist w.fs b content }
  | ended {outcome : Build.Outcome} : Advance g b w (.ended outcome) (.ended outcome) w

theorem start_spec (g : Gateway) (r : Request) : g.Starts r (g.start r) := by
  unfold start
  split
  · exact .passed
  · split
    · exact .passed
    · exact .resolving ‹_›
    · split
      · exact .passed
      · rename_i hServable
        split
        · exact .shim ‹_›
        · exact .recalling ‹_› ‹_› (by simpa using hServable) ‹_›

theorem look_spec (g : Gateway) (r : Request) (w : World) (p : Progress) :
    g.Look r w p (g.look r w p) := by
  cases p with
  | recalling specifier =>
      simp only [look]
      split
      · exact .recalled ‹_›
      · exact .missing ‹_›
  | trusting specifier =>
      simp only [look]
      split
      · exact .trusted ‹_›
      · exact .untrusted (Bool.eq_false_iff.mpr ‹_›)
  | locating specifier =>
      simp only [look]
      split
      · exact .located ‹_›
      · exact .unlocated ‹_›
  | resolving path kind =>
      simp only [look]
      split
      · exact .resolved ‹_›
      · exact .unresolved ‹_›
  | validating file kind =>
      simp only [look]
      split
      · exact .gone ‹_›
      · split
        · exact .fresh ‹_› ‹_›
        · exact .stale ‹_› ‹_›
  | building b => exact .building
  | answered reply => exact .answered

theorem glance_spec (g : Gateway) (w : World) (t : Warming) : g.Glance w t (g.glance w t) := by
  cases t with
  | checking specifier =>
      simp only [glance]
      split
      · rename_i hReady
        exact .ready (by simpa using hReady)
      · rename_i hWanted
        obtain ⟨hNoGlobal, hMissing⟩ := not_or.mp (Bool.or_eq_true .. ▸ hWanted)
        exact .wanted (by simpa using hNoGlobal) (by simpa using hMissing)
  | locating specifier =>
      simp only [glance]
      split
      · exact .located ‹_›
      · exact .unlocated ‹_›
  | building b => exact .building
  | ended isReady => exact .ended

theorem advance_spec (g : Gateway) (b : Building) (w : World) (stage : Stage) :
    g.Advance b w stage (g.advance b w stage).1 (g.advance b w stage).2 := by
  cases stage with
  | checking =>
      simp only [advance]
      split
      · exact .stored ‹_›
      · exact .missing ‹_›
  | reading =>
      simp only [advance]
      split
      · exact .read ‹_›
      · exact .unreadable ‹_›
  | compiling source => exact .compiled rfl
  | persisting content => exact .persisted
  | ended outcome => exact .ended

end ModuleGateway.Gateway
