import ChatCommands.Catalogue
import ChatCommands.Router
import ChatCommands.Settings

/-!
# From settings to a router

The registry is opened first; then the command paths are resolved one after another, and each
command is taken up by the router before the next path is looked at. When the settings turn out to
be at fault on the way, the registry is closed again.
-/

namespace ChatCommands

namespace Routed

/-- The outcome of work of a router, and the router after it. -/
def onRouter {α : Type} (router : Router) (work : Routed α) : Hosted (Except Failure α × Router) :=
  ExceptT.mk fun host =>
    let (result, site) := work.run.run ⟨router, host⟩
    (.ok (result, site.router), site.host)

end Routed

namespace RegistrySettings

def openRegistry (s : RegistrySettings) : Hosted Registry := do
  let store ←
    match s.backend with
    | .memory => Hosted.openMemory
    | .sqlite => Hosted.openDatabase s.sqlitePath
  return ⟨store, s.keyPrefix⟩

end RegistrySettings

namespace Settings

/-- `resolve` each path and `register` the factory at its end, before the next path is looked at. -/
def registerAll (catalogue : Catalogue) : List String → Routed Unit
  | [] => pure ()
  | path :: paths => do
    match catalogue.resolve path with
    | .error failure => throw failure
    | .ok callee =>
      let _ ← Router.register (Factory.constant callee.outcome)
      registerAll catalogue paths

/-- Open the registry, and build a router that has taken up every command. A failure of kind
`config` closes the registry again; any other one does not. -/
def openRouter (catalogue : Catalogue) (s : Settings) : Hosted Router := do
  let registry ← s.registry.openRegistry
  let (result, router) ←
    (registerAll catalogue s.commands).onRouter (Router.empty (some registry))
  match result with
  | .ok () => return router
  | .error failure =>
    if failure.kind = .config then registry.close
    throw failure

end Settings

end ChatCommands
