import ModelServer.Settings.Collaborators
import ModelServer.Server.Discovery

/-!
# Starting a server

A server is started from its settings: they are read, what they name is loaded, and what is always there
is added. Each step can fail, and then there is no server.
-/

namespace ModelServer

/-- What a server is started with, apart from its settings. -/
structure Environment (H : Type) where
  /-- The variables of the environment. -/
  valueOf : String → Option String
  loader : Loader (Except Fault) (PlanGenerator H) (PlanExecutor H) (TestRunner H)
  wire : Registration.Wire H
  /-- What is installed beside the server. -/
  installed : PlatformExtensions

/-- The session of a server that was just started. -/
def Session.new {H : Type} (host : H) : Session H :=
  ⟨.empty, .empty, host⟩

namespace Server

variable {H : Type}

/-- The server that the settings in a file tell of. -/
def start [Depths] (e : Environment H) (settings : FileContent) : Except Fault (Server H) := do
  let s ← Settings.read settings e.valueOf
  let loaded ← s.load e.loader
  return ⟨s.assemble e.wire e.installed loaded, defaultExtensions⟩

end Server

end ModelServer
