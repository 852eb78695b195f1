import ModelServer.Inspection.Element
import ModelServer.Session.Collaborator
import ModelServer.Completion
import ModelServer.Settings.Basic

/-!
# Looking into what goes in and out

What planners are given, what is proposed in an editor, and what a server was told when it started, as
data.
-/

namespace ModelServer.Inspection

/-- A binding of a lambda that is to be planned. -/
def spec (s : ExecutionSpec) : Json :=
  typed "SingleExecutionSpec"
    [("func", lambda s.func), ("mapping", text s.mapping), ("runtime", runtime s.runtime),
      ("execution_options", pairs s.options)]

def extensions (x : PlatformExtensions) : Json :=
  typed "PlatformExtensions"
    [("router_extensions", each json x.routerExtensions),
      ("plan_transformers", each json x.planTransformers)]

def completion (c : Completion) : Json :=
  typed "Completion" [("description", .text c.description), ("suggestion", .text c.suggestion)]

/-- The fields of settings. -/
def settingsFields (s : Settings) : Members :=
  [("engine_url", text s.engineUrl),
    ("engine_timeout_seconds", optional (fun x ↦ json (.float x)) s.timeout),
    ("collaborators", pairs (s.collaborators.map fun c ↦ (c.1.key, c.2)))]

end ModelServer.Inspection
