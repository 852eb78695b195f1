import ModelServer.Server.Routing

/-!
# What is installed beside a server

Others may install extensions beside a server: routers and transformers, which are handed on to those
who plan and test, and grammars. What is installed is either there already or is made on being asked
for; a grammar must be made, so that each server has its own.
-/

namespace ModelServer

/-- Something that is installed. -/
inductive Installed (α : Type) where
  /-- It is made on being asked for. -/
  | made (a : α)
  /-- It is there already. -/
  | present (a : α)
  deriving Repr

namespace Installed

variable {α : Type}

/-- What is provided, made or not. -/
def provided : Installed α → α
  | made a => a
  | present a => a

/-- What is made; `typeName` names the type of a thing that is there already. -/
def make (typeName : α → String) : Installed α → Except Fault α
  | made a => .ok a
  | present a => .error (.plain .type ("'" ++ typeName a ++ "' object is not callable"))

end Installed

namespace PlatformExtensions

/-- Nothing is installed. -/
def empty : PlatformExtensions :=
  ⟨[], []⟩

/-- The extensions that one installed thing stands for: the items of a list, else itself. -/
def itemsOf : Json → List Json
  | .list items => items
  | v => [v]

/-- The extensions that the installed routers and transformers stand for, in order. -/
def ofInstalled (routers transformers : List (Installed Json)) : PlatformExtensions :=
  ⟨routers.flatMap (itemsOf ·.provided), transformers.flatMap (itemsOf ·.provided)⟩

end PlatformExtensions

/-- The grammars that are always there, and then those that are installed. -/
def Installed.grammars {α : Type} (always : List α) (typeName : α → String)
    (installed : List (Installed α)) : Except Fault (List α) :=
  (installed.mapM (Installed.make typeName)).map (always ++ ·)

end ModelServer
