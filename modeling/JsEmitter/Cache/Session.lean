import JsEmitter.Cache.Classes
import JsEmitter.Cache.Modules
import JsEmitter.Lowering.Bootstrap

/-!
# Caches of a session

All caches share one supply of tokens. A request to one of them is a step on all caches that
changes that one and the supply. Everything cached is valid for one set of assumed host names
only, because generated names avoid them; a new session starts without cached results and goes
on with the supply.
-/
namespace JsEmitter

open Js (Tree)
open Lowering (ConstructorParts Bootstrap)

/-- Every cache of a session, with the supply of tokens. -/
structure Caches where
  classes : ClassCaches
  modules : ModuleCaches
  /-- The bootstrap library. -/
  bootstrap : OneTimeSlot Bootstrap
  supply : TokenSupply

namespace Caches

variable {ε : Type}

/-- Empty caches with a supply of tokens. -/
def withSupply (supply : TokenSupply) : Caches := ⟨.empty, .empty, .empty, supply⟩

instance : Inhabited Caches := ⟨withSupply default⟩

/-- Request a method that is a free function. -/
def requestFunction (key : FunctionKey) (version : Version)
    (compute : Unit → Except ε (Tracked Tree)) : Step ε Caches (Artifact Tree) :=
  Step.onPart (fun caches => (caches.classes.functions, caches.supply))
    (fun caches reached => { caches with
      classes := { caches.classes with functions := reached.1 }
      supply := reached.2 })
    (KeyedCache.request key version compute)

/-- Request a method inside a class definition. -/
def requestMember (key : MemberKey) (version : Version)
    (compute : Unit → Except ε (Tracked Tree)) : Step ε Caches (Artifact Tree) :=
  Step.onPart (fun caches => (caches.classes.members, caches.supply))
    (fun caches reached => { caches with
      classes := { caches.classes with members := reached.1 }
      supply := reached.2 })
    (KeyedCache.request key version compute)

/-- Request a bridge. -/
def requestBridge (key : MemberKey) (version : Version)
    (compute : Unit → Except ε (Tracked Tree)) : Step ε Caches (Artifact Tree) :=
  Step.onPart (fun caches => (caches.classes.bridges, caches.supply))
    (fun caches reached => { caches with
      classes := { caches.classes with bridges := reached.1 }
      supply := reached.2 })
    (KeyedCache.request key version compute)

/-- Request a constructor. -/
def requestConstructor (key : ClassKey) (version : Version)
    (compute : Unit → Except ε (Tracked ConstructorParts)) :
    Step ε Caches (Artifact ConstructorParts) :=
  Step.onPart (fun caches => (caches.classes.constructors, caches.supply))
    (fun caches reached => { caches with
      classes := { caches.classes with constructors := reached.1 }
      supply := reached.2 })
    (KeyedCache.request key version compute)

/-- Request an exported member. -/
def requestExportedMember (key : ClassKey × Nat) (version : Version)
    (compute : Unit → Except ε (Tracked (List Tree))) : Step ε Caches (Artifact (List Tree)) :=
  Step.onPart (fun caches => (caches.classes.exportedMembers, caches.supply))
    (fun caches reached => { caches with
      classes := { caches.classes with exportedMembers := reached.1 }
      supply := reached.2 })
    (KeyedCache.request key version compute)

/-- Request a class definition. -/
def requestFullClass (key : ClassKey) (version : Version) (parts : DefinitionParts)
    (compute : Unit → Except ε (Tracked (List Tree))) : Step ε Caches (Artifact (List Tree)) :=
  Step.onPart (fun caches => (caches.classes.fullClasses, caches.supply))
    (fun caches reached => { caches with
      classes := { caches.classes with fullClasses := reached.1 }
      supply := reached.2 })
    (FullClassCache.request key version parts compute)

/-- Open the shell of a class for a version. -/
def openShell (key : ClassKey) (version : Version) : Step ε Caches Unit :=
  modify (fun caches => { caches with classes := caches.classes.openShell key version })

/-- Request a piece of a class that has a shell. -/
def requestShellPart (key : ClassKey) (part : ShellPart)
    (compute : Unit → Except ε (Tracked (List Tree))) : Step ε Caches (Artifact (List Tree)) :=
  Step.onPart (fun caches => (caches.classes.slot key part, caches.supply))
    (fun caches reached => { caches with
      classes := caches.classes.withSlot key part reached.1
      supply := reached.2 })
    (OneTimeSlot.request compute)

/-- Request a part of a module. -/
def requestModulePart (id : ModuleId) (part : ModulePart) (version : Version)
    (compute : Unit → Except ε (Tracked (List Tree))) : Step ε Caches (Artifact (List Tree)) :=
  Step.onPart (fun caches => (caches.modules, caches.supply))
    (fun caches reached => { caches with modules := reached.1, supply := reached.2 })
    (ModuleCaches.request id part version compute)

/-- Request the bootstrap library. -/
def requestBootstrap (compute : Unit → Except ε (Tracked Bootstrap)) :
    Step ε Caches (Artifact Bootstrap) :=
  Step.onPart (fun caches => (caches.bootstrap, caches.supply))
    (fun caches reached => { caches with bootstrap := reached.1, supply := reached.2 })
    (OneTimeSlot.request compute)

/-- The caches at the start of a run. -/
def startRun (caches : Caches) : Caches :=
  { caches with classes := caches.classes.startRun, modules := caches.modules.startRun }

/-- The caches at the end of a run, without what was not requested. -/
def endRun (caches : Caches) : Caches :=
  { caches with classes := caches.classes.endRun, modules := caches.modules.endRun }

/-- How many results of classes and of modules the end of a run drops. -/
def evicted (caches : Caches) : Nat × Nat :=
  (caches.classes.size - caches.endRun.classes.size,
    caches.modules.table.size - caches.endRun.modules.table.size)

end Caches

/-- Caches together with the host names that the names in them avoid. -/
structure Session where
  assumed : HostRefs
  caches : Caches

namespace Session

/-- A session without cached results. -/
def start (assumed : HostRefs) (supply : TokenSupply) : Session := ⟨assumed, .withSupply supply⟩

/-- The naming scheme of the session. -/
def naming (session : Session) : Naming := ⟨session.assumed⟩

/-- Number of classes with cached pieces. -/
def cachedClasses (session : Session) : Nat := session.caches.classes.classCount

end Session

end JsEmitter
