import JsEmitter.Proofs.CheckedPrograms
import JsEmitter.Proofs.PassInStep
import JsEmitter.Proofs.Requests

/-!
# First runs

The caches of a new session hold pieces of the program alone that is emitted. What a module of a
checked program is served there is its own piece: no other class has its key, no other module has
its id. Only methods of one class with the same name can stand for each other.
-/
namespace JsEmitter

open Lowering (Context)

variable {setting : Setting} {program : Program} {unit : Module} {linked : LinkedClass}
  {version : Version}

/-- A class of the only program of a history is known by its key. -/
theorem ClassIn.exists_eq (checked : program.Checked) (placed : unit ∈ program.modules)
    (there : linked ∈ unit.classes) (here : ClassIn [program])
    (key : ClassKey.ofClass unit.id linked = here.key) :
    here.site = program.site unit ∧ here.linked = linked := by
  obtain ⟨⟨other, owner, emitted, held⟩, another, owned⟩ := here
  obtain rfl := List.mem_singleton.1 emitted
  obtain ⟨rfl, rfl⟩ := checked.class_eq_of_key placed held there owned
    (congrArg ClassKey.ancestors key)
  exact ⟨rfl, rfl⟩

/-- A module of the only program of a history is known by its id. -/
theorem ModuleIn.exists_eq (checked : program.Checked) (placed : unit ∈ program.modules)
    (here : ModuleIn [program]) (id : unit.id = here.unit.id) :
    here.site = program.site unit ∧ here.unit = unit := by
  obtain ⟨other, owner, emitted, held⟩ := here
  obtain rfl := List.mem_singleton.1 emitted
  obtain rfl := checked.unit_eq placed held id
  exact ⟨rfl, rfl⟩

namespace Requested

section Classes

variable (checked : program.Checked) (placed : unit ∈ program.modules)
  (there : linked ∈ unit.classes)

include checked placed there

/-- A free function that the only program asks for is one of the class. -/
theorem own_function {home : MemberNamespace} {name : MethodName} {piece : Piece .tree}
    (requested : Requested setting [program]
      (.function (.ofClass unit.id linked, home, name)) version piece) :
    ∃ method ∈ linked.requestedFunctions (setting.neutral (program.site unit)),
      method.value.home = home ∧ method.value.name = name ∧
      piece = .function (program.site unit) linked method.value := by
  obtain ⟨here, method, found, key, rfl, rfl, -, rfl⟩ := requested.function
  obtain ⟨site, rfl⟩ := here.exists_eq checked placed there key
  rw [site] at found ⊢
  exact ⟨method, found, rfl, rfl, rfl⟩

/-- A member method that the only program asks for is one of the class. -/
theorem own_member {name : MethodName} {piece : Piece .tree}
    (requested : Requested setting [program] (.member (.ofClass unit.id linked, name)) version
      piece) :
    ∃ method ∈ Context.memberMethods linked, method.value.name = name ∧
      piece = .member (program.site unit) linked method.value := by
  obtain ⟨here, method, found, key, rfl, -, rfl⟩ := requested.member
  obtain ⟨site, rfl⟩ := here.exists_eq checked placed there key
  rw [site]
  exact ⟨method, found, rfl, rfl⟩

/-- A bridge that the only program asks for is the one of its method. -/
theorem own_bridge {name : MethodName} {piece : Piece .tree}
    (requested : Requested setting [program] (.bridge (.ofClass unit.id linked, name)) version
      piece) :
    piece = .bridge (program.site unit) name := by
  obtain ⟨here, key, -, rfl⟩ := requested.bridge
  rw [(here.exists_eq checked placed there key).1]

/-- A constructor that the only program asks for is that of the class. -/
theorem own_ctor {piece : Piece .ctor}
    (requested : Requested setting [program] (.ctor (.ofClass unit.id linked)) version piece) :
    (program.site unit).constructor? linked = .ok piece := by
  obtain ⟨here, key, -, -, made⟩ := requested.ctor
  obtain ⟨site, rfl⟩ := here.exists_eq checked placed there key
  rwa [site] at made

/-- An exported member that the only program asks for is the one at its position. -/
theorem own_exportedMember {position : Nat} {piece : Piece .trees}
    (requested : Requested setting [program]
      (.exportedMember (.ofClass unit.id linked, position)) version piece) :
    ∃ member, (member, position) ∈ linked.exportedMembers.zipIdx ∧
      piece = .exportedMember (program.site unit) linked member.value := by
  obtain ⟨here, member, found, key, -, rfl⟩ := requested.exportedMember
  obtain ⟨site, rfl⟩ := here.exists_eq checked placed there key
  rw [site]
  exact ⟨member, found, rfl⟩

/-- A part of a class shell that the only program asks for is that of the class. -/
theorem own_shell {part : ShellPart} {piece : Piece .trees}
    (requested : Requested setting [program] (.shell (.ofClass unit.id linked) part) version
      piece) :
    piece = .shell (program.site unit) linked part := by
  obtain ⟨here, key, -, rfl⟩ := requested.shell
  obtain ⟨site, rfl⟩ := here.exists_eq checked placed there key
  rw [site]

/-- The definition of a class in a first run is its own. -/
theorem own_definition {definition : Definition}
    (requested : RequestedDefinition setting [program] (.ofClass unit.id linked) version
      definition) :
    definition.site = program.site unit ∧ definition.linked = linked := by
  obtain ⟨here, key, -, site, same⟩ := requested.exists
  obtain ⟨own, rfl⟩ := here.exists_eq checked placed there key
  exact ⟨site.trans own, same⟩

end Classes

section Modules

variable (checked : program.Checked) (placed : unit ∈ program.modules)

include checked placed

/-- Imports that the only program asks for are those of the module. -/
theorem own_imports {piece : Piece .trees}
    (requested : Requested setting [program] (.modulePart unit.id .imports) version piece) :
    piece = .imports (program.site unit) unit := by
  obtain ⟨here, id, -, rfl⟩ := requested.imports
  obtain ⟨site, rfl⟩ := here.exists_eq checked placed id
  rw [site]

/-- Exports that the only program asks for are those of the module. -/
theorem own_topLevelExports {piece : Piece .trees}
    (requested : Requested setting [program] (.modulePart unit.id .topLevelExports) version
      piece) :
    piece = .topLevelExports (program.site unit) unit.topLevelExports := by
  obtain ⟨here, id, -, rfl⟩ := requested.topLevelExports
  obtain ⟨site, rfl⟩ := here.exists_eq checked placed id
  rw [site]

/-- Initializers that the only program asks for are those of the module. -/
theorem own_initializers {piece : Piece .trees}
    (requested : Requested setting [program] (.modulePart unit.id .initializers) version piece) :
    piece = .initializers (program.site unit) unit.initializers := by
  obtain ⟨here, id, -, rfl⟩ := requested.initializers
  obtain ⟨site, rfl⟩ := here.exists_eq checked placed id
  rw [site]

end Modules

end Requested

section Classes

variable (checked : program.Checked) (placed : unit ∈ program.modules)
  (there : linked ∈ unit.classes)

include checked placed there

/-- In a first run the pieces that depend on the class alone are its own. -/
theorem ClassPieces.MadeFor.shell_eq {pieces : ClassPieces}
    (made : pieces.MadeFor setting [program] (program.site unit) linked) (part : ShellPart) :
    pieces.shell part =
      if linked.hasShellPart part then some (.shell (program.site unit) linked part) else none := by
  cases present : linked.hasShellPart part with
  | false => exact made.absent part present
  | true =>
    obtain ⟨piece, found, served⟩ := made.present part present
    rw [found, Requested.own_shell checked placed there served.requested]
    rfl

/-- In a first run the members of a definition are methods of its class and bridges. -/
theorem Definition.MadeFor.of_mem_members {definition : Definition}
    (made : definition.MadeFor setting [program] (program.site unit) linked)
    {piece : Piece .tree} (found : piece ∈ definition.members) :
    (∃ method ∈ linked.methods, piece = .member (program.site unit) linked method.value) ∨
      ∃ method, piece = .bridge (program.site unit) method := by
  obtain ⟨methods, bridges, members, methodsMade, bridgesMade⟩ := made.members
  rw [members] at found
  rcases List.mem_append.1 found with found | found
  · obtain ⟨method, -, served⟩ := exists_of_forall₂ methodsMade found
    obtain ⟨own, member, -, same⟩ := served.requested.own_member checked placed there
    exact .inl ⟨own, List.mem_of_mem_filter member, same⟩
  · obtain ⟨method, -, served⟩ := exists_of_forall₂ bridgesMade found
    exact .inr ⟨method, served.requested.own_bridge checked placed there⟩

/-- In a first run the exported members of a definition are those of its class. -/
theorem Definition.MadeFor.of_mem_exported {definition : Definition}
    (made : definition.MadeFor setting [program] (program.site unit) linked)
    {piece : Piece .trees} (found : piece ∈ definition.exported) :
    ∃ member ∈ linked.exportedMembers,
      piece = .exportedMember (program.site unit) linked member.value := by
  obtain ⟨entry, -, served⟩ := exists_of_forall₂ made.exported found
  obtain ⟨member, among, same⟩ := served.requested.own_exportedMember checked placed there
  exact ⟨member, List.fst_mem_of_mem_zipIdx among, same⟩

end Classes

end JsEmitter
