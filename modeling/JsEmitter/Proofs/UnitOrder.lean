import JsEmitter.Proofs.ProgramCells
import JsEmitter.Proofs.SeparateSteps

/-!
# The order of modules in a pass

The modules of a checked program request cells of their own, and only the root module requests the
library. So the order in which a pass emits them makes no difference but for tokens.
-/
namespace JsEmitter

open Lowering (Context)

instance : Inhabited ModuleOutput := ⟨⟨default, [], [], ∅⟩⟩

/-- The host names of a pass do not depend on the order of the modules. -/
theorem Pass.refs_perm {first second : Pass} (order : first.outputs.Perm second.outputs) :
    first.refs = second.refs := by
  unfold refs
  exact order.foldl_eq' (fun output _ other _ refs => by
    rw [SortedSet.union_assoc, SortedSet.union_assoc, SortedSet.union_comm output.refs]) ∅

namespace Emission

/-- Whether a cell belongs to a module: that of the library belongs to the root module. -/
def OwnedBy (unit : Module) (cell : Cell) : Prop :=
  cell.home? = some unit.id ∨ cell = .library ∧ unit.isRoot = true

variable {program : Program} {contexts : ModuleId → Context}

/-- The modules of a checked program are separate. -/
theorem emitUnit_separate (checked : program.Checked) (homes : ∀ id, (contexts id).home = id)
    (imported : List ModuleId) :
    SeparateSteps (emitUnit contexts imported) (fun unit => unitCells (contexts unit.id) unit)
      OwnedBy program.modules where
  agrees unit _ base gap :=
    (Comparison.independence base gap (OwnedBy unit)).emitUnit_holds False.elim imported False.elim
  inside unit _ _ found := home_of_mem_unitCells (homes unit.id) found
  apart unit placed other there cell here too := by
    rcases here with home | ⟨rfl, root⟩ <;> rcases too with another | ⟨same, also⟩
    · exact checked.unit_eq placed there (Option.some.inj (home.symm.trans another))
    · rw [same] at home
      cases home
    · cases another
    · exact checked.root_eq placed there root also

/-- The modules of a checked program are emitted with the same success in every order. -/
theorem emitUnit_perm (checked : program.Checked) (homes : ∀ id, (contexts id).home = id)
    (imported : List ModuleId) {caches : Caches} (bounded : caches.Bounded)
    {first second : List Module} (one : first.Perm program.modules)
    (two : second.Perm program.modules) :
    (∃ error cause reached last,
      first.mapM (emitUnit contexts imported) caches = .error error reached ∧
      second.mapM (emitUnit contexts imported) caches = .error cause last) ∨
    ∃ (output : Module → ModuleOutput) (reached last : Caches),
      first.mapM (emitUnit contexts imported) caches = .ok (first.map output) reached ∧
      second.mapM (emitUnit contexts imported) caches = .ok (second.map output) last ∧
      reached.SameButTokens last :=
  ((emitUnit_separate checked homes imported).mono (fun _ found => one.mem_iff.1 found)).mapM_perm
    (one.nodup_iff.2 (List.Nodup.of_map _ checked.ids)) bounded (one.trans two.symm)

end Emission

end JsEmitter
