import Hiya.Library.Ends
import Hiya.Pm.VaultStore

/-! Changes of the payload in memory. They read and check, and write once at their end. -/

namespace Hiya.Pm
open Library

section
variable {γ : Type} {view : VaultHandle → γ}

theorem keeps_liftVault {α : Type} (outcome : Except PmError α) : Proc.Keeps view (liftVault outcome) := by
  cases outcome with
  | ok value => exact .pure value
  | error problem => exact .fail problem

theorem keeps_getPayloadModel : Proc.Keeps view vaultGetPayloadModel :=
  .bind .get fun _ => .ite (.fail _) (.ite (.fail _) (keeps_liftVault _))

end

structure Edits {α : Type} (body : Vault α) : Prop where
  keeps : Proc.Keeps (·.locked) body
  atomic : Proc.Atomic body

namespace Edits
variable {α β : Type}

protected theorem fail (problem : PmError) : Edits (Proc.fail problem : Vault α) := ⟨.fail problem, .fail problem⟩

protected theorem bind {first : Vault β} {next : β → Vault α} (head : ∀ {γ : Type} {view : VaultHandle → γ},
    Proc.Keeps view first)
    (tail : ∀ value, Edits (next value)) : Edits (first >>= next) :=
  ⟨.bind head fun value => (tail value).keeps, .bind head fun value => (tail value).atomic⟩

protected theorem ite {condition : Prop} [Decidable condition] {first second : Vault α} (yes : Edits first)
    (no : Edits second) :
    Edits (if condition then first else second) := ⟨.ite yes.keeps no.keeps, .ite yes.atomic no.atomic⟩

theorem of_keeps {body : Vault α} (keeps : ∀ {γ : Type} {view : VaultHandle → γ}, Proc.Keeps view body) : Edits body := by
  refine ⟨keeps, fun state _ _ => ?_⟩
  have same : id (body state).2 = id state := keeps state
  exact same

end Edits

theorem edits_setPayload (payload : Bytes) : Edits (vaultSetPayload payload) := by
  have install : Edits (Proc.modify fun handle => { handle with payload } : Vault Unit) := ⟨.modify fun _ => rfl, .modify _⟩
  exact .bind .get fun _ => .ite (.fail _) (.ite (.fail _) (.bind (keeps_liftVault _) fun _ => install))

theorem edits_setPayloadModel (payload : Payload) : Edits (vaultSetPayloadModel payload) :=
  .bind .get fun _ => .ite (.fail _) (.bind (keeps_liftVault _) edits_setPayload)

theorem edits_entryUpdate (entryId : CStr) (replacement : Entry) : Edits (vaultEntryUpdate entryId replacement) := by
  refine .ite (.fail _) (.bind keeps_getPayloadModel fun payload => .bind (keeps_liftVault _) fun rebuilt => ?_)
  exact .ite (.fail _) (edits_setPayloadModel _)

theorem edits_entryRemove (entryId : CStr) : Edits (vaultEntryRemove entryId) := by
  refine .ite (.fail _) (.bind keeps_getPayloadModel fun payload => .bind (keeps_liftVault _) fun rebuilt => ?_)
  exact .ite (.fail _) (edits_setPayloadModel _)

theorem edits_entryAdd (entry : Entry) (failIfExists : Bool) : Edits (vaultEntryAdd entry failIfExists) := by
  refine .ite (.fail _) (.bind keeps_getPayloadModel fun payload => .ite (.fail _) (.ite (edits_entryUpdate _ _) ?_))
  exact .bind (keeps_liftVault _) edits_setPayloadModel

theorem Store.Edit.edits (change : Store.Edit) : Edits change.apply := by
  cases change with
  | setPayload payload => exact edits_setPayload payload
  | entryAdd entry failIfExists => exact edits_entryAdd entry failIfExists
  | entryUpdate entryId replacement => exact edits_entryUpdate entryId replacement
  | entryRemove entryId => exact edits_entryRemove entryId

end Hiya.Pm
