import SceneEdit.Session.Basic

/-!
# What a host carries out

A request succeeds exactly if the host does not refuse it and the scene carries it out; the result
is that of the scene.
-/

namespace SceneEdit

namespace Host

variable {host : Host} {scene : Scene} {id : EntityId}

theorem permit_eq_ok_iff {request : HostRequest} {entity : Option EntityId}
    {type : Option TypeName} :
    host.permit request entity type = .ok () ↔ host.refuses request entity type = false := by
  rw [permit]
  cases host.refuses request entity type <;> simp

/-- A request is a permission followed by a change. -/
theorem bind_permit_eq_ok_iff {α : Type} {request : HostRequest} {entity : Option EntityId}
    {type : Option TypeName} {change : Except SceneError α} {a : α} :
    ((host.permit request entity type).bind fun _ => change) = .ok a ↔
      host.refuses request entity type = false ∧ change = .ok a := by
  rw [← permit_eq_ok_iff]
  cases host.permit request entity type <;> simp [Except.bind]

end Host

namespace Editor

variable {editor : Editor} {scene changed : Scene} {id : EntityId}

theorem createRequest_eq_ok_iff {name : String} {parent : Option EntityId} :
    (editor.createRequest name parent scene).result = .ok (id, changed) ↔
      editor.host.refuses .createEntity parent none = false ∧
        scene.create name parent = .ok (id, changed) := by
  rw [← Host.bind_permit_eq_ok_iff]
  simp only [createRequest, Host.create, Traced.result_bind, Traced.result_ofExcept]
  cases scene.create name parent <;> simp [Except.bind]

theorem destroyRequest_eq_ok_iff {done : Unit} :
    (editor.destroyRequest id scene).result = .ok (done, changed) ↔
      editor.host.refuses .destroyEntity (some id) none = false ∧
        scene.destroy id = .ok changed := by
  rw [← Host.bind_permit_eq_ok_iff]
  simp only [destroyRequest, Host.destroy, map_eq_pure_bind, Traced.result_bind,
    Traced.result_ofExcept]
  cases editor.host.permit .destroyEntity (some id) none <;>
    cases scene.destroy id <;> simp [Except.bind]

theorem duplicateRequest_eq_ok_iff {name : String} {copy : EntityId} :
    (editor.duplicateRequest id name scene).result = .ok (copy, changed) ↔
      editor.host.refuses .duplicateEntity (some id) none = false ∧
        scene.duplicate id name = .ok (copy, changed) := by
  rw [← Host.bind_permit_eq_ok_iff]
  simp only [duplicateRequest, Host.duplicate, Traced.result_bind, Traced.result_ofExcept]
  cases scene.duplicate id name <;> simp [Except.bind]

theorem parentRequest_eq_ok_iff {parent : Option EntityId} {done : Unit} :
    (editor.parentRequest id parent scene).result = .ok (done, changed) ↔
      editor.host.refuses .setParent (some id) none = false ∧
        scene.setParent id parent = .ok changed := by
  rw [← Host.bind_permit_eq_ok_iff]
  simp only [parentRequest, Host.setParent, map_eq_pure_bind, Traced.result_bind,
    Traced.result_ofExcept]
  cases editor.host.permit .setParent (some id) none <;>
    cases scene.setParent id parent <;> simp [Except.bind]

theorem attachRequest_eq_ok_iff {type : Descriptor} {state : Object}
    {capability : CapabilityId} :
    (editor.attachRequest id type state scene).result = .ok (capability, changed) ↔
      editor.host.refuses .addCapability (some id) (some type.fullName) = false ∧
        scene.attach id type state = .ok (capability, changed) := by
  rw [← Host.bind_permit_eq_ok_iff]
  simp only [attachRequest, Host.attach, Traced.result_bind, Traced.result_ofExcept]

theorem detachRequest_eq_ok_iff {capability : CapabilityId} {done : Unit} :
    (editor.detachRequest id capability scene).result = .ok (done, changed) ↔
      editor.host.refuses .removeCapability (some id)
        (((scene.entity? id).bind fun entity => entity.attached? capability).map
          (·.type.fullName)) = false ∧ scene.detach id capability = .ok changed := by
  rw [← Host.bind_permit_eq_ok_iff]
  simp only [detachRequest, Host.detach, map_eq_pure_bind, Traced.result_bind,
    Traced.result_ofExcept]
  cases editor.host.permit .removeCapability (some id) _ <;>
    cases scene.detach id capability <;> simp [Except.bind]

end Editor
end SceneEdit
