import ServiceRegistry.Proofs.Catalog.Abstraction
import ServiceRegistry.Proofs.Catalog.Deed
import ServiceRegistry.Proofs.Procedure.Execution

/-!
# Operations on the store in memory implement the abstract catalog

Over consistent records every operation ends with the result that the abstract catalog gives, and
leaves the records in the catalog that it leaves: the refusals come in the right order, a refusal
changes nothing, and a write changes what it should and nothing else.

* `Request.implements`: one request over consistent records.
* `memory_implements_catalog`: a request after any history of a new store.
-/

namespace ServiceRegistry

/-- The operation has the meaning: one result, and one catalog after it. -/
def Operation.Implements {α : Type} (now : Int) (operation : Operation α)
    (meaning : Catalog → Except Refusal α × Catalog) : Prop :=
  ∀ world : World Memory, world.store.Consistent →
    ((operation.exec (Memory.answer now) world).1,
      (operation.exec (Memory.answer now) world).2.store.catalog) = meaning world.store.catalog

namespace Operation

variable {now : Int} {world : World Memory}

/-! ## Checks -/

theorem exec_serviceExists (id : Nat) :
    exec (Memory.answer now) (serviceExists id) world =
      (.ok (world.store.service? id).isSome, world) :=
  exec_bind_ok (exec_callOr rfl)

theorem exec_versionExists (id : Nat) (tag : String) :
    exec (Memory.answer now) (versionExists id tag) world =
      (.ok (world.store.version? id tag).isSome, world) :=
  exec_bind_ok (exec_callOr rfl)

theorem exec_checkService_some {id : Nat} {s : Service} (h : world.store.service? id = some s) :
    exec (Memory.answer now) (checkService id) world = (.ok (), world) :=
  (exec_bind_ok (exec_serviceExists id)).trans (exec_check_true (h ▸ rfl))

theorem exec_checkService_none {id : Nat} (h : world.store.service? id = none) :
    exec (Memory.answer now) (checkService id) world = (.error (.serviceMissing id), world) :=
  (exec_bind_ok (exec_serviceExists id)).trans (exec_check_false (h ▸ rfl))

theorem exec_checkVersion_some {id : Nat} {tag : String} {v : Version}
    (h : world.store.version? id tag = some v) :
    exec (Memory.answer now) (checkVersion id tag) world = (.ok (), world) :=
  (exec_bind_ok (exec_versionExists id tag)).trans (exec_check_true (h ▸ rfl))

theorem exec_checkVersion_none {id : Nat} {tag : String} (h : world.store.version? id tag = none) :
    exec (Memory.answer now) (checkVersion id tag) world = (.error (.versionMissing id tag), world) :=
  (exec_bind_ok (exec_versionExists id tag)).trans (exec_check_false (h ▸ rfl))

theorem exec_checkNameFree_named {operation name : String} {excluding : Option Nat}
    (hm : world.store.Consistent) (h : world.store.catalog.Named name excluding) :
    exec (Memory.answer now) (checkNameFree operation name excluding) world =
      (.error (.serviceExists name), world) :=
  (exec_bind_ok (exec_callOr rfl)).trans
    (exec_check_false (beq_false_of_ne (hm.named_iff.mp h)))

theorem exec_checkNameFree {operation name : String} {excluding : Option Nat}
    (hm : world.store.Consistent) (h : ¬ world.store.catalog.Named name excluding) :
    exec (Memory.answer now) (checkNameFree operation name excluding) world = (.ok (), world) := by
  have hzero : world.store.countServicesNamed name excluding = 0 := by
    by_contra hne
    exact h (hm.named_iff.mpr hne)
  refine (exec_bind_ok (exec_callOr rfl)).trans (exec_check_true ?_)
  rw [hzero]
  rfl

/-! ## Services -/

theorem implements_createService (name description : String) :
    Implements now (createService name description) fun c =>
      c.createService now name description := by
  intro world hm
  show _ = world.store.catalog.createService now name description
  by_cases hblank : Text.blank name = true
  · have hdone : exec (Memory.answer now) (createService name description) world =
        (.error (.invalidInput "service name is empty"), world) :=
      exec_bind_error (exec_checkNotBlank_blank hblank)
    rw [hdone, Catalog.createService, if_pos hblank]
  · by_cases hnamed : world.store.catalog.Named name none
    · have hdone : exec (Memory.answer now) (createService name description) world =
          (.error (.serviceExists name), world) :=
        (exec_bind_ok (exec_checkNotBlank hblank)).trans
          (exec_bind_error (exec_checkNameFree_named hm hnamed))
      rw [hdone, Catalog.createService, if_neg hblank, if_pos hnamed]
    · have hfree := mt hm.any_name_iff.mp hnamed
      have hdone : exec (Memory.answer now) (createService name description) world =
          (.ok ⟨world.store.lastId + 1, name, description, 0, now, now⟩,
            { world with
              store := { world.store with
                lastId := world.store.lastId + 1
                services := world.store.services ++
                  [⟨world.store.lastId + 1, name, description, 0, now, now⟩] }
              owed := true }) := by
        refine (exec_bind_ok (exec_checkNotBlank hblank)).trans ?_
        refine (exec_bind_ok (exec_checkNameFree hm hnamed)).trans ?_
        refine (exec_bind_ok (exec_callOr (Memory.insertService_free hfree now description))).trans ?_
        exact (exec_bind_ok exec_markOwed).trans (exec_pure _)
      rw [hdone, Catalog.createService, if_neg hblank, if_neg hnamed]
      exact congrArg _ (hm.catalog_insertService rfl)

theorem implements_updateService (id : Nat) (name description : String) :
    Implements now (updateService id name description) fun c =>
      c.updateService now id name description := by
  intro world hm
  show _ = world.store.catalog.updateService now id name description
  by_cases hblank : Text.blank name = true
  · have hdone : exec (Memory.answer now) (updateService id name description) world =
        (.error (.invalidInput "service name is empty"), world) :=
      exec_bind_error (exec_checkNotBlank_blank hblank)
    rw [hdone, Catalog.updateService, if_pos hblank]
  · cases hservice : world.store.service? id with
    | none =>
      have hdone : exec (Memory.answer now) (updateService id name description) world =
          (.error (.serviceMissing id), world) :=
        (exec_bind_ok (exec_checkNotBlank hblank)).trans
          (exec_bind_error (exec_checkService_none hservice))
      have hmissing : world.store.catalog.service id = none := hservice
      rw [hdone, Catalog.updateService, if_neg hblank, hmissing]
    | some s =>
      have hthere : world.store.catalog.service id = some s := hservice
      by_cases hnamed : world.store.catalog.Named name (some id)
      · have hdone : exec (Memory.answer now) (updateService id name description) world =
            (.error (.serviceExists name), world) := by
          refine (exec_bind_ok (exec_checkNotBlank hblank)).trans ?_
          refine (exec_bind_ok (exec_checkService_some hservice)).trans ?_
          exact exec_bind_error (exec_checkNameFree_named hm hnamed)
        rw [hdone, Catalog.updateService, if_neg hblank, hthere]
        exact (if_pos hnamed).symm
      · have hfree := mt hm.any_other_name_iff.mp hnamed
        have hupdate := Memory.updateService_free hfree now description
        rw [hservice] at hupdate
        have hdone : exec (Memory.answer now) (updateService id name description) world =
            (.ok { s with name := name, description := description, updatedAt := now },
              { world with
                store := world.store.changeService id fun s =>
                  { s with name := name, description := description, updatedAt := now }
                owed := true }) := by
          refine (exec_bind_ok (exec_checkNotBlank hblank)).trans ?_
          refine (exec_bind_ok (exec_checkService_some hservice)).trans ?_
          refine (exec_bind_ok (exec_checkNameFree hm hnamed)).trans ?_
          refine (exec_bind_ok (exec_callOr hupdate)).trans ?_
          refine (exec_bind_ok exec_require_some).trans ?_
          exact (exec_bind_ok exec_markOwed).trans (exec_pure _)
        rw [hdone, Catalog.updateService, if_neg hblank, hthere]
        refine Eq.trans ?_ (if_neg hnamed).symm
        refine congrArg _ (Memory.catalog_changeService ?_ _ _)
        exact fun _ => rfl

theorem implements_deleteService (id : Nat) :
    Implements now (deleteService id) fun c => c.deleteService id := by
  intro world hm
  show _ = world.store.catalog.deleteService id
  cases hservice : world.store.service? id with
  | none =>
    have hdone : exec (Memory.answer now) (deleteService id) world =
        (.error (.serviceMissing id), world) :=
      exec_bind_error (exec_checkService_none hservice)
    have hmissing : world.store.catalog.service id = none := hservice
    rw [hdone, Catalog.deleteService, hmissing]
  | some s =>
    have hthere : world.store.catalog.service id = some s := hservice
    have hdone : exec (Memory.answer now) (deleteService id) world =
        (.ok (),
          { world with
            store := { world.store with
              services := world.store.services.filter fun s => s.id != id
              versions := world.store.versions.filter fun v => v.serviceId != id }
            owed := true }) := by
      refine (exec_bind_ok (exec_checkService_some hservice)).trans ?_
      refine (exec_bind_ok (exec_callOr (Memory.deleteService_some hservice))).trans ?_
      exact (exec_bind_ok (exec_check_true rfl)).trans exec_markOwed
    rw [hdone, Catalog.deleteService, hthere]
    exact congrArg _ (Memory.catalog_deleteService world.store id)

/-! ## Versions -/

theorem implements_createVersion (id : Nat) (tag info : String) :
    Implements now (createVersion id tag info) fun c => c.createVersion now id tag info := by
  intro world hm
  show _ = world.store.catalog.createVersion now id tag info
  by_cases hblank : Text.blank tag = true
  · have hdone : exec (Memory.answer now) (createVersion id tag info) world =
        (.error (.invalidInput "version tag is empty"), world) :=
      exec_bind_error (exec_checkNotBlank_blank hblank)
    rw [hdone, Catalog.createVersion, if_pos hblank]
  · cases hservice : world.store.service? id with
    | none =>
      have hdone : exec (Memory.answer now) (createVersion id tag info) world =
          (.error (.serviceMissing id), world) :=
        (exec_bind_ok (exec_checkNotBlank hblank)).trans
          (exec_bind_error (exec_checkService_none hservice))
      have hmissing : world.store.catalog.service id = none := hservice
      rw [hdone, Catalog.createVersion, if_neg hblank, hmissing]
    | some s =>
      have hthere : world.store.catalog.service id = some s := hservice
      cases hversion : world.store.version? id tag with
      | some v =>
        have hdone : exec (Memory.answer now) (createVersion id tag info) world =
            (.error (.versionExists id tag), world) := by
          refine (exec_bind_ok (exec_checkNotBlank hblank)).trans ?_
          refine (exec_bind_ok (exec_checkService_some hservice)).trans ?_
          refine (exec_bind_ok (exec_versionExists id tag)).trans ?_
          exact exec_bind_error (exec_check_false (by rw [hversion]; rfl))
        rw [hdone, Catalog.createVersion, if_neg hblank, hthere, Memory.version_catalog, hversion]
      | none =>
        have hinsert := Memory.insertVersion_new hservice hversion now info
        have hdone : exec (Memory.answer now) (createVersion id tag info) world =
            (.ok ⟨id, tag, info, now, now⟩,
              { world with
                store := { world.store.changeService id fun s =>
                    { s with versionCount := s.versionCount + 1, updatedAt := now } with
                  versions := world.store.versions ++ [⟨id, tag, info, now, now⟩] }
                owed := true }) := by
          refine (exec_bind_ok (exec_checkNotBlank hblank)).trans ?_
          refine (exec_bind_ok (exec_checkService_some hservice)).trans ?_
          refine (exec_bind_ok (exec_versionExists id tag)).trans ?_
          refine (exec_bind_ok (exec_check_true (by rw [hversion]; rfl))).trans ?_
          refine (exec_bind_ok (exec_callOr hinsert)).trans ?_
          exact (exec_bind_ok exec_markOwed).trans (exec_pure _)
        rw [hdone, Catalog.createVersion, if_neg hblank, hthere, Memory.version_catalog, hversion]
        refine congrArg _ ((Memory.catalog_appendVersion _ rfl).trans ?_)
        rw [Memory.catalog_changeService]
        · rfl
        · exact fun _ => rfl

theorem implements_updateVersion (id : Nat) (tag info : String) :
    Implements now (updateVersion id tag info) fun c => c.updateVersion now id tag info := by
  intro world hm
  show _ = world.store.catalog.updateVersion now id tag info
  cases hversion : world.store.version? id tag with
  | none =>
    have hdone : exec (Memory.answer now) (updateVersion id tag info) world =
        (.error (.versionMissing id tag), world) :=
      exec_bind_error (exec_checkVersion_none hversion)
    rw [hdone, Catalog.updateVersion, Memory.version_catalog, hversion]
  | some v =>
    have hupdate : world.store.updateVersion now id tag info =
        (.ok (some { v with info := info, updatedAt := now }),
          { world.store with
            versions := world.store.versions.map fun v =>
              if Memory.isVersion id tag v then { v with info := info, updatedAt := now } else v }) := by
      rw [Memory.updateVersion, hversion]
      rfl
    have hdone : exec (Memory.answer now) (updateVersion id tag info) world =
        (.ok { v with info := info, updatedAt := now },
          { world with
            store := { world.store with
              versions := world.store.versions.map fun v =>
                if Memory.isVersion id tag v then { v with info := info, updatedAt := now }
                else v } }) := by
      refine (exec_bind_ok (exec_checkVersion_some hversion)).trans ?_
      exact (exec_bind_ok (exec_callOr hupdate)).trans exec_require_some
    rw [hdone, Catalog.updateVersion, Memory.version_catalog, hversion]
    refine congrArg _ (Memory.catalog_updateVersion _ ?_ id tag)
    exact fun _ => rfl

theorem implements_deleteVersion (id : Nat) (tag : String) :
    Implements now (deleteVersion id tag) fun c => c.deleteVersion now id tag := by
  intro world hm
  show _ = world.store.catalog.deleteVersion now id tag
  cases hversion : world.store.version? id tag with
  | none =>
    have hdone : exec (Memory.answer now) (deleteVersion id tag) world =
        (.error (.versionMissing id tag), world) :=
      exec_bind_error (exec_checkVersion_none hversion)
    rw [hdone, Catalog.deleteVersion, Memory.version_catalog, hversion]
  | some v =>
    have hdone : exec (Memory.answer now) (deleteVersion id tag) world =
        (.ok (),
          { world with
            store := { world.store.changeService id fun s =>
                { s with versionCount := s.versionCount - 1, updatedAt := now } with
              versions := world.store.versions.filter fun v => !Memory.isVersion id tag v }
            owed := true }) := by
      refine (exec_bind_ok (exec_checkVersion_some hversion)).trans ?_
      refine (exec_bind_ok (exec_callOr (Memory.deleteVersion_some hversion now))).trans ?_
      exact (exec_bind_ok (exec_check_true rfl)).trans exec_markOwed
    rw [hdone, Catalog.deleteVersion, Memory.version_catalog, hversion]
    refine congrArg _ ((Memory.catalog_removeVersion _ id tag).trans ?_)
    rw [Memory.catalog_changeService]
    · rfl
    · exact fun _ => rfl

/-! ## Listings -/

theorem implements_fetchServices (request : PageRequest) (filter : NameFilter) (sort : SortKey) :
    Implements now (fetchServices request filter sort) fun c =>
      (.ok (Catalog.page request (c.listing filter sort.source)), c) := by
  intro world hm
  have hdone : exec (Memory.answer now) (fetchServices request filter sort) world =
      (.ok (Catalog.page request (world.store.matching filter sort.source)), world) := by
    refine (exec_bind_ok (exec_callOr rfl)).trans ?_
    exact exec_fetchPage request _ fun range => exec_callOr rfl
  rw [hdone, ← hm.listing_catalog]

theorem implements_fetchVersions (id page size : Nat) :
    Implements now (fetchVersions id page size)
      (Catalog.respond now (.fetchVersions id page size)) := by
  intro world hm
  cases hservice : world.store.service? id with
  | none =>
    have hdone : exec (Memory.answer now) (fetchVersions id page size) world =
        (.error (.serviceMissing id), world) :=
      exec_bind_error (exec_checkService_none hservice)
    have hmissing : world.store.catalog.service id = none := hservice
    rw [hdone, Catalog.respond, hmissing]
  | some s =>
    have hthere : world.store.catalog.service id = some s := hservice
    have hdone : exec (Memory.answer now) (fetchVersions id page size) world =
        (.ok (Catalog.page (.of page size true) (world.store.versionsOf id)), world) := by
      refine (exec_bind_ok (exec_checkService_some hservice)).trans ?_
      refine (exec_bind_ok (exec_callOr rfl)).trans ?_
      exact exec_fetchPage _ _ fun range => exec_callOr rfl
    rw [hdone, Catalog.respond, hthere]
    rfl

/-! ## Looking up -/

theorem implements_getService (id : Nat) :
    Implements now (getService id) (Catalog.respond now (.getService id)) := by
  intro world hm
  have hcall : exec (Memory.answer now) (getService id) world =
      exec (Memory.answer now) (require (world.store.service? id) (.serviceMissing id)) world :=
    exec_bind_ok (exec_callOr rfl)
  have hfound : world.store.catalog.service id = world.store.service? id := rfl
  rw [hcall, Catalog.respond, hfound]
  cases world.store.service? id with
  | none => rfl
  | some s => rfl

theorem implements_getVersion (id : Nat) (tag : String) :
    Implements now (getVersion id tag) (Catalog.respond now (.getVersion id tag)) := by
  intro world hm
  have hcall : exec (Memory.answer now) (getVersion id tag) world =
      exec (Memory.answer now) (require (world.store.version? id tag) (.versionMissing id tag))
        world :=
    exec_bind_ok (exec_callOr rfl)
  rw [hcall, Catalog.respond, Memory.version_catalog]
  cases world.store.version? id tag with
  | none => rfl
  | some v => rfl

end Operation

open Operation

/-- Every operation implements its request. -/
theorem Request.implements (request : Request) (now : Int) :
    Implements now request.operation (Catalog.respond now request) := by
  cases request with
  | serviceExists id =>
    intro world hm
    exact congrArg (fun done => (done.1, done.2.store.catalog)) (exec_serviceExists id)
  | versionExists id tag =>
    intro world hm
    rw [Catalog.respond, Memory.version_catalog]
    exact congrArg (fun done => (done.1, done.2.store.catalog)) (exec_versionExists id tag)
  | getService id => exact implements_getService id
  | getVersion id tag => exact implements_getVersion id tag
  | createService name description => exact implements_createService name description
  | updateService id name description => exact implements_updateService id name description
  | deleteService id => exact implements_deleteService id
  | createVersion id tag info => exact implements_createVersion id tag info
  | updateVersion id tag info => exact implements_updateVersion id tag info
  | deleteVersion id tag => exact implements_deleteVersion id tag
  | fetchServices request filter sort => exact implements_fetchServices request filter sort
  | fetchVersions id page size => exact implements_fetchVersions id page size

/-- After any history of requests and refreshes over a new store in memory, the records make a
well-formed catalog, and the next request has the result and the effect that it has on this
catalog. -/
theorem memory_implements_catalog (history : List (Int × Deed)) (now : Int) (request : Request) :
    let world := Deed.done Memory.answer { store := {} } history
    let after := request.procedure.run (Memory.answer now) world
    world.store.catalog.WellFormed ∧
      (after.1, after.2.store.catalog) = Catalog.respond now request world.store.catalog := by
  intro world after
  have hconsistent : world.store.Consistent :=
    Deed.done_preserves Memory.Consistent (fun now call _ h => Memory.Consistent.answer h now call)
      Memory.consistent_of_new history
  exact ⟨hconsistent.wellFormed, request.implements now world hconsistent⟩

end ServiceRegistry
