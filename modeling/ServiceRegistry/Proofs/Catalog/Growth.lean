import Mathlib.Data.List.Infix
import ServiceRegistry.Proofs.Catalog.Deed
import ServiceRegistry.Proofs.Procedure.Quiet
import ServiceRegistry.Proofs.Storage.Reading

/-!
# Catalogs that only grow

A deed spares the services that there are if it neither changes nor deletes one.  It may create
services and do anything to versions: every service keeps its id and its name, and new services come
after those that were there.

* `sparing` is the discipline of such deeds, and `Deed.follows_sparing` says which deeds keep to it.
* `RecordStore.Consistent.keys_done`: deeds that spare the services only append to their keys.
-/

namespace ServiceRegistry

def Call.spares : Call → Bool
  | .updateService .. => false
  | .deleteService _ => false
  | _ => true

def Request.spares : Request → Bool
  | .updateService .. => false
  | .deleteService _ => false
  | _ => true

/-- Neither changes nor deletes a service. -/
def Deed.spares : Deed → Bool
  | .ask request => request.spares
  | .refresh => true

/-! ## The keys of services -/

namespace Memory

variable {m : Memory}

/-- The id and the name of each service. -/
def keys (m : Memory) : List (Nat × String) := m.services.map fun s => (s.id, s.name)

theorem keys_changeService (m : Memory) (id : Nat) (change : Service → Service)
    (hid : ∀ s, (change s).id = s.id) (hname : ∀ s, (change s).name = s.name) :
    (m.changeService id change).keys = m.keys := by
  rw [keys, changeService, List.map_map]
  apply List.map_congr_left
  intro s _
  change ((if s.id == id then change s else s).id, (if s.id == id then change s else s).name) = _
  split
  · rw [hid, hname]
  · rfl

theorem keys_answer (now : Int) {call : Call} (hspares : call.spares = true) (m : Memory) :
    m.keys <+: (answer now call m).2.keys := by
  cases call with
  | updateService id name description => cases hspares
  | deleteService id => cases hspares
  | refreshView =>
    simp only [answer, refreshView]
    split <;> exact List.prefix_rfl
  | insertService name description =>
    simp only [answer, insertService]
    split
    · exact List.prefix_rfl
    · simp only [keys, List.map_append]
      exact List.prefix_append _ _
  | insertVersion id tag info =>
    simp only [answer, insertVersion]
    split
    · exact List.prefix_rfl
    · exact List.prefix_rfl
    · have hkeys := keys_changeService m id
        (fun s => { s with versionCount := s.versionCount + 1, updatedAt := now })
        (fun _ => rfl) (fun _ => rfl)
      rw [← hkeys]
      exact List.prefix_rfl
  | deleteVersion id tag =>
    simp only [answer, deleteVersion]
    split
    · exact List.prefix_rfl
    · have hkeys := keys_changeService m id
        (fun s => { s with versionCount := s.versionCount - 1, updatedAt := now })
        (fun _ => rfl) (fun _ => rfl)
      rw [← hkeys]
      exact List.prefix_rfl
  | _ => exact List.prefix_rfl

/-- The services of the table that pass a filter are known by the keys. -/
theorem ids_matching (m : Memory) (filter : NameFilter) :
    (m.matching filter .table).map (·.id) =
      (m.keys.filter fun key => filter.holds key.2).map Prod.fst := by
  rw [keys, List.filter_map, List.map_map]
  rfl

end Memory

theorem Call.spares_addressed (call : Call) : call.addressed.spares = call.spares := by
  cases call <;> rfl

namespace RecordStore

variable {store : RecordStore}

theorem Consistent.keys_answer (h : store.Consistent) (now : Int) {call : Call}
    (hspares : call.spares = true) :
    store.records.keys <+: (RecordStore.answer now call store).2.records.keys := by
  cases store with
  | memory m => exact Memory.keys_answer now hspares m
  | database db =>
    by_cases hrefresh : call = .refreshView
    · subst hrefresh
      exact List.prefix_rfl
    · change db.records.keys <+: (db.respond now call).2.records.keys
      rcases Database.Consistent.records_respond h now hrefresh with hsame | hrecords
      · rw [hsame]
      · rw [hrecords]
        exact Memory.keys_answer now (call.spares_addressed.trans hspares) db.records

end RecordStore

/-! ## Deeds that spare the services -/

/-- No call changes or deletes a service. -/
def sparing : Discipline Unit where
  allows _ act := ∀ call, act = .call call → call.spares = true
  after _ _ _ := ()

theorem sparing_quiet {call : Call} (h : call.spares = true) :
    sparing.Quiet (fun _ => True) (.call call) := by
  intro note _
  refine ⟨?_, fun _ => trivial⟩
  intro made hmade
  cases hmade
  exact h

theorem sparing_tolerant : sparing.Tolerant fun _ => True where
  call call hreads := by
    apply sparing_quiet
    cases call with
    | updateService id name description => cases hreads
    | deleteService id => cases hreads
    | _ => rfl
  mark _ _ := ⟨nofun, fun _ => trivial⟩
  record _ _ _ := ⟨nofun, fun _ => trivial⟩

open Operation

theorem Request.quiet_sparing {request : Request} (h : request.spares = true) :
    Operation.Quiet sparing (fun _ => True) request.operation := by
  have hmark {α : Type} (value : α) :
      Operation.Quiet sparing (fun _ => True) (do Procedure.markOwed; return value) :=
    quiet_bind (quiet_mark sparing_tolerant) fun _ => quiet_pure value
  cases request with
  | serviceExists id => exact quiet_serviceExists sparing_tolerant id
  | versionExists id tag => exact quiet_versionExists sparing_tolerant id tag
  | getService id => exact quiet_getService sparing_tolerant id
  | getVersion id tag => exact quiet_getVersion sparing_tolerant id tag
  | createService name description =>
    refine quiet_bind (quiet_check _ _) fun _ => ?_
    refine quiet_bind (quiet_checkNameFree sparing_tolerant _ _ _) fun _ => ?_
    exact quiet_bind (quiet_callOr sparing_tolerant (sparing_quiet rfl)) hmark
  | updateService id name description => cases h
  | deleteService id => cases h
  | createVersion id tag info =>
    refine quiet_bind (quiet_check _ _) fun _ => ?_
    refine quiet_bind (quiet_checkService sparing_tolerant id) fun _ => ?_
    refine quiet_bind (quiet_versionExists sparing_tolerant id tag) fun _ => ?_
    refine quiet_bind (quiet_check _ _) fun _ => ?_
    exact quiet_bind (quiet_callOr sparing_tolerant (sparing_quiet rfl)) hmark
  | updateVersion id tag info =>
    refine quiet_bind (quiet_checkVersion sparing_tolerant id tag) fun _ => ?_
    exact quiet_bind (quiet_callOr sparing_tolerant (sparing_quiet rfl)) fun _ => quiet_require _ _
  | deleteVersion id tag =>
    refine quiet_bind (quiet_checkVersion sparing_tolerant id tag) fun _ => ?_
    refine quiet_bind (quiet_callOr sparing_tolerant (sparing_quiet rfl)) fun _ => ?_
    exact quiet_bind (quiet_check _ _) fun _ => quiet_mark sparing_tolerant
  | fetchServices request filter sort => exact quiet_fetchServices sparing_tolerant request filter sort
  | fetchVersions id page size => exact quiet_fetchVersions sparing_tolerant id page size

theorem Refresh.follows_sparing_ifOwed :
    Refresh.ifOwed.Follows sparing (fun _ _ => True) () := by
  refine ⟨nofun, fun owed => ?_⟩
  cases owed with
  | false => trivial
  | true =>
    refine ⟨fun call hcall => by cases hcall; rfl, fun reply => ?_⟩
    cases reply with
    | ok _ => exact ⟨nofun, fun _ => trivial⟩
    | error fault => exact ⟨nofun, fun _ => ⟨nofun, fun _ => trivial⟩⟩

theorem Deed.follows_sparing {deed : Deed} (h : deed.spares = true) :
    deed.procedure.Follows sparing (fun _ _ => True) () := by
  cases deed with
  | ask request =>
    exact Procedure.Follows.mono (Request.quiet_sparing h () trivial) fun _ _ _ => trivial
  | refresh => exact Refresh.follows_sparing_ifOwed

namespace RecordStore

variable {world : World RecordStore}

/-- A deed that spares the services only appends to their keys. -/
theorem Consistent.keys_run (h : world.store.Consistent) (now : Int) {deed : Deed}
    (hspares : deed.spares = true) :
    let after := (deed.procedure.run (RecordStore.answer now) world).2
    after.store.Consistent ∧ world.store.records.keys <+: after.store.records.keys := by
  intro after
  let grown (_ : Unit) (later : World RecordStore) : Prop :=
    later.store.Consistent ∧ world.store.records.keys <+: later.store.records.keys
  have hstep : ∀ note later act, sparing.allows note act → grown note later →
      grown (sparing.after note act (later.perform (RecordStore.answer now) act).1)
        (later.perform (RecordStore.answer now) act).2 := by
    rintro note later act hallows ⟨hconsistent, hkeys⟩
    cases act with
    | call call =>
      exact ⟨hconsistent.answer now call, hkeys.trans (hconsistent.keys_answer now (hallows call rfl))⟩
    | markOwed => exact ⟨hconsistent, hkeys⟩
    | consumeOwed => exact ⟨hconsistent, hkeys⟩
    | record event => exact ⟨hconsistent, hkeys⟩
  obtain ⟨_, -, hgrown⟩ := (Deed.follows_sparing hspares).run hstep ⟨h, List.prefix_rfl⟩
  exact hgrown

/-- Deeds that spare the services only append to their keys. -/
theorem Consistent.keys_done (h : world.store.Consistent) {deeds : List (Int × Deed)}
    (hspare : ∀ step ∈ deeds, step.2.spares = true) :
    (Deed.done RecordStore.answer world deeds).store.Consistent ∧
      world.store.records.keys <+: (Deed.done RecordStore.answer world deeds).store.records.keys := by
  induction deeds generalizing world with
  | nil => exact ⟨h, List.prefix_rfl⟩
  | cons step rest ih =>
    obtain ⟨hstep, hkeys⟩ := h.keys_run step.1 (hspare step List.mem_cons_self)
    obtain ⟨hrest, hlater⟩ := ih hstep fun later hlater => hspare later (List.mem_cons_of_mem _ hlater)
    exact ⟨hrest, hkeys.trans hlater⟩

end RecordStore

end ServiceRegistry
