import ServiceRegistry.Proofs.Storage.Integrity
import ServiceRegistry.Proofs.Storage.Reopening

/-!
# Ids that are given once

Whoever calls a store hears ids: those of services, and those of the services that versions belong to.
Services are numbered in the order of their creation, without gaps, whatever is refused, renamed or
deleted in between.  The id of a deleted service is retired.  No answer from the tables tells it again, it
counts no versions, and no version can be added to it.

* `NeverReuses` is what is claimed of all that is heard of a store.
* `RecordStore.Retired` says that an id has been given and is not in the table, and
  `RecordStore.Retired.answer` that no call brings it back.
* `RecordStore.Retired.avoids`: what is heard of a retired id in one exchange.
* `RecordStore.Consistent.neverReuses`: so it is heard in any history, and across reopenings.
-/

namespace ServiceRegistry

/-! ## What is heard of ids -/

/-- The ids that an answer from the tables tells: those of services and of the owners of versions. -/
def Call.told : (call : Call) → call.Answer → List Nat
  | .scanServices _ .table _, found => found.map (·.id)
  | .getService _, found => found.toList.map (·.id)
  | .insertService .., added => [added.id]
  | .updateService .., changed => changed.toList.map (·.id)
  | .getVersion .., found => found.toList.map (·.serviceId)
  | .insertVersion .., added => [added.serviceId]
  | .updateVersion .., changed => changed.toList.map (·.serviceId)
  | .scanVersions .., found => found.map (·.serviceId)
  | _, _ => []

namespace Exchange

def told (exchange : Exchange) : List Nat :=
  match exchange.reply with
  | .ok answered => exchange.call.told answered
  | .error _ => []

/-- The id of the service that is created. -/
def given? : Exchange → Option Nat
  | ⟨_, .insertService .., .ok added⟩ => some added.id
  | _ => none

/-- The exchange does not tell the id, counts no versions for it and adds none to it. -/
structure Avoids (exchange : Exchange) (id : Nat) : Prop where
  untold : id ∉ exchange.told
  countsNone : ∀ now reply, exchange = ⟨now, .countVersions id, reply⟩ → reply = .ok 0
  refusesVersion : ∀ now tag info reply, exchange = ⟨now, .insertVersion id tag info, reply⟩ →
    reply = .error ⟨.invalid, "service " ++ toString id ++ " does not exist"⟩

end Exchange

/-- The services that are created are numbered from one on, and once a service has been deleted its id is
avoided. -/
structure NeverReuses (heard : List Exchange) : Prop where
  numbered : heard.filterMap Exchange.given? = List.range' 1 (heard.countP Exchange.createsService)
  retired : heard.Pairwise fun earlier later =>
    ∀ now id, earlier = ⟨now, .deleteService id, .ok true⟩ → later.Avoids id

/-! ## The ids of the table -/

namespace Memory

variable {m : Memory}

/-- A call brings no id into the table but the next one. -/
theorem mem_ids_answer {now : Int} {call : Call} {id : Nat} (h : id ∈ (answer now call m).2.ids) :
    id ∈ m.ids ∨ m.lastId < id := by
  have hchange : ∀ {change : Service → Service} {other : Nat},
      id ∈ (m.changeService other change).services.map (·.id) → (∀ s, (change s).id = s.id) →
      id ∈ m.ids := by
    intro change other hmem hid
    rwa [← ids, ids_changeService hid] at hmem
  cases call with
  | refreshView =>
    simp only [answer, refreshView] at h
    split at h <;> exact Or.inl h
  | insertService name description =>
    simp only [answer, insertService] at h
    split at h
    · exact Or.inl h
    · simp only [ids, List.map_append, List.map_singleton, List.mem_append, List.mem_singleton] at h
      rcases h with hold | rfl
      · exact Or.inl hold
      · exact Or.inr (Nat.lt_succ_self _)
  | updateService other name description =>
    simp only [answer, updateService] at h
    split at h
    · exact Or.inl h
    · exact Or.inl (hchange h fun _ => rfl)
  | deleteService other =>
    simp only [answer, deleteService] at h
    split at h
    · exact Or.inl h
    · exact Or.inl ((List.filter_sublist.map _).subset h)
  | insertVersion other tag info =>
    simp only [answer, insertVersion] at h
    split at h
    · exact Or.inl h
    · exact Or.inl h
    · exact Or.inl (hchange h fun _ => rfl)
  | deleteVersion other tag =>
    simp only [answer, deleteVersion] at h
    split at h
    · exact Or.inl h
    · exact Or.inl (hchange h fun _ => rfl)
  | _ => exact Or.inl h

theorem notMem_ids_deleteService (m : Memory) (id : Nat) : id ∉ (m.deleteService id).2.ids := by
  unfold deleteService
  split
  · rename_i hnone
    exact service?_eq_none_iff.mp hnone
  · intro hmem
    obtain ⟨s, hs, hid⟩ := List.mem_map.mp hmem
    exact bne_iff_ne.mp (List.mem_filter.mp hs).2 hid

end Memory

namespace Database

theorem lastServiceId_of_not_inserts (now : Int) {call : Call}
    (hcall : ∀ name description, call ≠ .insertService name description) (db : Database) :
    (db.respond now call).2.lastServiceId = db.lastServiceId := by
  cases call with
  | insertService name description => exact absurd rfl (hcall name description)
  | updateService id name description =>
    simp only [respond, updateService]
    split
    · rfl
    · split <;> rfl
  | deleteService id =>
    simp only [respond, deleteService]
    split <;> rfl
  | insertVersion id tag info =>
    simp only [respond]
    obtain ⟨fault, hrefused⟩ | ⟨row, given, -, -, -, hadded⟩ :=
      db.insertVersion_cases now id tag info
    · rw [hrefused]
    · rw [hadded]
      rfl
  | deleteVersion id tag =>
    simp only [respond, deleteVersion]
    split <;> rfl
  | _ => rfl

theorem Consistent.notMem_ids_deleteService {db : Database} (h : db.Consistent) (id : Nat) :
    signedId id ∉ (db.deleteService id).2.records.ids := by
  unfold deleteService
  split
  · rename_i hnone
    have hservice := h.serviceRow? id
    rw [hnone] at hservice
    exact Memory.service?_eq_none_iff.mp hservice.symm
  · intro hmem
    obtain ⟨s, hs, hid⟩ := List.mem_map.mp hmem
    obtain ⟨row, hrow, rfl⟩ := List.mem_map.mp hs
    obtain ⟨hrow, hother⟩ := List.mem_filter.mp hrow
    have hsame := beq_toSigned (h.undamaged.ids row hrow) id
    have hequal : (row.id.toNat == signedId id) = true := beq_iff_eq.mpr hid
    rw [bne, hsame, hequal] at hother
    cases hother

end Database

/-- An opening is known by the file and the tables that it finds. -/
theorem OpenDatabase.of_found {result : Except OpeningFault OpenDatabase} {file : Option String}
    {tables : Database}
    (h : result.toOption.map (fun found => (found.file, found.tables)) = some (file, tables)) :
    result = .ok ⟨file, tables⟩ := by
  cases result with
  | error fault => cases h
  | ok found =>
    obtain ⟨rfl, rfl⟩ := Prod.mk.inj (Option.some.inj h)
    rfl

namespace RecordStore

variable {store : RecordStore} {now : Int} {id : Nat}

namespace Consistent

theorem mem_ids_answer (h : store.Consistent) {call : Call} {other : Nat}
    (hmem : other ∈ (RecordStore.answer now call store).2.records.ids) :
    other ∈ store.records.ids ∨ store.records.lastId < other := by
  cases store with
  | memory m => exact Memory.mem_ids_answer hmem
  | database db =>
    change other ∈ (db.respond now call).2.records.ids at hmem
    by_cases hrefresh : call = .refreshView
    · subst hrefresh
      exact Or.inl hmem
    · rcases Database.Consistent.records_respond h now hrefresh with hsame | hrecords
      · rw [hsame] at hmem
        exact Or.inl hmem
      · rw [hrecords] at hmem
        exact Memory.mem_ids_answer hmem

theorem lastId_le_answer (now : Int) (call : Call) (store : RecordStore) :
    store.records.lastId ≤ (RecordStore.answer now call store).2.records.lastId := by
  cases store with
  | memory m => exact Memory.lastId_le_answer now call m
  | database db => exact Int.toNat_le_toNat (db.last_le_respond now call).1

/-- A service that is refused leaves the store as it is, and one that is created is given the next id. -/
theorem insertService_cases (h : store.Consistent) (now : Int) (name description : String) :
    (∃ fault, RecordStore.answer now (.insertService name description) store =
      (.error fault, store)) ∨
    ∃ added after, RecordStore.answer now (.insertService name description) store =
        (.ok added, after) ∧
      added.id = store.records.lastId + 1 ∧ after.records.lastId = added.id ∧
      added ∈ after.records.services := by
  cases store with
  | memory m =>
    by_cases htaken : (m.services.any fun s => s.name == name) = true
    · exact Or.inl ⟨_, answer_memory (Memory.insertService_taken htaken _ _)⟩
    · refine Or.inr ⟨_, _, answer_memory (Memory.insertService_free htaken _ _), rfl, rfl, ?_⟩
      exact List.mem_append_right _ List.mem_cons_self
  | database db =>
    obtain ⟨fault, hinsert⟩ | ⟨given, hnext, hfree, -⟩ :=
      db.insertService_cases now name description
    · have hrefused : db.respond now (.insertService name description) = _ := hinsert
      exact Or.inl ⟨_, answer_database hrefused⟩
    · have hundamaged := Database.Consistent.undamaged h
      have hlast := hundamaged.lastService
      obtain rfl := eq_succ_of_nextRowId hlast (Database.Consistent.service_ids_le h) hnext
      have hinserted : db.respond now (.insertService name description) = _ :=
        Database.insertService_free hnext (by omega) hfree now description
      have hsucc : (db.lastServiceId + 1).toNat = db.lastServiceId.toNat + 1 := by omega
      refine Or.inr ⟨_, _, answer_database hinserted, hsucc, rfl, ?_⟩
      exact List.mem_map.mpr ⟨_, List.mem_append_right _ List.mem_cons_self, rfl⟩

end Consistent

/-- Only the creation of a service gives an id. -/
theorem lastId_of_not_inserts (now : Int) {call : Call}
    (hcall : ∀ name description, call ≠ .insertService name description) (store : RecordStore) :
    (answer now call store).2.records.lastId = store.records.lastId := by
  cases store with
  | memory m =>
    have hcreates : call.createsService (Memory.answer now call m).1 = false := by
      cases call with
      | insertService name description => exact absurd rfl (hcall name description)
      | _ => rfl
    have hlast := Memory.lastId_answer now call m
    rw [hcreates] at hlast
    exact hlast
  | database db => exact congrArg Int.toNat (Database.lastServiceId_of_not_inserts now hcall db)

/-- One exchange gives the next id or none. -/
theorem Consistent.gives (h : store.Consistent) (now : Int) (call : Call) :
    let exchange : Exchange := ⟨now, call, (RecordStore.answer now call store).1⟩
    let after := (RecordStore.answer now call store).2
    (exchange.createsService = true ∧ exchange.given? = some (store.records.lastId + 1) ∧
      after.records.lastId = store.records.lastId + 1) ∨
    (exchange.createsService = false ∧ exchange.given? = none ∧
      after.records.lastId = store.records.lastId) := by
  intro exchange after
  by_cases hcall : ∃ name description, call = .insertService name description
  · obtain ⟨name, description, rfl⟩ := hcall
    rcases h.insertService_cases now name description with
      ⟨fault, hrefused⟩ | ⟨added, later, hadded, hid, hlast, -⟩
    · simp only [exchange, after, hrefused]
      exact Or.inr ⟨rfl, rfl, trivial⟩
    · rw [← hid]
      simp only [exchange, after, hadded]
      exact Or.inl ⟨rfl, rfl, hlast⟩
  · have hlast := lastId_of_not_inserts now (fun name description heq =>
      hcall ⟨name, description, heq⟩) store
    refine Or.inr ⟨?_, ?_, hlast⟩
    · cases call with
      | insertService name description => exact absurd ⟨name, description, rfl⟩ hcall
      | _ => rfl
    · cases call with
      | insertService name description => exact absurd ⟨name, description, rfl⟩ hcall
      | _ => rfl

/-! ## What writes tell -/

namespace Consistent

theorem owner_mem (h : store.Consistent) {v : Version} (hv : v ∈ store.records.versions) :
    v.serviceId ∈ store.records.ids :=
  h.records.owned _ (List.mem_map_of_mem hv)

/-- A service that is changed was there. -/
theorem updateService_tells (h : store.Consistent) {name description : String} {s : Service}
    (hreply : (RecordStore.answer now (.updateService id name description) store).1 =
      .ok (some s)) : s.id ∈ store.records.ids := by
  cases store with
  | memory m =>
    by_cases htaken : (m.services.any fun s => s.name == name && s.id != id) = true
    · have hrefused : Memory.answer now (.updateService id name description) m = _ :=
        Memory.updateService_taken htaken now description
      rw [answer_memory hrefused] at hreply
      cases hreply
    · have hupdated : Memory.answer now (.updateService id name description) m = _ :=
        Memory.updateService_free htaken now description
      rw [answer_memory hupdated] at hreply
      obtain ⟨before, hbefore, rfl⟩ := Option.map_eq_some_iff.mp (Except.ok.inj hreply)
      have hservice : before ∈ m.services := List.mem_of_find?_eq_some hbefore
      have hid : before.id ∈ m.ids := Memory.mem_ids hservice
      exact hid
  | database db =>
    cases hrow : db.serviceRow? id with
    | none =>
      have hmissing : db.respond now (.updateService id name description) = _ :=
        Database.updateService_none hrow now name description
      rw [answer_database hmissing] at hreply
      cases hreply
    | some row =>
      by_cases htaken :
          (db.services.any fun row => row.name == name && row.id != toSigned id) = true
      · have hrefused : db.respond now (.updateService id name description) = _ :=
          Database.updateService_taken hrow htaken now description
        rw [answer_database hrefused] at hreply
        cases hreply
      · have hupdated : db.respond now (.updateService id name description) = _ :=
          Database.updateService_free h.sound hrow htaken now description
        rw [answer_database hupdated] at hreply
        cases hreply
        have hservice : row.service ∈ db.records.services :=
          List.mem_map_of_mem (List.mem_of_find?_eq_some hrow)
        have hid : row.service.id ∈ db.records.ids := Memory.mem_ids hservice
        exact hid

/-- A version that is changed was there, and so was its owner. -/
theorem updateVersion_tells (h : store.Consistent) {tag info : String} {v : Version}
    (hreply : (RecordStore.answer now (.updateVersion id tag info) store).1 = .ok (some v)) :
    v.serviceId ∈ store.records.ids := by
  cases store with
  | memory m =>
    obtain ⟨before, hbefore, rfl⟩ := Option.map_eq_some_iff.mp (Except.ok.inj hreply)
    have hversion : before ∈ m.versions := List.mem_of_find?_eq_some hbefore
    have howner : before.serviceId ∈ m.ids := owner_mem h hversion
    exact howner
  | database db =>
    cases hrow : db.versionRow? id tag with
    | none =>
      have hmissing : db.respond now (.updateVersion id tag info) = _ :=
        Database.updateVersion_none hrow now info
      rw [answer_database hmissing] at hreply
      cases hreply
    | some row =>
      have hupdated : db.respond now (.updateVersion id tag info) = _ :=
        Database.updateVersion_some (Database.Consistent.numbered h).owners hrow now info
      rw [answer_database hupdated] at hreply
      cases hreply
      have hversion : row.version ∈ db.records.versions :=
        List.mem_map_of_mem (List.mem_of_find?_eq_some hrow)
      have howner : row.version.serviceId ∈ db.records.ids := owner_mem h hversion
      exact howner

/-- No version is added to a service that is not there. -/
theorem insertVersion_missing (h : store.Consistent) (hgone : store.address id ∉ store.records.ids)
    (now : Int) (tag info : String) :
    RecordStore.answer now (.insertVersion id tag info) store =
      (.error ⟨.invalid, "service " ++ toString id ++ " does not exist"⟩, store) := by
  have hnone := Memory.service?_eq_none_iff.mpr hgone
  cases store with
  | memory m => exact answer_memory (Memory.insertVersion_none hnone now info)
  | database db =>
    have hrow := Database.Consistent.serviceRow? h id
    have hmissing : db.respond now (.insertVersion id tag info) = _ :=
      Database.insertVersion_none (Option.map_eq_none_iff.mp (hrow.trans hnone)) now info
    exact answer_database hmissing

end Consistent

/-- The owner of a version that is added is the one asked for. -/
theorem insertVersion_tells {tag info : String} {v : Version}
    (hreply : (answer now (.insertVersion id tag info) store).1 = .ok v) : v.serviceId = id := by
  cases store with
  | memory m =>
    simp only [answer, Memory.answer, Memory.insertVersion] at hreply
    split at hreply
    · cases hreply
    · cases hreply
    · cases hreply
      rfl
  | database db =>
    simp only [answer, Database.answer, Database.respond] at hreply
    obtain ⟨fault, hrefused⟩ | ⟨row, given, -, -, -, hadded⟩ :=
      db.insertVersion_cases now id tag info
    · rw [hrefused] at hreply
      cases hreply
    · rw [hadded] at hreply
      cases hreply
      rfl

/-! ## Retired ids -/

/-- The id has been given, and there is no service of it. -/
structure Retired (store : RecordStore) (id : Nat) : Prop where
  given : store.address id ≤ store.records.lastId
  gone : store.address id ∉ store.records.ids

namespace Retired

/-- No call brings a retired id back. -/
theorem answer (h : store.Retired id) (hstore : store.Consistent) (now : Int) (call : Call) :
    (RecordStore.answer now call store).2.Retired id := by
  have hlast := Consistent.lastId_le_answer now call store
  constructor
  · rw [address_answer]
    exact h.given.trans hlast
  · rw [address_answer]
    intro hmem
    rcases hstore.mem_ids_answer hmem with hold | hnew
    · exact h.gone hold
    · have hgiven := h.given
      omega

theorem failNext (h : store.Retired id) (count : Nat) : (store.failNext count).Retired id := by
  cases store with
  | memory m => exact ⟨h.given, h.gone⟩
  | database db => exact h

/-- The id of a service is not retired. -/
theorem ne_of_mem (h : store.Retired id) (hstore : store.Consistent) {other : Nat}
    (hmem : other ∈ store.records.ids) : other ≠ id := by
  rintro rfl
  obtain ⟨s, hs, rfl⟩ := List.mem_map.mp hmem
  have haddress := hstore.address_id hs
  exact h.gone (haddress.symm ▸ hmem)

/-- Deleting a service retires its id. -/
theorem of_deleted (h : store.Consistent)
    (hreply : (RecordStore.answer now (.deleteService id) store).1 = .ok true) :
    (RecordStore.answer now (.deleteService id) store).2.Retired id := by
  have hlast := Consistent.lastId_le_answer now (.deleteService id) store
  have hknown : store.address id ≤ store.records.lastId := by
    rcases h.deleteService_lands now id with hmissing | ⟨after, before, -, hfound⟩
    · rw [hmissing] at hreply
      cases hreply
    · rw [h.getService] at hfound
      cases hservice : store.records.service? (store.address id) with
      | none => rw [hservice] at hfound; cases hfound
      | some s =>
        obtain ⟨hs, hid⟩ := h.records.service?_eq_some.mp hservice
        exact hid ▸ (h.records.given _ (Memory.mem_ids hs)).2
  refine ⟨address_answer now _ store ▸ hknown.trans hlast, ?_⟩
  rw [address_answer]
  cases store with
  | memory m => exact m.notMem_ids_deleteService id
  | database db => exact Database.Consistent.notMem_ids_deleteService h id

/-- No answer from the tables tells a retired id. -/
theorem untold (h : store.Retired id) (hstore : store.Consistent) {call : Call}
    {answered : call.Answer} (hreply : (RecordStore.answer now call store).1 = .ok answered) :
    id ∉ call.told answered := by
  intro hmem
  -- All ids that are told belong to services of the table, before the call or after it.
  have hbefore : id ∉ store.records.ids := fun hid => h.ne_of_mem hstore hid rfl
  have hafter : id ∉ (RecordStore.answer now call store).2.records.ids := fun hid =>
    (h.answer hstore now call).ne_of_mem (hstore.answer now call) hid rfl
  cases call with
  | scanServices filter source range =>
    cases source with
    | sortedView => cases hmem
    | table =>
      rw [hstore.scanServices] at hreply
      cases hreply
      obtain ⟨s, hs, rfl⟩ := List.mem_map.mp hmem
      have hrow := List.mem_of_mem_filter (List.mem_of_mem_drop (List.mem_of_mem_take hs))
      exact hbefore (Memory.mem_ids hrow)
  | getService other =>
    rw [hstore.getService] at hreply
    cases hreply
    obtain ⟨s, hs, rfl⟩ := List.mem_map.mp hmem
    have hservice := (hstore.records.service?_eq_some.mp (Option.mem_toList.mp hs)).1
    exact hbefore (Memory.mem_ids hservice)
  | insertService name description =>
    rcases hstore.insertService_cases now name description with
      ⟨fault, hrefused⟩ | ⟨added, later, hadded, -, -, hin⟩
    · rw [hrefused] at hreply
      cases hreply
    · rw [hadded] at hreply hafter
      cases hreply
      rw [List.mem_singleton.mp hmem] at hafter
      exact hafter (Memory.mem_ids hin)
  | updateService other name description =>
    obtain ⟨s, hs, rfl⟩ := List.mem_map.mp hmem
    rw [Option.mem_toList.mp hs] at hreply
    exact hbefore (hstore.updateService_tells hreply)
  | getVersion other tag =>
    rw [hstore.getVersion] at hreply
    cases hreply
    obtain ⟨v, hv, rfl⟩ := List.mem_map.mp hmem
    have hversion := (hstore.records.version?_eq_some.mp (Option.mem_toList.mp hv)).1
    exact hbefore (hstore.owner_mem hversion)
  | insertVersion other tag info =>
    have howner := insertVersion_tells hreply
    rw [← List.mem_singleton.mp hmem] at howner
    subst howner
    rw [hstore.insertVersion_missing h.gone] at hreply
    cases hreply
  | updateVersion other tag info =>
    obtain ⟨v, hv, rfl⟩ := List.mem_map.mp hmem
    rw [Option.mem_toList.mp hv] at hreply
    exact hbefore (hstore.updateVersion_tells hreply)
  | scanVersions other range =>
    rw [hstore.scanVersions] at hreply
    cases hreply
    obtain ⟨v, hv, rfl⟩ := List.mem_map.mp hmem
    have hrow := List.mem_of_mem_filter (List.mem_of_mem_drop (List.mem_of_mem_take hv))
    exact hbefore (hstore.owner_mem hrow)
  | _ => cases hmem

theorem avoids (h : store.Retired id) (hstore : store.Consistent) (now : Int) (call : Call) :
    Exchange.Avoids ⟨now, call, (RecordStore.answer now call store).1⟩ id := by
  refine ⟨?_, ?_, ?_⟩
  · unfold Exchange.told
    dsimp only
    split
    · rename_i answered hreply
      exact h.untold hstore hreply
    · exact List.not_mem_nil
  · intro now' reply heq
    cases heq
    rw [hstore.countVersions, Memory.length_versionsOf]
    exact congrArg Except.ok (List.count_eq_zero.mpr fun howner => h.gone (hstore.records.owned _ howner))
  · intro now' tag info reply heq
    cases heq
    rw [hstore.insertVersion_missing h.gone]

end Retired

/-! ## Histories -/

/-- The answers to the calls of a history. -/
def heard : RecordStore → List Incident → List Exchange
  | _, [] => []
  | store, .call now call :: rest =>
    ⟨now, call, (answer now call store).1⟩ :: heard (store.undergo (.call now call)) rest
  | store, .failNext count :: rest => heard (store.undergo (.failNext count)) rest

namespace Consistent

theorem lastId_failNext (count : Nat) (store : RecordStore) :
    (store.failNext count).records.lastId = store.records.lastId := by
  cases store <;> rfl

theorem heard_numbered (h : store.Consistent) (history : List Incident) :
    (store.heard history).filterMap Exchange.given? =
      List.range' (store.records.lastId + 1) ((store.heard history).countP Exchange.createsService) := by
  induction history generalizing store with
  | nil => rfl
  | cons incident rest ih =>
    cases incident with
    | failNext count =>
      have hrest := ih (h.failNext count)
      rw [lastId_failNext] at hrest
      exact hrest
    | call now call =>
      have hrest := ih (h.answer now call)
      rcases h.gives now call with ⟨hcreates, hgiven, hlast⟩ | ⟨hcreates, hgiven, hlast⟩
      · rw [hlast] at hrest
        rw [heard, List.filterMap_cons_some hgiven, List.countP_cons_of_pos hcreates, List.range'_succ]
        exact congrArg _ hrest
      · rw [hlast] at hrest
        rw [heard, List.filterMap_cons_none hgiven,
          List.countP_cons_of_neg (Bool.eq_false_iff.mp hcreates)]
        exact hrest

/-- A retired id is avoided ever after. -/
theorem heard_avoids (h : store.Consistent) (hid : store.Retired id) (history : List Incident) :
    ∀ exchange ∈ store.heard history, exchange.Avoids id := by
  induction history generalizing store with
  | nil => nofun
  | cons incident rest ih =>
    cases incident with
    | failNext count => exact ih (h.failNext count) (hid.failNext count)
    | call now call =>
      intro exchange hmem
      rcases List.mem_cons.mp hmem with rfl | hmem
      · exact hid.avoids h now call
      · exact ih (h.answer now call) (hid.answer h now call) exchange hmem

theorem heard_retired (h : store.Consistent) (history : List Incident) :
    (store.heard history).Pairwise fun earlier later =>
      ∀ now id, earlier = ⟨now, .deleteService id, .ok true⟩ → later.Avoids id := by
  induction history generalizing store with
  | nil => exact .nil
  | cons incident rest ih =>
    cases incident with
    | failNext count => exact ih (h.failNext count)
    | call now call =>
      refine List.pairwise_cons.mpr ⟨?_, ih (h.answer now call)⟩
      intro later hlater now' id heq
      obtain ⟨rfl, rfl, hreply⟩ := Exchange.mk.inj heq
      have hid := Retired.of_deleted h (eq_of_heq hreply)
      exact heard_avoids (h.answer now _) hid rest later hlater

theorem neverReuses (h : store.Consistent) (hlast : store.records.lastId = 0)
    (history : List Incident) : NeverReuses (store.heard history) := by
  have hnumbered := h.heard_numbered history
  rw [hlast] at hnumbered
  exact ⟨hnumbered, h.heard_retired history⟩

end Consistent

theorem New.neverReuses (h : store.New) (history : List Incident) :
    NeverReuses (store.heard history) := by
  refine h.consistent.neverReuses ?_ history
  cases h <;> rfl

/-- Calls made on tables are a history of the store that has these tables. -/
theorem heard_database (db : Database) (calls : List (Int × Call)) :
    (database db).heard (calls.map fun made => .call made.1 made.2) =
      dialogue Database.answer db calls := by
  induction calls generalizing db with
  | nil => rfl
  | cons made rest ih =>
    rw [List.map_cons, heard, dialogue]
    exact congrArg _ (ih (Database.answer made.1 made.2 db).2)

/-- Whatever is called on a new store, in any order and with any arguments, the services that are created
are numbered from one on, and the id of a service that is deleted is not told again by the tables, counts no
versions and takes none.  This also holds of a database in a file, however often it is closed, its layout
version edited and the database opened again. -/
theorem service_ids_given_once :
    (∀ store : RecordStore, store.New → ∀ history : List Incident, NeverReuses (store.heard history)) ∧
    ∀ (settings : Settings) (database : DatabaseSettings) (machine opened : Machine) (file : String),
      let db := (Database.prepare {}).2
      (∀ name ∈ machine.disk.current, Path.IsName name) →
      (Database.openAt Machine.host database).run machine = (.ok ⟨some file, db⟩, opened) →
      ∀ episodes : List Episode,
        let site : Site :=
          ⟨opened, some { settings := settings, store := .database db, file := some file }⟩
        NeverReuses (site.heard settings database file episodes) := by
  refine ⟨fun store hnew history => hnew.neverReuses history, ?_⟩
  intro settings database machine opened file db hnames hopened episodes site
  obtain ⟨steps, rfl, -, hkeeps⟩ := Site.Keeps.of_opened hnames hopened settings
  obtain ⟨hheard, -⟩ := hkeeps.through settings episodes
  rw [hheard, ← heard_database]
  exact New.database.neverReuses _

/-- A refused name uses up no id, a deleted service leaves its id behind, and neither is any different after
the file has been closed. -/
theorem service_ids_given_once_past_deletes :
    let history : List Incident :=
      [.call 1 (.insertService "a" ""), .call 2 (.insertService "a" ""), .call 3 (.insertService "b" ""),
        .call 4 (.deleteService 2), .failNext 1, .call 5 (.insertService "b" ""),
        .call 6 (.insertVersion 2 "v1" "")]
    let settings : DatabaseSettings := { path := "data/catalog.db" }
    let file := "/data/catalog.db"
    let db := (Database.prepare {}).2
    let opened := ((Database.openAt Machine.host settings).run {}).2
    let site : Site := ⟨opened, some { settings := {}, store := .database db, file := some file }⟩
    let episodes : List Episode :=
      [.call (.insertService "a" ""), .call (.deleteService 1), .reopen, .call (.insertService "a" ""),
        .call (.countVersions 1)]
    ((memory {}).New ∧ NeverReuses ((memory {}).heard history) ∧
      ((memory {}).heard history).filterMap Exchange.given? = [1, 2, 3]) ∧
    ((∀ name ∈ ({} : Machine).disk.current, Path.IsName name) ∧
      (Database.openAt Machine.host settings).run {} = (.ok ⟨some file, db⟩, opened)) ∧
    NeverReuses (site.heard {} settings file episodes) := by
  intro history settings file db opened site episodes
  have hnames : ∀ name ∈ ({} : Machine).disk.current, Path.IsName name := nofun
  have hfound : ((Database.openAt Machine.host settings).run {}).1 = .ok ⟨some file, db⟩ :=
    OpenDatabase.of_found (by decide +kernel)
  have hopened : (Database.openAt Machine.host settings).run {} = (.ok ⟨some file, db⟩, opened) :=
    Prod.ext hfound rfl
  obtain ⟨hstores, hfiles⟩ := service_ids_given_once
  have hmemory := hstores (memory {}) .memory history
  refine ⟨⟨.memory, hmemory, hmemory.numbered⟩, ⟨hnames, hopened⟩, ?_⟩
  exact hfiles {} settings {} opened file hnames hopened episodes

end RecordStore

end ServiceRegistry
