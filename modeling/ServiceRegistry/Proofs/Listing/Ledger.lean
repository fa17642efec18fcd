import Mathlib.Logic.Function.Basic
import ServiceRegistry.Proofs.Catalog.Deliberate
import ServiceRegistry.Proofs.Catalog.Interchange
import ServiceRegistry.Proofs.Listing.Pages
import ServiceRegistry.Proofs.Storage.Integrity

/-!
# Versions as callers have entered them

A caller who keeps a ledger of what was answered knows the versions of every service: a version that
is created is entered at the end, whether or not its tag was there before, one that is changed keeps
its place, and one that is deleted goes.  Nothing but answers goes into the ledger, and what a store
holds of versions is what the ledger says.

* `Ledger.enter` says how an answer is entered.
* `RecordStore.Consistent.ledger_run`: one deed changes the store as its entry changes the ledger.
* `RecordStore.versions_follow_history`: so after any deeds the versions of a service are listed, page
  by page, from its lines in the ledger, the last first.
-/

namespace ServiceRegistry

/-- The services that there are, by id: for each one the tags of its versions, in the order in which
they were created, with their latest infos. -/
abbrev Ledger := Nat → Option (List (String × String))

namespace Ledger

/-- Changes the lines of a service, if there is one. -/
def change (ledger : Ledger) (id : Nat)
    (change : List (String × String) → List (String × String)) : Ledger :=
  Function.update ledger id ((ledger id).map change)

/-- Enters the answer to a deed; `address` is the id that a store looks up for an id. -/
def enter (address : Nat → Nat) (ledger : Ledger) : Entry → Ledger
  | ⟨.ask (.createService ..), .ok s, _⟩ => Function.update ledger s.id (some [])
  | ⟨.ask (.deleteService id), .ok _, _⟩ => Function.update ledger (address id) none
  | ⟨.ask (.createVersion id tag info), .ok _, _⟩ =>
    ledger.change (address id) fun lines => lines ++ [(tag, info)]
  | ⟨.ask (.updateVersion id tag info), .ok _, _⟩ =>
    ledger.change (address id) fun lines =>
      lines.map fun line => if line.1 == tag then (tag, info) else line
  | ⟨.ask (.deleteVersion id tag), .ok _, _⟩ =>
    ledger.change (address id) fun lines => lines.filter fun line => line.1 != tag
  | _ => ledger

/-- The ledger of a caller who has been there from the beginning. -/
def of (address : Nat → Nat) (entries : List Entry) : Ledger :=
  entries.foldl (enter address) fun _ => none

end Ledger

def Version.line (v : Version) : String × String := (v.tag, v.info)

/-! ## The ledger of records -/

namespace Memory

def lines (m : Memory) (id : Nat) : List (String × String) := (m.versionsOf id).map Version.line

def ledger (m : Memory) : Ledger := fun id => if id ∈ m.ids then some (m.lines id) else none

variable {m after : Memory} {id : Nat}

theorem ledger_eq_some_iff {lines : List (String × String)} :
    m.ledger id = some lines ↔ id ∈ m.ids ∧ m.lines id = lines := by
  unfold ledger
  split <;> simp [*]

theorem lines_congr (h : after.versions = m.versions) (id : Nat) : after.lines id = m.lines id := by
  rw [lines, versionsOf, h]
  rfl

/-- Services without versions have no lines. -/
theorem lines_eq_nil (h : id ∉ m.owners) : m.lines id = [] := by
  have hnone : m.versionsOf id = [] := by
    refine List.length_eq_zero_iff.mp ?_
    rw [length_versionsOf]
    exact List.count_eq_zero.mpr h
  rw [lines, hnone]
  rfl

/-- Versions of other services go; those of this one stay. -/
theorem versionsOf_filter {keeps : Version → Bool} (hversions : after.versions = m.versions.filter keeps)
    (hkeeps : ∀ v, v.serviceId = id → keeps v = true) : after.versionsOf id = m.versionsOf id := by
  rw [versionsOf, versionsOf, hversions, List.filter_filter]
  refine List.filter_congr fun v _ => ?_
  by_cases hv : v.serviceId = id
  · simp [hv, hkeeps v hv]
  · simp [hv]

theorem ledger_congr (hids : after.ids = m.ids) (hversions : after.versions = m.versions) :
    after.ledger = m.ledger := by
  funext id
  unfold ledger
  rw [hids, lines_congr hversions]

theorem ledger_insert (hids : after.ids = m.ids ++ [id]) (hversions : after.versions = m.versions)
    (hnew : id ∉ m.owners) : after.ledger = Function.update m.ledger id (some []) := by
  funext other
  unfold ledger
  rw [hids, lines_congr hversions]
  by_cases hother : other = id
  · subst hother
    rw [Function.update_self, lines_eq_nil hnew, if_pos (List.mem_append_right _ List.mem_cons_self)]
  · rw [Function.update_of_ne hother]
    simp [hother]

theorem ledger_delete (hids : after.ids = m.ids.filter fun other => other != id)
    (hversions : after.versions = m.versions.filter fun v => v.serviceId != id) :
    after.ledger = Function.update m.ledger id none := by
  funext other
  by_cases hother : other = id
  · subst hother
    rw [Function.update_self]
    unfold ledger
    rw [hids]
    simp
  · have hsame : after.versionsOf other = m.versionsOf other :=
      versionsOf_filter hversions fun v hv => by simp [hv, hother]
    rw [Function.update_of_ne hother]
    unfold ledger lines
    rw [hids, hsame]
    simp [hother]

/-- Where the versions of one service change. -/
theorem ledger_change {change : List (String × String) → List (String × String)}
    (hids : after.ids = m.ids) (hchanged : after.lines id = change (m.lines id))
    (hothers : ∀ other, other ≠ id → after.versionsOf other = m.versionsOf other) :
    after.ledger = m.ledger.change id change := by
  funext other
  by_cases hother : other = id
  · subst hother
    rw [Ledger.change, Function.update_self]
    unfold ledger
    rw [hids, hchanged]
    split <;> rfl
  · rw [Ledger.change, Function.update_of_ne hother]
    unfold ledger lines
    rw [hids, hothers other hother]

theorem ledger_append (v : Version) (hids : after.ids = m.ids)
    (hversions : after.versions = m.versions ++ [v]) :
    after.ledger = m.ledger.change v.serviceId fun lines => lines ++ [v.line] := by
  refine ledger_change hids ?_ fun other hother => ?_
  · rw [lines, versionsOf, hversions, List.filter_append, List.map_append]
    simp [lines, versionsOf]
  · rw [versionsOf, hversions, List.filter_append]
    simp [versionsOf, hother.symm]

theorem ledger_update {tag info : String} {now : Int} (hids : after.ids = m.ids)
    (hversions : after.versions = m.versions.map fun v =>
      if isVersion id tag v then { v with info := info, updatedAt := now } else v) :
    after.ledger = m.ledger.change id fun lines =>
      lines.map fun line => if line.1 == tag then (tag, info) else line := by
  have hof : ∀ other, after.versionsOf other = (m.versionsOf other).map fun v =>
      if isVersion id tag v then { v with info := info, updatedAt := now } else v := by
    intro other
    rw [versionsOf, versionsOf, hversions, List.filter_map]
    refine congrArg _ (List.filter_congr fun v _ => ?_)
    rw [Function.comp]
    split <;> rfl
  refine ledger_change hids ?_ fun other hother => ?_
  · rw [lines, lines, hof, List.map_map, List.map_map]
    refine List.map_congr_left fun v hv => ?_
    have howner : v.serviceId = id := beq_iff_eq.mp (List.mem_filter.mp hv).2
    by_cases htag : v.tag = tag
    · simp [isVersion, Version.line, howner, htag]
    · simp [isVersion, Version.line, htag]
  · rw [hof]
    refine (List.map_congr_left fun v hv => if_neg ?_).trans (List.map_id _)
    have howner : v.serviceId = other := beq_iff_eq.mp (List.mem_filter.mp hv).2
    simp [isVersion, howner, hother]

theorem ledger_remove {tag : String} (hids : after.ids = m.ids)
    (hversions : after.versions = m.versions.filter fun v => !isVersion id tag v) :
    after.ledger = m.ledger.change id fun lines => lines.filter fun line => line.1 != tag := by
  refine ledger_change hids ?_ fun other hother => ?_
  · rw [lines, lines, List.filter_map, versionsOf, versionsOf, hversions, List.filter_filter,
      List.filter_filter]
    refine congrArg _ (List.filter_congr fun v _ => ?_)
    simp only [isVersion, Version.line, Function.comp]
    cases v.serviceId == id <;> cases htag : v.tag == tag <;> simp [bne, htag]
  · exact versionsOf_filter hversions fun v hv => by simp [isVersion, hv, hother]

end Memory

/-! ## What the writes of a store enter -/

namespace RecordStore

def ledger (store : RecordStore) : Ledger := store.records.ledger

variable {store after : RecordStore} {now : Int} {id : Nat} {name description tag info : String}

/-- An answer of a store is one of its records in memory or of its tables. -/
theorem answer_ok {call : Call} {answered : call.Answer}
    (h : answer now call store = (.ok answered, after)) :
    (∃ m m', store = memory m ∧ after = memory m' ∧ Memory.answer now call m = (.ok answered, m')) ∨
    ∃ db db', store = database db ∧ after = database db' ∧
      db.respond now call = (.ok answered, db') := by
  cases store with
  | memory m =>
    cases hreply : Memory.answer now call m with
    | mk reply m' =>
      rw [answer_memory hreply] at h
      cases h
      exact Or.inl ⟨m, m', rfl, rfl, hreply⟩
  | database db =>
    cases hreply : db.respond now call with
    | mk reply db' =>
      rw [answer_database hreply] at h
      cases reply with
      | error fault => cases h
      | ok _ =>
        cases h
        exact Or.inr ⟨db, db', rfl, rfl, hreply⟩

namespace Consistent

/-- An id past those given is not known and owns nothing. -/
theorem not_owner (h : store.Consistent) (hid : store.records.lastId < id) :
    id ∉ store.records.owners := fun howner => by
  have hgiven := (h.records.given id (h.records.owned id howner)).2
  omega

theorem ledger_insertService (h : store.Consistent) {s : Service}
    (hreply : RecordStore.answer now (.insertService name description) store = (.ok s, after)) :
    after.ledger = Function.update store.ledger s.id (some []) := by
  have hnew : store.records.lastId < s.id → s.id ∉ store.records.owners := h.not_owner
  obtain ⟨m, m', rfl, rfl, hwrite⟩ | ⟨db, db', rfl, rfl, hwrite⟩ := answer_ok hreply
  · simp only [Memory.answer, Memory.insertService] at hwrite
    split at hwrite
    · cases hwrite
    · cases hwrite
      exact Memory.ledger_insert List.map_append rfl (hnew (Nat.lt_succ_self _))
  · simp only [Database.respond] at hwrite
    obtain ⟨fault, hrefused⟩ | ⟨given, hnext, -, hadded⟩ :=
      db.insertService_cases now name description
    · rw [hrefused] at hwrite
      cases hwrite
    · have hlt := (nextRowId_spec hnext).1
      have hlast := (Database.Consistent.undamaged h).lastService
      have hless : db.lastServiceId.toNat < given.toNat := by omega
      rw [hadded, readNatural_of_nonneg (by omega)] at hwrite
      cases hwrite
      refine Memory.ledger_insert ?_ rfl (hnew hless)
      simp [Memory.ids, RecordStore.records, Database.records, ServiceRow.service]

/-- Changing a service keeps its id, and the ledger has nothing else of it. -/
theorem ledger_updateService (h : store.Consistent) (now : Int) (id : Nat)
    (name description : String) :
    (RecordStore.answer now (.updateService id name description) store).2.ledger = store.ledger := by
  have hmemory : ∀ (m : Memory) (id : Nat),
      (m.updateService now id name description).2.ledger = m.ledger := by
    intro m id
    rw [Memory.updateService]
    split
    · rfl
    · refine Memory.ledger_congr (Memory.ids_changeService ?_ m id) rfl
      exact fun _ => rfl
  cases store with
  | memory m => exact hmemory m id
  | database db =>
    have hstore : (RecordStore.answer now (.updateService id name description) (database db)).2 =
        database (db.updateService now id name description).2 := rfl
    rw [hstore]
    rcases Database.Consistent.records_updateService h now id name description with hsame | hrecords
    · rw [hsame]
    · exact (congrArg Memory.ledger hrecords).trans (hmemory _ _)

theorem ledger_deleteService (h : store.Consistent)
    (hreply : RecordStore.answer now (.deleteService id) store = (.ok true, after)) :
    after.ledger = Function.update store.ledger (store.address id) none := by
  have hmemory : ∀ (m : Memory) (id : Nat) {s : Service}, m.service? id = some s →
      (m.deleteService id).2.ledger = Function.update m.ledger id none := by
    intro m id s hservice
    rw [Memory.deleteService_some hservice]
    refine Memory.ledger_delete ?_ rfl
    simp only [Memory.ids, List.filter_map]
    rfl
  obtain ⟨m, m', rfl, rfl, hwrite⟩ | ⟨db, db', rfl, rfl, hwrite⟩ := answer_ok hreply
  · cases hservice : m.service? id with
    | none =>
      have hmissing : Memory.answer now (.deleteService id) m = _ := Memory.deleteService_none hservice
      rw [hmissing] at hwrite
      cases hwrite
    | some s =>
      have hafter : (m.deleteService id).2 = m' := congrArg Prod.snd hwrite
      exact hafter ▸ hmemory m id hservice
  · have hrow := Database.Consistent.serviceRow? h id
    cases hservice : db.serviceRow? id with
    | none =>
      have hmissing : db.respond now (.deleteService id) = _ := Database.deleteService_none hservice
      rw [hmissing] at hwrite
      cases hwrite
    | some row =>
      rw [hservice] at hrow
      have hafter : (db.deleteService id).2 = db' := congrArg Prod.snd hwrite
      rw [← hafter]
      rcases Database.Consistent.records_deleteService h id with hsame | hrecords
      · -- The row that was found is gone.
        rw [Database.deleteService_some hservice] at hsame
        have hservices : (db.services.filter fun row => row.id != toSigned id) = db.services :=
          congrArg Database.services hsame
        have hkept := List.filter_eq_self.mp hservices row (List.mem_of_find?_eq_some hservice)
        rw [Database.serviceRow?] at hservice
        simp [bne, List.find?_some hservice] at hkept
      · exact (congrArg Memory.ledger hrecords).trans (hmemory _ _ hrow.symm)

theorem ledger_insertVersion (h : store.Consistent) {v : Version}
    (hreply : RecordStore.answer now (.insertVersion id tag info) store = (.ok v, after)) :
    after.ledger = store.ledger.change (store.address id) fun lines => lines ++ [(tag, info)] := by
  obtain ⟨m, m', rfl, rfl, hwrite⟩ | ⟨db, db', rfl, rfl, hwrite⟩ := answer_ok hreply
  · simp only [Memory.answer, Memory.insertVersion] at hwrite
    split at hwrite
    · cases hwrite
    · cases hwrite
    · cases hwrite
      refine Memory.ledger_append ⟨id, tag, info, now, now⟩ ?_ rfl
      refine Memory.ids_changeService ?_ m id
      exact fun _ => rfl
  · simp only [Database.respond] at hwrite
    obtain ⟨fault, hrefused⟩ | ⟨row, given, -, -, -, hadded⟩ :=
      db.insertVersion_cases now id tag info
    · rw [hrefused] at hwrite
      cases hwrite
    · rw [hadded] at hwrite
      cases hwrite
      have hids := congrArg Memory.ids (Database.Consistent.records_raised h now id)
      refine Memory.ledger_append ⟨signedId id, tag, info, now, now⟩ ?_ List.map_append
      refine hids.trans (Memory.ids_changeService ?_ db.records _)
      exact fun _ => rfl

theorem ledger_updateVersion (h : store.Consistent) {reply : Reply .updateVersion}
    (hreply : RecordStore.answer now (.updateVersion id tag info) store = (reply, after)) :
    after.ledger = store.ledger.change (store.address id) fun lines =>
      lines.map fun line => if line.1 == tag then (tag, info) else line := by
  obtain rfl : (RecordStore.answer now (.updateVersion id tag info) store).2 = after :=
    congrArg Prod.snd hreply
  cases store with
  | memory m => exact Memory.ledger_update rfl rfl
  | database db =>
    have hrecords := Database.Consistent.records_updateVersion h now id tag info
    have hids := congrArg Memory.ids hrecords
    have hversions := congrArg Memory.versions hrecords
    exact Memory.ledger_update hids hversions

theorem ledger_deleteVersion (h : store.Consistent)
    (hreply : RecordStore.answer now (.deleteVersion id tag) store = (.ok true, after)) :
    after.ledger = store.ledger.change (store.address id) fun lines =>
      lines.filter fun line => line.1 != tag := by
  obtain ⟨⟨v, hversion⟩, hrecords⟩ := h.deleteVersion_true (congrArg Prod.fst hreply)
  rw [hreply, Memory.deleteVersion_some hversion] at hrecords
  refine Memory.ledger_remove ?_ (congrArg Memory.versions hrecords)
  refine (congrArg Memory.ids hrecords).trans (Memory.ids_changeService ?_ store.records _)
  exact fun _ => rfl

end Consistent

end RecordStore

/-! ## Deeds that enter nothing -/

/-- Makes no calls but reads and refreshes. -/
def calm : Discipline Unit where
  allows _ act := ∀ call, act = .call call → call.reads = true ∨ call = .refreshView
  after _ _ _ := ()

theorem calm_tolerant : calm.Tolerant fun _ => True where
  call call hreads _ _ := ⟨fun other h => by cases h; exact Or.inl hreads, fun _ => trivial⟩
  mark _ _ := ⟨nofun, fun _ => trivial⟩
  record _ _ _ := ⟨nofun, fun _ => trivial⟩

open Operation in
theorem Request.follows_calm {request : Request} (h : request.writes = false) :
    request.procedure.Follows calm (fun _ _ => True) () := by
  have hquiet : Operation.Quiet calm (fun _ => True) request.operation := by
    cases request with
    | serviceExists id => exact quiet_serviceExists calm_tolerant id
    | versionExists id tag => exact quiet_versionExists calm_tolerant id tag
    | getService id => exact quiet_getService calm_tolerant id
    | getVersion id tag => exact quiet_getVersion calm_tolerant id tag
    | fetchServices request filter sort =>
      exact quiet_fetchServices calm_tolerant request filter sort
    | fetchVersions id page size => exact quiet_fetchVersions calm_tolerant id page size
    | _ => cases h
  exact Procedure.Follows.mono (hquiet () trivial) fun _ _ _ => trivial

theorem Refresh.follows_calm_ifOwed : Refresh.ifOwed.Follows calm (fun _ _ => True) () := by
  refine ⟨nofun, fun owed => ?_⟩
  cases owed with
  | false => trivial
  | true =>
    refine ⟨fun call hcall => by cases hcall; exact Or.inr rfl, fun reply => ?_⟩
    cases reply with
    | ok _ => exact ⟨nofun, fun _ => trivial⟩
    | error fault => exact ⟨nofun, fun _ => ⟨nofun, fun _ => trivial⟩⟩

namespace RecordStore

variable {world : World RecordStore} {α : Type}

theorem ledger_refreshView (now : Int) (store : RecordStore) :
    (answer now .refreshView store).2.ledger = store.ledger := by
  cases store with
  | memory m =>
    simp only [answer, Memory.answer, Memory.refreshView]
    split <;> rfl
  | database db => rfl

/-- A consistent store with a ledger. -/
structure Holds (ledger : Ledger) (store : RecordStore) : Prop where
  consistent : store.Consistent
  ledger_eq : store.ledger = ledger

theorem Holds.calm_step {ledger : Ledger} (h : world.store.Holds ledger) (now : Int) {act : Act}
    (hallows : calm.allows () act) :
    (world.perform (RecordStore.answer now) act).2.store.Holds ledger := by
  cases act with
  | call call =>
    refine ⟨h.consistent.answer now call, Eq.trans ?_ h.ledger_eq⟩
    rcases hallows call rfl with hreads | rfl
    · obtain ⟨answered, hreply⟩ := h.consistent.reads now hreads
      exact congrArg (fun reply => RecordStore.ledger reply.2) hreply
    · exact ledger_refreshView now world.store
  | markOwed => exact h
  | consumeOwed => exact h
  | record event => exact h

/-- A calm procedure leaves the ledger as it is. -/
theorem Consistent.ledger_calm (h : world.store.Consistent) (now : Int) {p : Procedure α}
    (hcalm : p.Follows calm (fun _ _ => True) ()) :
    (p.run (RecordStore.answer now) world).2.store.ledger = world.store.ledger := by
  have hstep : ∀ (note : Unit) (later : World RecordStore) act, calm.allows note act →
      later.store.Holds world.store.ledger →
        (later.perform (RecordStore.answer now) act).2.store.Holds world.store.ledger :=
    fun _ _ _ hallows hholds => hholds.calm_step now hallows
  obtain ⟨_, -, hend⟩ := hcalm.run hstep ⟨h, rfl⟩
  exact hend.ledger_eq

end RecordStore

/-! ## Deeds that write -/

namespace Ledger

variable {address : Nat → Nat} {ledger : Ledger} {request : Request}

/-- Refusals are not entered. -/
theorem enter_error (refusal : Refusal) (owed : Bool) :
    ledger.enter address ⟨.ask request, .error refusal, owed⟩ = ledger := by
  cases request <;> rfl

theorem enter_of_not_writes (h : request.writes = false) (result : Except Refusal request.Answer)
    (owed : Bool) : ledger.enter address ⟨.ask request, result, owed⟩ = ledger := by
  cases request <;> first | rfl | cases h

end Ledger

namespace RecordStore

variable {world : World RecordStore}

/-- The write of a request changes the store as its conclusion is entered. -/
theorem Consistent.ledger_write (h : world.store.Consistent) {now : Int} {request : Request}
    {call : Call} (hintends : request.Intends call) {reply : Reply call.method} {after : RecordStore}
    (hreply : RecordStore.answer now call world.store = (reply, after)) (owed : Bool) :
    after.ledger = world.store.ledger.enter world.store.address
      ⟨.ask request, request.conclusion call reply, owed⟩ := by
  cases hend : request.conclusion call reply with
  | error refusal =>
    rw [Ledger.enter_error]
    -- What is refused has changed nothing.
    have hlands : request.Lands call now world := Request.lands hintends h
    rcases hlands with ⟨_, -, hstore, -⟩ | ⟨value, hok, -⟩
    · rw [hreply] at hstore
      exact congrArg RecordStore.ledger hstore
    · rw [hreply, hend] at hok
      cases hok
  | ok value =>
    cases request with
    | createService name description =>
      obtain ⟨rfl, -⟩ := hintends
      cases reply with
      | error fault => cases hend
      | ok s =>
        cases hend
        exact h.ledger_insertService hreply
    | updateService id name description =>
      obtain ⟨rfl, -⟩ := hintends
      have hafter := h.ledger_updateService now id name description
      rw [hreply] at hafter
      exact hafter
    | deleteService id =>
      obtain rfl := hintends
      cases reply with
      | error fault => cases hend
      | ok deleted =>
        cases deleted with
        | false => cases hend
        | true => exact h.ledger_deleteService hreply
    | createVersion id tag info =>
      obtain ⟨rfl, -⟩ := hintends
      cases reply with
      | error fault => cases hend
      | ok v => exact h.ledger_insertVersion hreply
    | updateVersion id tag info =>
      obtain rfl := hintends
      exact h.ledger_updateVersion hreply
    | deleteVersion id tag =>
      obtain rfl := hintends
      cases reply with
      | error fault => cases hend
      | ok deleted =>
        cases deleted with
        | false => cases hend
        | true => exact h.ledger_deleteVersion hreply
    | _ => cases hintends

/-- While looking the store is as it was; after the write it is as the write has left it. -/
def Found (request : Request) (now : Int) (store : RecordStore) (stage : Stage)
    (later : World RecordStore) : Prop :=
  match stage with
  | .looking => later.store = store
  | .faulted => False
  | .wrote call reply => request.Intends call ∧ answer now call store = (reply, later.store)

theorem Consistent.found_step {store : RecordStore} (h : store.Consistent) {now : Int}
    {request : Request} {stage : Stage} {later : World RecordStore} {act : Act}
    (hallows : (deliberate request).allows stage act) (hfound : Found request now store stage later) :
    Found request now store
      ((deliberate request).after stage act (later.perform (RecordStore.answer now) act).1)
      (later.perform (RecordStore.answer now) act).2 := by
  cases act with
  | call call =>
    obtain ⟨rfl, hcall⟩ := hallows
    obtain ⟨current, owed, events⟩ := later
    obtain rfl : current = store := hfound
    cases hreads : call.reads with
    | true =>
      -- A store that is consistent answers its reads.
      obtain ⟨answered, hreply⟩ := h.reads now hreads
      simp only [World.perform, hreply, deliberate, hreads, if_true, Found]
    | false =>
      have hintends : request.Intends call := hcall.resolve_left (by simp [hreads])
      simp only [World.perform, deliberate, hreads, Found]
      exact ⟨hintends, rfl⟩
  | markOwed => exact hfound
  | consumeOwed => cases hallows
  | record event => exact hfound

/-- A deed changes the store as its result is entered. -/
theorem Consistent.ledger_run (h : world.store.Consistent) (now : Int) (deed : Deed) :
    (deed.procedure.run (RecordStore.answer now) world).2.store.ledger =
      world.store.ledger.enter world.store.address
        ⟨deed, (deed.procedure.run (RecordStore.answer now) world).1,
          (deed.procedure.run (RecordStore.answer now) world).2.owed⟩ := by
  cases deed with
  | refresh => exact h.ledger_calm now Refresh.follows_calm_ifOwed
  | ask request =>
    cases hwrites : request.writes with
    | false =>
      rw [Ledger.enter_of_not_writes hwrites]
      exact h.ledger_calm now (Request.follows_calm hwrites)
    | true =>
      obtain ⟨last, hends, hlast⟩ :=
        (Request.follows_deliberate hwrites).run (fun _ _ _ => h.found_step) rfl
      cases last with
      | looking =>
        obtain ⟨refusal, hresult, -⟩ := hends
        have hstore : (request.procedure.run (RecordStore.answer now) world).2.store = world.store :=
          hlast
        exact (congrArg RecordStore.ledger hstore).trans
          (hresult ▸ (Ledger.enter_error refusal _).symm)
      | faulted => cases hlast
      | wrote call reply =>
        obtain ⟨hintends, hreply⟩ := hlast
        have hresult : (request.procedure.run (RecordStore.answer now) world).1 =
          request.conclusion call reply := hends
        exact (h.ledger_write hintends hreply _).trans (by rw [← hresult]; rfl)

theorem Consistent.run (h : world.store.Consistent) (now : Int) (deed : Deed) :
    (deed.procedure.run (RecordStore.answer now) world).2.store.Consistent :=
  Procedure.run_preserves Consistent (fun call _ hstore => hstore.answer now call) h

theorem address_run (world : World RecordStore) (now : Int) (deed : Deed) :
    (deed.procedure.run (answer now) world).2.store.address = world.store.address :=
  Procedure.run_preserves (fun store => store.address = world.store.address)
    (fun call store h => (address_answer now call store).trans h) rfl

/-- Deeds change the store as their results are entered. -/
theorem Consistent.ledger_done (h : world.store.Consistent) (history : List (Int × Deed)) :
    (Deed.done RecordStore.answer world history).store.ledger =
      (transcript RecordStore.answer world history).foldl (Ledger.enter world.store.address)
        world.store.ledger := by
  induction history generalizing world with
  | nil => rfl
  | cons step rest ih =>
    obtain ⟨now, deed⟩ := step
    have hrest := ih (h.run now deed)
    rw [address_run, h.ledger_run now deed] at hrest
    exact hrest

theorem New.ledger {store : RecordStore} (h : store.New) : store.ledger = fun _ => none := by
  cases h <;> rfl

/-! ## Listing the versions of a service -/

open Operation

variable {store : RecordStore} {id : Nat} {lines : List (String × String)}

theorem Consistent.service_of_ledger (h : store.Consistent) (hlines : store.ledger id = some lines) :
    ∃ s, store.records.service? id = some s ∧ s.id = id ∧ s.versionCount = lines.length := by
  obtain ⟨hid, rfl⟩ := Memory.ledger_eq_some_iff.mp hlines
  obtain ⟨s, hservice⟩ : ∃ s, store.records.service? id = some s :=
    Option.ne_none_iff_exists'.mp fun hnone => Memory.service?_eq_none_iff.mp hnone hid
  obtain ⟨hs, rfl⟩ := h.records.service?_eq_some.mp hservice
  refine ⟨s, hservice, rfl, ?_⟩
  rw [h.records.counted s hs, Memory.lines, List.length_map, Memory.length_versionsOf]

/-- A service that has been found is looked up at its own id. -/
theorem Consistent.address_of_ledger (h : store.Consistent) (hlines : store.ledger id = some lines) :
    store.address id = id := by
  obtain ⟨s, hservice, rfl, -⟩ := h.service_of_ledger hlines
  exact h.address_id (h.records.service?_eq_some.mp hservice).1

theorem exec_lookups_missing (h : world.store.Consistent) (now : Int) (page size : Nat)
    (hnone : world.store.ledger (world.store.address id) = none) :
    exec (answer now) (getService id) world = (.error (.serviceMissing id), world) ∧
      exec (answer now) (fetchVersions id page size) world = (.error (.serviceMissing id), world) := by
  have hmissing : world.store.records.service? (world.store.address id) = none := by
    refine Memory.service?_eq_none_iff.mpr fun hid => ?_
    exact Option.some_ne_none _ ((Memory.ledger_eq_some_iff.mpr ⟨hid, rfl⟩).symm.trans hnone)
  have hfinds := h.finds_service now hmissing
  exact ⟨exec_bind_ok (exec_callOr hfinds),
    exec_bind_error ((exec_bind_ok (exec_bind_ok (exec_callOr hfinds))).trans (exec_check_false rfl))⟩

theorem exec_lookups_found (h : world.store.Consistent) (now : Int) (page : Nat) {size : Nat}
    (hsize : size ≤ maxWord) (hlines : world.store.ledger (world.store.address id) = some lines)
    (hcount : lines.length ≤ maxWord) :
    ∃ s rows, exec (answer now) (getService id) world = (.ok s, world) ∧
      exec (answer now) (fetchVersions id page size) world =
        (.ok ⟨rows, lines.length, size, max page 1⟩, world) ∧
      rows.map Version.line = chunk (max page 1) size lines.reverse ∧
      (∀ v ∈ rows, v.serviceId = s.id) ∧ s.versionCount = lines.length := by
  obtain ⟨s, hservice, hid, hcounted⟩ := h.service_of_ledger hlines
  obtain ⟨-, hrecorded⟩ := Memory.ledger_eq_some_iff.mp hlines
  have hfinds := h.finds_service now hservice
  have hscan (range : ScanRange) := h.scanVersions now id range
  have htotal := h.countVersions now id
  have hversions : ∀ v ∈ world.store.records.versionsOf (world.store.address id),
      v.serviceId = s.id := fun v hv =>
    (beq_iff_eq.mp (List.mem_filter.mp hv).2).trans hid.symm
  rw [Memory.lines] at hrecorded
  generalize world.store.records.versionsOf (world.store.address id) = versions at *
  obtain rfl : versions.map Version.line = lines := hrecorded
  rw [List.length_map] at hcount hcounted ⊢
  have hpage : max (max page 1) 1 = max page 1 := by omega
  have hrows := PageWindow.rows_compute (max page 1) hsize hcount true
  rw [hpage] at hrows
  refine ⟨s, chunk (max page 1) size versions.reverse, exec_bind_ok (exec_callOr hfinds), ?_, ?_, ?_,
    hcounted⟩
  · refine (exec_bind_ok (exec_checkService_found hfinds)).trans ?_
    refine (exec_bind_ok (exec_callOr htotal)).trans ?_
    refine (exec_fetchPage _ _ fun range => exec_callOr (hscan range)).trans ?_
    exact congrArg (fun rows => (Except.ok (Page.mk rows _ _ _), world)) hrows
  · rw [map_chunk, List.map_reverse]
  · exact fun v hv => hversions v
      (List.mem_reverse.mp (List.mem_of_mem_drop (List.mem_of_mem_take hv)))

/-- A service that has been created has no lines yet. -/
theorem Consistent.created_without_lines (h : world.store.Consistent) (now : Int)
    {name description : String} {s : Service}
    (hs : ((Request.createService name description).procedure.run (RecordStore.answer now) world).1 =
      .ok s) :
    let after := ((Request.createService name description).procedure.run
      (RecordStore.answer now) world).2
    after.store.Consistent ∧ after.store.ledger (after.store.address s.id) = some [] := by
  intro after
  let deed : Deed := .ask (.createService name description)
  have hresult : (deed.procedure.run (RecordStore.answer now) world).1 = .ok s := hs
  have hcreated : after.store.Consistent := h.run now deed
  have hentered : after.store.ledger = _ := h.ledger_run now deed
  rw [hresult] at hentered
  have hlines : after.store.ledger s.id = some [] := by
    rw [hentered, Ledger.enter, Function.update_self]
  rw [hcreated.address_of_ledger hlines]
  exact ⟨hcreated, hlines⟩

/-- Over a new store, after any deeds: a service that is not in the ledger is missing, and one that is
there has its lines listed, the last first, a chunk of them on each page, and counted both by the page
and by the service.  A service that is created begins without lines. -/
theorem versions_follow_history {store : RecordStore} (hnew : store.New)
    (history : List (Int × Deed)) (now : Int) (page : Nat) {size : Nat} (hsize : size ≤ maxWord) :
    let world := Deed.done answer { store := store } history
    let ledger := Ledger.of store.address (transcript answer { store := store } history)
    let get (id : Nat) := ((Request.getService id).procedure.run (answer now) world).1
    let fetch (id : Nat) := ((Request.fetchVersions id page size).procedure.run (answer now) world).1
    (∀ id, ledger (store.address id) = none →
      get id = .error (.serviceMissing id) ∧ fetch id = .error (.serviceMissing id)) ∧
    (∀ id lines, ledger (store.address id) = some lines → lines.length ≤ maxWord →
      ∃ s rows, get id = .ok s ∧ fetch id = .ok ⟨rows, lines.length, size, max page 1⟩ ∧
        rows.map Version.line = (lines.reverse.drop ((max page 1 - 1) * size)).take size ∧
        (∀ v ∈ rows, v.serviceId = s.id) ∧ s.versionCount = lines.length) ∧
    ∀ name description s,
      ((Request.createService name description).procedure.run (answer now) world).1 = .ok s →
      ∀ later, ((Request.fetchVersions s.id page size).procedure.run (answer later)
        ((Request.createService name description).procedure.run (answer now) world).2).1 =
          .ok ⟨[], 0, size, max page 1⟩ := by
  intro world ledger get fetch
  let start : World RecordStore := { store := store }
  have hstart : start.store.Consistent := hnew.consistent
  have hworld : world.store.Consistent :=
    Deed.done_preserves Consistent (fun now call _ h => h.answer now call) hstart history
  have haddress : world.store.address = store.address :=
    Deed.done_preserves (fun later => later.address = store.address)
      (fun now call later h => (address_answer now call later).trans h) rfl history
  have hledger : world.store.ledger = ledger := by
    have hempty : start.store.ledger = fun _ => none := hnew.ledger
    have hdone := hstart.ledger_done history
    rw [hempty] at hdone
    exact hdone
  refine ⟨fun id hnone => ?_, fun id lines hlines hcount => ?_, fun name description s hs later => ?_⟩
  · rw [← hledger, ← haddress] at hnone
    obtain ⟨hget, hfetch⟩ := exec_lookups_missing hworld now page size hnone
    exact ⟨congrArg Prod.fst hget, congrArg Prod.fst hfetch⟩
  · rw [← hledger, ← haddress] at hlines
    obtain ⟨s, rows, hget, hfetch, hrest⟩ := exec_lookups_found hworld now page hsize hlines hcount
    exact ⟨s, rows, congrArg Prod.fst hget, congrArg Prod.fst hfetch, hrest⟩
  · obtain ⟨hcreated, hlines⟩ := hworld.created_without_lines now hs
    obtain ⟨_, rows, -, hfetch, hrows, -⟩ :=
      exec_lookups_found hcreated later page hsize hlines (Nat.zero_le _)
    obtain rfl : rows = [] := List.map_eq_nil_iff.mp (hrows.trans (by simp [chunk]))
    exact congrArg Prod.fst hfetch

/-- A version that is deleted and created again comes first in the listing, one that is changed keeps
its place, and a service of the name of one that was deleted has none of its versions. -/
theorem versions_follow_history_past_deletions :
    let store := RecordStore.database (Database.prepare {}).2
    let history : List (Int × Deed) :=
      [(1, .ask (.createService "a" "")), (2, .ask (.createVersion 1 "v1" "")),
        (3, .ask (.deleteService 1)), (4, .ask (.createService "a" "")),
        (5, .ask (.createVersion 2 "v1" "")), (6, .ask (.createVersion 2 "v2" "")),
        (7, .ask (.deleteVersion 2 "v1")), (8, .ask (.createVersion 2 "v1" "")), (9, .refresh),
        (10, .ask (.updateVersion 2 "v2" "new")), (11, .ask (.createVersion 1 "v3" ""))]
    let world := Deed.done answer { store := store } history
    ((Request.getService 1).procedure.run (answer 12) world).1 = .error (.serviceMissing 1) ∧
      ∃ rows, ((Request.fetchVersions 2 0 2).procedure.run (answer 12) world).1 =
          .ok ⟨rows, 2, 2, 1⟩ ∧
        rows.map Version.line = [("v1", ""), ("v2", "new")] := by
  intro store history world
  obtain ⟨hmissing, hfound, -⟩ := versions_follow_history .database history 12 0
    (show 2 ≤ maxWord by decide)
  obtain ⟨s, rows, -, hfetch, hrows, -⟩ :=
    hfound 2 [("v2", "new"), ("v1", "")] (by decide) (by decide)
  exact ⟨(hmissing 1 (by decide)).1, rows, hfetch, hrows⟩

end RecordStore

end ServiceRegistry
