import Mathlib.Algebra.Ring.Int.Defs
import Mathlib.Data.List.Count
import ServiceRegistry.Proofs.Storage.Reading

/-!
# The integrity of a store

After any history of calls, with any arguments and whether they succeed or not, the tables of a store
fit together: names of services and tags of versions are not given twice, every version has its
service, every service counts its versions and is found under its id, and the sorted view is in the
order of names.

* `RecordStore.Integral` says so of the rows, and of what the store answers.
* `RecordStore.integral_after`: it holds of a store that began as the library makes it.
-/

namespace ServiceRegistry.RecordStore

/-- The owner and the tag of each version. -/
def versionKeys : RecordStore → List (Int × String)
  | memory m => m.versions.map fun v => ((v.serviceId : Int), v.tag)
  | database db => db.versions.map fun row => (row.serviceId, row.tag)

/-- The tables of a store fit together. -/
structure Integral (store : RecordStore) : Prop where
  distinctNames : ((store.rows .table).map (·.name)).Nodup
  distinctTags : store.versionKeys.Nodup
  owned : ∀ key ∈ store.versionKeys, key.1 ∈ (store.rows .table).map (·.id)
  counted : ∀ row ∈ store.rows .table,
    row.versionCount = ((store.versionKeys.map Prod.fst).count row.id : Nat)
  /-- Versions are counted as their service counts them, and where no service is found there are
  none. -/
  countsAgree : ∀ now id, ∃ found : Option Service,
    (answer now (.getService id) store).1 = .ok found ∧
      (answer now (.countVersions id) store).1 = .ok (found.elim 0 (·.versionCount))
  /-- The count of a service whose version is deleted was not zero, and is one less after it. -/
  lowered : ∀ now id tag, (answer now (.deleteVersion id tag) store).1 = .ok true →
    ∃ before after, (answer now (.getService id) store).1 = .ok (some before) ∧
      (answer now (.getService id) (answer now (.deleteVersion id tag) store).2).1 =
        .ok (some after) ∧
      before.versionCount = after.versionCount + 1
  distinctIds : ((store.rows .table).map (·.id)).Nodup
  foundById : ∀ row ∈ store.rows .table, ∀ now, ∃ s : Service, s.row = row ∧
    (answer now (.getService s.id) store).1 = .ok (some s)
  viewAscending : (store.rows .sortedView).Pairwise fun a b => a.name < b.name
  viewIds : ((store.rows .sortedView).map (·.id)).Nodup

variable {store : RecordStore}

namespace Consistent

theorem versionKeys (h : store.Consistent) :
    store.versionKeys = store.records.tags.map fun key => ((key.1 : Int), key.2) := by
  cases store with
  | memory m => simp [RecordStore.versionKeys, RecordStore.records, Memory.tags]
  | database db =>
    have howners := (Database.Consistent.numbered h).owners
    simp only [RecordStore.versionKeys, RecordStore.records, Memory.tags, Database.records,
      List.map_map]
    refine List.map_congr_left fun row hrow => ?_
    simp [VersionRow.version, howners row hrow]

theorem owners (h : store.Consistent) :
    store.versionKeys.map Prod.fst = store.records.owners.map Nat.cast := by
  simp [h.versionKeys, Memory.tags, Memory.owners]

theorem ids_table (h : store.Consistent) :
    (store.rows .table).map (·.id) = store.records.ids.map Nat.cast := by
  rw [h.rows, List.map_map, Memory.ids, List.map_map]
  rfl

/-- The id of a service is looked up as it is. -/
theorem address_id (h : store.Consistent) {s : Service} (hs : s ∈ store.records.services) :
    store.address s.id = s.id := by
  cases store with
  | memory m => rfl
  | database db =>
    have hgiven : s.id ≤ db.lastServiceId.toNat :=
      ((Database.Consistent.records h).given s.id (Memory.mem_ids hs)).2
    have hlast := Database.Consistent.lastService h
    have hsigned : toSigned s.id = s.id := toSigned_of_le (by unfold maxSigned at *; omega)
    change (toSigned s.id).toNat = s.id
    rw [hsigned, Int.toNat_natCast]

theorem countsAgree (h : store.Consistent) (now : Int) (id : Nat) :
    ∃ found : Option Service, (RecordStore.answer now (.getService id) store).1 = .ok found ∧
      (RecordStore.answer now (.countVersions id) store).1 =
        .ok (found.elim 0 (·.versionCount)) := by
  rw [h.getService, h.countVersions]
  refine ⟨_, rfl, congrArg Except.ok ?_⟩
  rw [Memory.length_versionsOf]
  cases hservice : store.records.service? (store.address id) with
  | none =>
    have hmissing := Memory.service?_eq_none_iff.mp hservice
    exact List.count_eq_zero.mpr fun howner => hmissing (h.records.owned _ howner)
  | some s =>
    obtain ⟨hs, hid⟩ := h.records.service?_eq_some.mp hservice
    simp [h.records.counted s hs, hid]

theorem lowered (h : store.Consistent) {now : Int} {id : Nat} {tag : String}
    (htrue : (RecordStore.answer now (.deleteVersion id tag) store).1 = .ok true) :
    ∃ before after, (RecordStore.answer now (.getService id) store).1 = .ok (some before) ∧
      (RecordStore.answer now (.getService id)
        (RecordStore.answer now (.deleteVersion id tag) store).2).1 = .ok (some after) ∧
      before.versionCount = after.versionCount + 1 := by
  obtain ⟨⟨v, hversion⟩, hrecords⟩ := h.deleteVersion_true htrue
  rw [h.getService, (h.answer now _).getService, address_answer, hrecords,
    Memory.deleteVersion_some hversion]
  generalize store.address id = address at *
  obtain ⟨hv, howner, -⟩ := h.records.version?_eq_some.mp hversion
  obtain ⟨before, hbefore⟩ : ∃ before, store.records.service? address = some before := by
    refine Option.ne_none_iff_exists'.mp fun hnone => ?_
    exact Memory.service?_eq_none_iff.mp hnone (howner ▸ h.records.owned _ (List.mem_map_of_mem hv))
  obtain ⟨hs, hid⟩ := h.records.service?_eq_some.mp hbefore
  -- The version that goes is one of those counted.
  have hcount : 0 < before.versionCount := by
    rw [h.records.counted before hs, hid]
    exact List.count_pos_iff.mpr (howner ▸ List.mem_map_of_mem hv)
  let lower (s : Service) : Service := { s with versionCount := s.versionCount - 1, updatedAt := now }
  have hkeep : ∀ s : Service, (s.id == address) = true → ((lower s).id == address) = true :=
    fun _ hid => hid
  have hafter : (store.records.changeService address lower).service? address =
      some (lower before) :=
    (find?_map_if hkeep store.records.services).trans (congrArg (Option.map lower) hbefore)
  refine ⟨before, lower before, congrArg Except.ok hbefore, congrArg Except.ok hafter, ?_⟩
  change before.versionCount = before.versionCount - 1 + 1
  omega

theorem integral (h : store.Consistent) : store.Integral where
  distinctNames := by
    rw [h.rows, List.map_map]
    exact h.records.distinctNames
  distinctTags := by
    rw [h.versionKeys]
    refine h.records.distinctTags.map fun a b heq => ?_
    simp only [Prod.mk.injEq, Nat.cast_inj] at heq
    exact Prod.ext heq.1 heq.2
  owned := by
    intro key hkey
    rw [h.ids_table]
    have howner : key.1 ∈ store.versionKeys.map Prod.fst := List.mem_map_of_mem hkey
    rw [h.owners] at howner
    obtain ⟨owner, howner, hcast⟩ := List.mem_map.mp howner
    exact List.mem_map.mpr ⟨owner, h.records.owned owner howner, hcast⟩
  counted := by
    intro row hrow
    rw [h.rows] at hrow
    obtain ⟨s, hs, rfl⟩ := List.mem_map.mp hrow
    have hcast : (store.records.owners.map Nat.cast).count (s.id : Int) =
        store.records.owners.count s.id :=
      List.count_map_of_injective _ _ Nat.cast_injective _
    change (s.versionCount : Int) = ((store.versionKeys.map Prod.fst).count (s.id : Int) : Nat)
    rw [h.owners, hcast, h.records.counted s hs]
  countsAgree := h.countsAgree
  lowered := fun _ _ _ htrue => h.lowered htrue
  distinctIds := by
    rw [h.ids_table]
    exact h.records.nodup_ids.map Nat.cast_injective
  foundById := by
    intro row hrow now
    rw [h.rows] at hrow
    obtain ⟨s, hs, rfl⟩ := List.mem_map.mp hrow
    refine ⟨s, rfl, ?_⟩
    rw [h.getService, h.address_id hs]
    exact congrArg Except.ok (h.records.service?_eq_some.mpr ⟨hs, rfl⟩)
  viewAscending := by
    rw [h.rows]
    exact List.pairwise_map.mpr h.arranged.names
  viewIds := by
    have hids := h.arranged.ids.map (Nat.cast_injective (R := Int))
    rw [List.map_map] at hids
    rw [h.rows, List.map_map]
    exact hids

end Consistent

/-- After any history of a new store its tables fit together. -/
theorem integral_after (hnew : store.New) (history : List Incident) :
    (store.after history).Integral :=
  (hnew.consistent.after history).integral

/-- A version of a service that is not there, a tag and a name given twice, and a change of a service
after the view has been taken. -/
theorem integral_after_refusals :
    New (.database (Database.prepare {}).2) ∧
      (after (.database (Database.prepare {}).2)
        [.call 1 (.insertService "b" ""), .call 2 (.insertVersion 7 "v1" ""),
          .call 3 (.insertVersion 1 "v1" ""), .call 4 (.insertVersion 1 "v1" "again"),
          .call 5 (.insertService "a" ""), .call 6 .refreshView,
          .call 7 (.updateService 2 "b" ""), .call 8 (.updateService 2 "c" ""),
          .call 9 (.deleteVersion 1 "v1"), .call 10 (.deleteService 1)]).Integral :=
  ⟨.database, integral_after .database _⟩

end ServiceRegistry.RecordStore
