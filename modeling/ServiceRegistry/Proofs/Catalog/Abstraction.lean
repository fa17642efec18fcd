import Mathlib.Data.List.Find
import ServiceRegistry.Proofs.Catalog.Abstract
import ServiceRegistry.Proofs.Storage.Consistency

/-!
# The records in memory as an abstract catalog

What the lists of a store in memory say about services and versions, and what its writes do to it.

* `Memory.Consistent.wellFormed`: consistent records make a well-formed catalog.
* `Memory.Consistent.catalog_insertService` and the like: each write is one change of the catalog.
-/

namespace ServiceRegistry.Memory

/-- The catalog that the records make. -/
def catalog (m : Memory) : Catalog := ⟨m.lastId, m.service?, m.versionsOf, m.view⟩

variable {m : Memory} {id : Nat} {tag : String}

/-! ## Reading -/

theorem version_catalog (m : Memory) (id : Nat) (tag : String) :
    m.catalog.version id tag = m.version? id tag := by
  change (m.versions.filter _).find? _ = m.versions.find? _
  rw [List.find?_filter]
  refine List.find?_congr fun v _ => ?_
  rw [isVersion, Bool.decide_and, Bool.decide_eq_true, Bool.decide_eq_true]

/-- The services in the order of their ids. -/
theorem Consistent.listing_table (h : m.Consistent) :
    (List.range (m.lastId + 1)).filterMap m.service? = m.services := by
  have hservices : m.services.Pairwise fun a b => a.id < b.id := List.pairwise_map.mp h.ascending
  have hlisted : ((List.range (m.lastId + 1)).filterMap m.service?).Pairwise
      fun a b => a.id < b.id := by
    refine List.pairwise_lt_range.filterMap _ fun i j hlt a ha b hb => ?_
    rw [(h.service?_eq_some.mp ha).2, (h.service?_eq_some.mp hb).2]
    exact hlt
  refine List.Perm.eq_of_pairwise (fun a b _ _ hab hba => absurd hab (Nat.lt_asymm hba)) hlisted
    hservices ?_
  refine (List.perm_ext_iff_of_nodup (hlisted.imp fun hlt heq => ?_)
    (hservices.imp fun hlt heq => ?_)).mpr fun s => ?_
  · exact absurd (congrArg Service.id heq) (Nat.ne_of_lt hlt)
  · exact absurd (congrArg Service.id heq) (Nat.ne_of_lt hlt)
  · rw [List.mem_filterMap]
    constructor
    · rintro ⟨i, -, hi⟩
      exact (h.service?_eq_some.mp hi).1
    · intro hs
      have hgiven := h.given s.id (mem_ids hs)
      exact ⟨s.id, List.mem_range.mpr (by omega), h.service?_eq_some.mpr ⟨hs, rfl⟩⟩

theorem Consistent.listing_catalog (h : m.Consistent) (filter : NameFilter) (source : Source) :
    m.catalog.listing filter source = m.matching filter source := by
  cases source with
  | table => exact congrArg (List.filter _) h.listing_table
  | sortedView => rfl

/-- Some service has the name exactly if a count by name finds one. -/
theorem Consistent.named_iff (h : m.Consistent) {name : String} {excluding : Option Nat} :
    m.catalog.Named name excluding ↔ m.countServicesNamed name excluding ≠ 0 := by
  rw [countServicesNamed, ne_eq, List.length_eq_zero_iff, List.filter_eq_nil_iff]
  constructor
  · rintro ⟨id, s, hservice, hname, hid⟩ hnone
    obtain ⟨hs, rfl⟩ := h.service?_eq_some.mp hservice
    refine hnone s hs ?_
    rw [Bool.and_eq_true, beq_iff_eq, bne_iff_ne]
    exact ⟨hname, hid⟩
  · intro hsome
    by_contra hnamed
    refine hsome fun s hs hkept => hnamed ?_
    rw [Bool.and_eq_true, beq_iff_eq, bne_iff_ne] at hkept
    exact ⟨s.id, s, h.service?_eq_some.mpr ⟨hs, rfl⟩, hkept⟩

theorem Consistent.any_name_iff (h : m.Consistent) {name : String} :
    (m.services.any fun s => s.name == name) = true ↔ m.catalog.Named name none := by
  rw [List.any_eq_true]
  constructor
  · rintro ⟨s, hs, hname⟩
    exact ⟨s.id, s, h.service?_eq_some.mpr ⟨hs, rfl⟩, beq_iff_eq.mp hname, nofun⟩
  · rintro ⟨id, s, hservice, hname, -⟩
    exact ⟨s, (h.service?_eq_some.mp hservice).1, beq_iff_eq.mpr hname⟩

theorem Consistent.any_other_name_iff (h : m.Consistent) {name : String} :
    (m.services.any fun s => s.name == name && s.id != id) = true ↔
      m.catalog.Named name (some id) := by
  rw [List.any_eq_true]
  constructor
  · rintro ⟨s, hs, hboth⟩
    rw [Bool.and_eq_true, beq_iff_eq, bne_iff_ne] at hboth
    exact ⟨s.id, s, h.service?_eq_some.mpr ⟨hs, rfl⟩, hboth.1, fun heq =>
      hboth.2 (Option.some.inj heq)⟩
  · rintro ⟨other, s, hservice, hname, hne⟩
    obtain ⟨hs, rfl⟩ := h.service?_eq_some.mp hservice
    refine ⟨s, hs, ?_⟩
    rw [Bool.and_eq_true, beq_iff_eq, bne_iff_ne]
    exact ⟨hname, fun heq => hne (congrArg some heq)⟩

/-- Consistent records make a well-formed catalog. -/
theorem Consistent.wellFormed (h : m.Consistent) : m.catalog.WellFormed := by
  refine ⟨?_, ?_, ?_, ?_, ?_⟩
  · intro id s hservice
    obtain ⟨hs, rfl⟩ := h.service?_eq_some.mp hservice
    exact ⟨rfl, h.given s.id (mem_ids hs)⟩
  · intro id s other t hservice hother hname
    obtain ⟨hs, rfl⟩ := h.service?_eq_some.mp hservice
    obtain ⟨ht, rfl⟩ := h.service?_eq_some.mp hother
    rw [List.inj_on_of_nodup_map h.distinctNames hs ht hname]
  · intro id s hservice
    obtain ⟨hs, rfl⟩ := h.service?_eq_some.mp hservice
    exact (h.counted s hs).trans (length_versionsOf m s.id).symm
  · intro id v hv
    obtain ⟨hmem, howner⟩ := List.mem_filter.mp hv
    rw [beq_iff_eq] at howner
    refine ⟨howner, Option.ne_none_iff_isSome.mp fun hnone => ?_⟩
    exact service?_eq_none_iff.mp hnone (howner ▸ h.owned _ (List.mem_map_of_mem hmem))
  · intro id
    refine List.pairwise_map.mpr ?_
    have htags : m.versions.Pairwise fun a b => (a.serviceId, a.tag) ≠ (b.serviceId, b.tag) :=
      List.pairwise_map.mp h.distinctTags
    refine List.Pairwise.imp_of_mem ?_ (htags.sublist List.filter_sublist)
    intro a b ha hb hne htag
    have hao := beq_iff_eq.mp (List.mem_filter.mp ha).2
    have hbo := beq_iff_eq.mp (List.mem_filter.mp hb).2
    exact hne (by rw [hao, hbo, htag])

/-! ## Writing -/

theorem service?_changeService {change : Service → Service} (hid : ∀ s, (change s).id = s.id)
    (m : Memory) (id : Nat) :
    (m.changeService id change).service? =
      Function.update m.service? id ((m.service? id).map change) := by
  funext other
  by_cases hother : other = id
  · subst hother
    rw [Function.update_self]
    refine find?_map_if (fun s hs => ?_) m.services
    rw [hid]
    exact hs
  · rw [Function.update_of_ne hother]
    change (m.services.map _).find? _ = m.services.find? _
    rw [List.find?_map]
    have hsame : m.services.find? ((fun s => s.id == other) ∘
        fun s => if s.id == id then change s else s) = m.services.find? fun s => s.id == other := by
      refine List.find?_congr fun s _ => ?_
      dsimp only [Function.comp]
      split
      · rw [hid]
      · rfl
    rw [hsame]
    cases hfound : m.services.find? fun s => s.id == other with
    | none => rfl
    | some s =>
      have hs := List.find?_some hfound
      have hne : ¬ (s.id == id) = true := fun heq =>
        hother ((beq_iff_eq.mp hs).symm.trans (beq_iff_eq.mp heq))
      rw [Option.map_some, if_neg hne]

theorem catalog_changeService {change : Service → Service} (hid : ∀ s, (change s).id = s.id)
    (m : Memory) (id : Nat) :
    (m.changeService id change).catalog = m.catalog.changeService id change := by
  change Catalog.mk m.lastId (m.changeService id change).service? m.versionsOf m.view = _
  rw [service?_changeService hid]
  rfl

/-- A new list of versions that differs for one owner only. -/
theorem catalog_versions {versions : List Version} {new : List Version} (m : Memory)
    (howner : (versions.filter fun v => v.serviceId == id) = new)
    (hothers : ∀ other, other ≠ id →
      (versions.filter fun v => v.serviceId == other) = m.versionsOf other) :
    Memory.catalog { m with versions := versions } = m.catalog.setVersions id new := by
  have hversions : (Memory.versionsOf { m with versions := versions }) =
      Function.update m.versionsOf id new := by
    funext other
    by_cases hother : other = id
    · subst hother
      rw [Function.update_self]
      exact howner
    · rw [Function.update_of_ne hother]
      exact hothers other hother
  change Catalog.mk m.lastId m.service? (Memory.versionsOf { m with versions := versions }) m.view = _
  rw [hversions]
  rfl

theorem Consistent.catalog_insertService (h : m.Consistent) {s : Service} (hid : s.id = m.lastId + 1) :
    Memory.catalog { m with lastId := m.lastId + 1, services := m.services ++ [s] } =
      { m.catalog with
        lastId := m.lastId + 1
        service := Function.update m.service? (m.lastId + 1) (some s) } := by
  have hservice : Memory.service? { m with lastId := m.lastId + 1, services := m.services ++ [s] } =
      Function.update m.service? (m.lastId + 1) (some s) := by
    funext id
    change (m.services ++ [s]).find? _ = _
    rw [List.find?_append, List.find?_singleton, hid]
    by_cases hnew : id = m.lastId + 1
    · subst hnew
      have hold : m.service? (m.lastId + 1) = none := by
        refine service?_eq_none_iff.mpr fun hmem => ?_
        have := (h.given _ hmem).2
        omega
      change (m.service? (m.lastId + 1)).or _ = _
      rw [Function.update_self, hold, if_pos (beq_self_eq_true _)]
      rfl
    · rw [Function.update_of_ne hnew, if_neg (fun heq => hnew (beq_iff_eq.mp heq).symm), Option.or_none]
      rfl
  change Catalog.mk (m.lastId + 1) (Memory.service? _) m.versionsOf m.view = _
  rw [hservice]
  rfl

theorem catalog_deleteService (m : Memory) (id : Nat) :
    Memory.catalog { m with
        services := m.services.filter fun s => s.id != id
        versions := m.versions.filter fun v => v.serviceId != id } =
      { m.catalog with service := Function.update m.service? id none }.setVersions id [] := by
  have hservice : Memory.service? { m with services := m.services.filter fun s => s.id != id } =
      Function.update m.service? id none := by
    funext other
    change (m.services.filter _).find? _ = _
    rw [List.find?_filter]
    by_cases hother : other = id
    · subst hother
      rw [Function.update_self, List.find?_eq_none]
      intro s _ hboth
      obtain ⟨hne, heq⟩ := of_decide_eq_true hboth
      exact bne_iff_ne.mp hne (beq_iff_eq.mp heq)
    · rw [Function.update_of_ne hother]
      refine List.find?_congr fun s _ => ?_
      rw [Bool.eq_iff_iff, decide_eq_true_eq, beq_iff_eq, bne_iff_ne]
      constructor
      · exact And.right
      · rintro rfl
        exact ⟨hother, rfl⟩
  have howner : ((m.versions.filter fun v => v.serviceId != id).filter fun v => v.serviceId == id) =
      [] := by
    rw [List.filter_filter, List.filter_eq_nil_iff]
    intro v _ hboth
    obtain ⟨heq, hne⟩ := Bool.and_eq_true_iff.mp hboth
    exact bne_iff_ne.mp hne (beq_iff_eq.mp heq)
  have hothers : ∀ other, other ≠ id →
      ((m.versions.filter fun v => v.serviceId != id).filter fun v => v.serviceId == other) =
        m.versionsOf other := by
    intro other hother
    rw [List.filter_filter]
    refine List.filter_congr fun v _ => ?_
    by_cases hv : v.serviceId = other
    · have hne : (v.serviceId != id) = true := bne_iff_ne.mpr (hv ▸ hother)
      rw [hne, Bool.and_true]
    · rw [beq_false_of_ne hv, Bool.false_and]
  refine (catalog_versions { m with services := m.services.filter fun s => s.id != id } howner
    hothers).trans ?_
  change Catalog.setVersions (Catalog.mk m.lastId (Memory.service? _) m.versionsOf m.view) id [] = _
  rw [hservice]
  rfl

theorem catalog_appendVersion (m : Memory) {v : Version} (howner : v.serviceId = id) :
    Memory.catalog { m with versions := m.versions ++ [v] } =
      m.catalog.setVersions id (m.versionsOf id ++ [v]) := by
  refine catalog_versions m ?_ fun other hother => ?_
  · rw [List.filter_append, List.filter_singleton, howner, beq_self_eq_true]
    rfl
  · rw [List.filter_append, List.filter_singleton, howner, beq_false_of_ne (Ne.symm hother)]
    exact List.append_nil _

theorem catalog_updateVersion (m : Memory) {change : Version → Version}
    (howner : ∀ v, (change v).serviceId = v.serviceId) (id : Nat) (tag : String) :
    Memory.catalog { m with
        versions := m.versions.map fun v => if isVersion id tag v then change v else v } =
      m.catalog.setVersions id
        ((m.versionsOf id).map fun v => if v.tag == tag then change v else v) := by
  have hkeep : ∀ other, (m.versions.map fun v => if isVersion id tag v then change v else v).filter
      (fun v => v.serviceId == other) =
      (m.versionsOf other).map fun v => if isVersion id tag v then change v else v := by
    intro other
    rw [List.filter_map]
    refine congrArg (List.map _) (List.filter_congr fun v _ => ?_)
    dsimp only [Function.comp]
    split
    · rw [howner]
    · rfl
  refine catalog_versions m ?_ fun other hother => ?_
  · rw [hkeep]
    refine List.map_congr_left fun v hv => ?_
    rw [isVersion, (List.mem_filter.mp hv).2, Bool.true_and]
  · rw [hkeep]
    refine (List.map_congr_left fun v hv => if_neg fun hkey => ?_).trans (List.map_id _)
    have hv := beq_iff_eq.mp (List.mem_filter.mp hv).2
    exact hother (hv.symm.trans (isVersion_iff.mp hkey).1)

theorem catalog_removeVersion (m : Memory) (id : Nat) (tag : String) :
    Memory.catalog { m with versions := m.versions.filter fun v => !isVersion id tag v } =
      m.catalog.setVersions id ((m.versionsOf id).filter fun v => v.tag != tag) := by
  refine catalog_versions m ?_ fun other hother => ?_
  · rw [versionsOf, List.filter_filter, List.filter_filter]
    refine List.filter_congr fun v _ => ?_
    by_cases hv : v.serviceId = id
    · rw [isVersion, hv, beq_self_eq_true, Bool.true_and, Bool.true_and, Bool.and_true]
      rfl
    · rw [beq_false_of_ne hv, Bool.false_and, Bool.and_false]
  · rw [versionsOf, List.filter_filter]
    refine List.filter_congr fun v _ => ?_
    by_cases hv : v.serviceId = other
    · rw [isVersion, hv, beq_false_of_ne hother, beq_self_eq_true]
      rfl
    · rw [beq_false_of_ne hv, Bool.false_and]

end ServiceRegistry.Memory
