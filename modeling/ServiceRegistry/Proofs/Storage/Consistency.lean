import Mathlib.Data.List.Nodup
import Mathlib.Data.List.Perm.Subperm
import ServiceRegistry.Proofs.Storage.Frame

/-!
# Consistency of the records in memory

Ids are given in ascending order and never twice, no two services have one name, no two versions have
one owner and tag, every version has its owner in the table, and a service counts its versions.

* `Memory.Consistent.answer`: every call keeps the records consistent.
* `Memory.Consistent.service?_eq_some`, `Memory.Consistent.version?_eq_some`: looking up a service or
  a version finds the one that there is.
-/

namespace ServiceRegistry

/-- Where at most one element passes a test, the first that passes is the one that passes. -/
theorem find?_eq_some_iff_of_unique {α : Type} {p : α → Bool} {l : List α}
    (hunique : ∀ a ∈ l, ∀ b ∈ l, p a = true → p b = true → a = b) {a : α} :
    l.find? p = some a ↔ a ∈ l ∧ p a = true := by
  constructor
  · intro h
    exact ⟨List.mem_of_find?_eq_some h, List.find?_some h⟩
  · rintro ⟨hmem, ha⟩
    obtain ⟨b, hb⟩ := Option.isSome_iff_exists.mp (List.find?_isSome.mpr ⟨a, hmem, ha⟩)
    rw [hb, hunique b (List.mem_of_find?_eq_some hb) a hmem (List.find?_some hb) ha]

/-- There are no more distinct ids than ids given. -/
theorem length_le_of_given {ids : List Nat} {last : Nat} (hids : ids.Nodup)
    (hgiven : ∀ id ∈ ids, 0 < id ∧ id ≤ last) : ids.length ≤ last := by
  have hsubset : ids ⊆ List.range' 1 last := by
    intro id hid
    have := hgiven id hid
    rw [List.mem_range'_1]
    omega
  simpa using (List.subperm_of_subset hids hsubset).length_le

namespace Memory

def ids (m : Memory) : List Nat := m.services.map (·.id)

def names (m : Memory) : List String := m.services.map (·.name)

/-- The ids of the owners, one for each version. -/
def owners (m : Memory) : List Nat := m.versions.map (·.serviceId)

def tags (m : Memory) : List (Nat × String) := m.versions.map fun v => (v.serviceId, v.tag)

/-- The records fit together. -/
structure Consistent (m : Memory) : Prop where
  ascending : m.ids.Pairwise (· < ·)
  given : ∀ id ∈ m.ids, 0 < id ∧ id ≤ m.lastId
  distinctNames : m.names.Nodup
  distinctTags : m.tags.Nodup
  owned : ∀ id ∈ m.owners, id ∈ m.ids
  counted : ∀ s ∈ m.services, s.versionCount = m.owners.count s.id

theorem length_versionsOf (m : Memory) (id : Nat) : (m.versionsOf id).length = m.owners.count id := by
  rw [versionsOf, ← List.countP_eq_length_filter, owners, List.count, List.countP_map]
  rfl

theorem countP_isVersion (m : Memory) (id : Nat) (tag : String) :
    m.versions.countP (isVersion id tag) = m.tags.count (id, tag) := by
  rw [tags, List.count, List.countP_map]
  rfl

theorem isVersion_iff {id : Nat} {tag : String} {v : Version} :
    isVersion id tag v = true ↔ v.serviceId = id ∧ v.tag = tag := by
  rw [isVersion, Bool.and_eq_true, beq_iff_eq, beq_iff_eq]

variable {m : Memory} {id : Nat} {tag : String}

/-! ## Looking up -/

theorem mem_ids {s : Service} (h : s ∈ m.services) : s.id ∈ m.ids :=
  List.mem_map_of_mem h

theorem service?_eq_none_iff : m.service? id = none ↔ id ∉ m.ids := by
  rw [service?_eq_none, ids, List.mem_map]
  constructor
  · rintro h ⟨s, hs, hid⟩
    exact h s hs hid
  · intro h s hs hid
    exact h ⟨s, hs, hid⟩

theorem version?_eq_none_iff : m.version? id tag = none ↔ (id, tag) ∉ m.tags := by
  rw [version?, List.find?_eq_none, tags, List.mem_map]
  constructor
  · rintro h ⟨v, hv, hkey⟩
    exact h v hv (isVersion_iff.mpr (Prod.mk.inj hkey))
  · intro h v hv hkey
    obtain ⟨howner, htag⟩ := isVersion_iff.mp hkey
    exact h ⟨v, hv, by rw [howner, htag]⟩

theorem Consistent.nodup_ids (h : m.Consistent) : m.ids.Nodup :=
  h.ascending.imp fun hlt => hlt.ne

theorem Consistent.eq_of_id (h : m.Consistent) {s t : Service} (hs : s ∈ m.services)
    (ht : t ∈ m.services) (hid : s.id = t.id) : s = t :=
  List.inj_on_of_nodup_map h.nodup_ids hs ht hid

theorem Consistent.service?_eq_some (h : m.Consistent) {s : Service} :
    m.service? id = some s ↔ s ∈ m.services ∧ s.id = id := by
  rw [service?, find?_eq_some_iff_of_unique, beq_iff_eq]
  intro a ha b hb hap hbp
  exact h.eq_of_id ha hb ((beq_iff_eq.mp hap).trans (beq_iff_eq.mp hbp).symm)

theorem Consistent.version?_eq_some (h : m.Consistent) {v : Version} :
    m.version? id tag = some v ↔ v ∈ m.versions ∧ v.serviceId = id ∧ v.tag = tag := by
  rw [version?, find?_eq_some_iff_of_unique, isVersion_iff]
  intro a ha b hb hap hbp
  obtain ⟨hao, hat⟩ := isVersion_iff.mp hap
  obtain ⟨hbo, hbt⟩ := isVersion_iff.mp hbp
  exact List.inj_on_of_nodup_map h.distinctTags ha hb (by rw [hao, hat, hbo, hbt])

/-! ## What the writes do -/

theorem insertService_taken {name : String} (h : (m.services.any fun s => s.name == name) = true)
    (now : Int) (description : String) :
    m.insertService now name description = (.error (nameTaken name), m) :=
  if_pos h

theorem insertService_free {name : String} (h : ¬ (m.services.any fun s => s.name == name) = true)
    (now : Int) (description : String) :
    m.insertService now name description =
      (.ok ⟨m.lastId + 1, name, description, 0, now, now⟩,
        { m with
          lastId := m.lastId + 1
          services := m.services ++ [⟨m.lastId + 1, name, description, 0, now, now⟩] }) :=
  if_neg h

theorem updateService_taken {name : String}
    (h : (m.services.any fun s => s.name == name && s.id != id) = true) (now : Int)
    (description : String) :
    m.updateService now id name description = (.error (nameTaken name), m) :=
  if_pos h

theorem updateService_free {name : String}
    (h : ¬ (m.services.any fun s => s.name == name && s.id != id) = true) (now : Int)
    (description : String) :
    m.updateService now id name description =
      (.ok ((m.service? id).map fun s =>
          { s with name := name, description := description, updatedAt := now }),
        m.changeService id fun s =>
          { s with name := name, description := description, updatedAt := now }) :=
  if_neg h

theorem deleteService_some {s : Service} (h : m.service? id = some s) :
    m.deleteService id =
      (.ok true,
        { m with
          services := m.services.filter fun s => s.id != id
          versions := m.versions.filter fun v => v.serviceId != id }) := by
  rw [Memory.deleteService, h]

theorem insertVersion_new {s : Service} (hs : m.service? id = some s)
    (hv : m.version? id tag = none) (now : Int) (info : String) :
    m.insertVersion now id tag info =
      (.ok ⟨id, tag, info, now, now⟩,
        { m.changeService id fun s =>
            { s with versionCount := s.versionCount + 1, updatedAt := now } with
          versions := m.versions ++ [⟨id, tag, info, now, now⟩] }) := by
  rw [Memory.insertVersion, hs, hv]

theorem deleteVersion_some {v : Version} (h : m.version? id tag = some v) (now : Int) :
    m.deleteVersion now id tag =
      (.ok true,
        { m.changeService id fun s =>
            { s with versionCount := s.versionCount - 1, updatedAt := now } with
          versions := m.versions.filter fun v => !isVersion id tag v }) := by
  rw [Memory.deleteVersion, h]

/-! ## Writing -/

theorem ids_changeService {change : Service → Service} (hid : ∀ s, (change s).id = s.id) (m : Memory)
    (id : Nat) : (m.changeService id change).ids = m.ids := by
  rw [ids, changeService, List.map_map]
  refine List.map_congr_left fun s _ => ?_
  change (if s.id == id then change s else s).id = s.id
  split
  · exact hid s
  · rfl

theorem names_changeService {change : Service → Service} (hname : ∀ s, (change s).name = s.name)
    (m : Memory) (id : Nat) : (m.changeService id change).names = m.names := by
  rw [names, changeService, List.map_map]
  refine List.map_congr_left fun s _ => ?_
  change (if s.id == id then change s else s).name = s.name
  split
  · exact hname s
  · rfl

/-- Changing one service and the list of versions keeps the records consistent if names and tags stay
distinct, versions keep their owners and the counts are as the new list has them. -/
theorem Consistent.change (h : m.Consistent) {change : Service → Service} {versions : List Version}
    (hid : ∀ s, (change s).id = s.id) (hnames : (m.changeService id change).names.Nodup)
    (htags : (versions.map fun v => (v.serviceId, v.tag)).Nodup)
    (howned : ∀ v ∈ versions, v.serviceId ∈ m.ids)
    (hcounted : ∀ s ∈ m.services, (if s.id == id then change s else s).versionCount =
      (versions.map (·.serviceId)).count s.id) :
    { m.changeService id change with versions := versions }.Consistent := by
  have hids : Memory.ids { m.changeService id change with versions := versions } = m.ids :=
    ids_changeService hid m id
  refine ⟨hids ▸ h.ascending, fun other hother => h.given other (hids ▸ hother), hnames, htags, ?_, ?_⟩
  · intro owner howner
    obtain ⟨v, hv, rfl⟩ := List.mem_map.mp howner
    exact hids ▸ howned v hv
  · intro s hs
    obtain ⟨t, ht, rfl⟩ := List.mem_map.mp hs
    have hsame : (if t.id == id then change t else t).id = t.id := by
      split
      · exact hid t
      · rfl
    refine (hcounted t ht).trans ?_
    change _ = (versions.map (·.serviceId)).count _
    rw [hsame]

theorem name_notMem_of_free {name : String} (h : ¬ (m.services.any fun s => s.name == name) = true) :
    name ∉ m.names := by
  intro hmem
  obtain ⟨s, hs, hname⟩ := List.mem_map.mp hmem
  exact h (List.any_eq_true.mpr ⟨s, hs, beq_iff_eq.mpr hname⟩)

theorem nodup_map_append {α β : Type} {key : α → β} {l : List α} {a : α}
    (h : (l.map key).Nodup) (hnew : key a ∉ l.map key) : ((l ++ [a]).map key).Nodup := by
  rw [List.map_append, List.map_singleton]
  refine List.nodup_append.mpr ⟨h, List.nodup_singleton _, ?_⟩
  intro b hb c hc heq
  rw [List.mem_singleton.mp hc] at heq
  exact hnew (heq ▸ hb)

theorem Consistent.insertService (h : m.Consistent) (now : Int) (name description : String) :
    (m.insertService now name description).2.Consistent := by
  unfold Memory.insertService
  split
  · exact h
  · rename_i hfree
    dsimp only
    have hids : Memory.ids { m with
        lastId := m.lastId + 1
        services := m.services ++ [⟨m.lastId + 1, name, description, 0, now, now⟩] } =
        m.ids ++ [m.lastId + 1] := List.map_append
    refine ⟨?_, ?_, nodup_map_append h.distinctNames (name_notMem_of_free hfree), h.distinctTags,
      ?_, ?_⟩
    · rw [hids]
      refine List.pairwise_append.mpr ⟨h.ascending, List.pairwise_singleton _ _, ?_⟩
      intro id hid other hother
      have := h.given id hid
      rw [List.mem_singleton.mp hother]
      omega
    · intro id hid
      rw [hids] at hid
      dsimp only
      rcases List.mem_append.mp hid with hid | hid
      · have := h.given id hid
        omega
      · rw [List.mem_singleton.mp hid]
        omega
    · intro owner howner
      rw [hids]
      exact List.mem_append_left _ (h.owned owner howner)
    · intro s hs
      rcases List.mem_append.mp hs with hs | hs
      · exact h.counted s hs
      · rw [List.mem_singleton.mp hs]
        -- An id that has not been given owns nothing.
        refine (List.count_eq_zero.mpr fun hmem => ?_).symm
        have hgiven : m.lastId + 1 ≤ m.lastId := (h.given _ (h.owned _ hmem)).2
        omega

theorem Consistent.updateService (h : m.Consistent) (now : Int) (id : Nat)
    (name description : String) : (m.updateService now id name description).2.Consistent := by
  unfold Memory.updateService
  split
  · exact h
  · rename_i hfree
    dsimp only
    have hother : ∀ s ∈ m.services, s.name = name → s.id = id := by
      intro s hs hname
      by_contra hid
      refine hfree (List.any_eq_true.mpr ⟨s, hs, ?_⟩)
      rw [Bool.and_eq_true, beq_iff_eq, bne_iff_ne]
      exact ⟨hname, hid⟩
    refine h.change (fun _ => rfl) ?_ h.distinctTags
      (fun v hv => h.owned _ (List.mem_map_of_mem hv)) ?_
    · -- Names that collide after the change are names of one service before it.
      refine List.pairwise_map.mpr (List.pairwise_map.mpr ?_)
      have hbefore := (List.pairwise_map.mp h.ascending).and (List.pairwise_map.mp h.distinctNames)
      refine hbefore.imp_of_mem ?_
      rintro a b ha hb ⟨hlt, hne⟩
      by_cases haid : a.id = id
      · have hbid : b.id ≠ id := by omega
        rw [if_pos (beq_iff_eq.mpr haid), if_neg (mt beq_iff_eq.mp hbid)]
        intro heq
        exact hbid (hother b hb heq.symm)
      · rw [if_neg (mt beq_iff_eq.mp haid)]
        split
        · intro heq
          exact haid (hother a ha heq)
        · exact hne
    · intro s hs
      split
      · exact h.counted s hs
      · exact h.counted s hs

theorem Consistent.deleteService (h : m.Consistent) (id : Nat) :
    (m.deleteService id).2.Consistent := by
  unfold Memory.deleteService
  split
  · exact h
  · have hservices : (m.services.filter fun s => s.id != id).Sublist m.services :=
      List.filter_sublist
    have hversions : (m.versions.filter fun v => v.serviceId != id).Sublist m.versions :=
      List.filter_sublist
    refine ⟨h.ascending.sublist (hservices.map _), fun other hother =>
      h.given other ((hservices.map _).subset hother), h.distinctNames.sublist (hservices.map _),
      h.distinctTags.sublist (hversions.map _), ?_, ?_⟩
    · intro owner howner
      obtain ⟨v, hv, rfl⟩ := List.mem_map.mp howner
      obtain ⟨hv, hne⟩ := List.mem_filter.mp hv
      obtain ⟨s, hs, hid⟩ := List.mem_map.mp (h.owned _ (List.mem_map_of_mem hv))
      refine List.mem_map.mpr ⟨s, List.mem_filter.mpr ⟨hs, ?_⟩, hid⟩
      exact hid ▸ hne
    · intro s hs
      obtain ⟨hs, hne⟩ := List.mem_filter.mp hs
      rw [h.counted s hs, ← length_versionsOf, ← length_versionsOf]
      refine congrArg List.length ?_
      rw [versionsOf, versionsOf, List.filter_filter]
      refine List.filter_congr fun v _ => ?_
      by_cases hv : v.serviceId = s.id
      · rw [hv, hne, Bool.and_true]
      · rw [beq_false_of_ne hv, Bool.false_and]

theorem Consistent.insertVersion (h : m.Consistent) (now : Int) (id : Nat) (tag info : String) :
    (m.insertVersion now id tag info).2.Consistent := by
  unfold Memory.insertVersion
  split
  · exact h
  · exact h
  · rename_i s hservice hversion
    dsimp only
    have hid : id ∈ m.ids := by
      by_contra hnone
      rw [service?_eq_none_iff.mpr hnone] at hservice
      cases hservice
    refine h.change (fun _ => rfl) ?_ (nodup_map_append h.distinctTags ?_) ?_ ?_
    · rw [names_changeService]
      · exact h.distinctNames
      · exact fun _ => rfl
    · exact version?_eq_none_iff.mp hversion
    · intro v hv
      rcases List.mem_append.mp hv with hv | hv
      · exact h.owned _ (List.mem_map_of_mem hv)
      · rw [List.mem_singleton.mp hv]
        exact hid
    · intro t ht
      have hcount := h.counted t ht
      rw [List.map_append, List.map_singleton, List.count_append, List.count_singleton]
      change _ = m.owners.count t.id + _
      by_cases htid : t.id = id
      · rw [if_pos (beq_iff_eq.mpr htid), if_pos (beq_iff_eq.mpr htid.symm), ← hcount]
      · rw [if_neg (mt beq_iff_eq.mp htid), if_neg (mt beq_iff_eq.mp (Ne.symm htid)), ← hcount]
        rfl

theorem Consistent.updateVersion (h : m.Consistent) (now : Int) (id : Nat) (tag info : String) :
    (m.updateVersion now id tag info).2.Consistent := by
  have hkeep : ∀ {β : Type} (key : Version → β),
      (∀ v, key { v with info := info, updatedAt := now } = key v) →
      (m.updateVersion now id tag info).2.versions.map key = m.versions.map key := by
    intro β key hkey
    refine (List.map_map ..).trans (List.map_congr_left fun v _ => ?_)
    change key (if isVersion id tag v then _ else v) = key v
    split
    · exact hkey v
    · rfl
  have howners : (m.updateVersion now id tag info).2.owners = m.owners := hkeep _ fun _ => rfl
  have htags : (m.updateVersion now id tag info).2.tags = m.tags := hkeep _ fun _ => rfl
  refine ⟨h.ascending, h.given, h.distinctNames, htags ▸ h.distinctTags, ?_, ?_⟩
  · rw [howners]
    exact h.owned
  · rw [howners]
    exact h.counted

/-- Without one of its versions an owner has one version less, and all others have as many. -/
theorem Consistent.count_without (h : m.Consistent) {v : Version} (hv : m.version? id tag = some v)
    (owner : Nat) :
    m.owners.count owner =
      ((m.versions.filter fun v => !isVersion id tag v).map (·.serviceId)).count owner +
        if owner = id then 1 else 0 := by
  have hone : m.versions.countP (isVersion id tag) = 1 := by
    obtain ⟨hmem, howner, htag⟩ := h.version?_eq_some.mp hv
    rw [countP_isVersion]
    exact List.count_eq_one_of_mem h.distinctTags (List.mem_map.mpr ⟨v, hmem, by rw [howner, htag]⟩)
  have hremoved : (m.versions.filter (isVersion id tag)).countP (fun v => v.serviceId == owner) =
      if owner = id then 1 else 0 := by
    rw [List.countP_filter]
    split
    · rename_i howner
      rw [← hone, howner]
      refine List.countP_congr fun v _ => ?_
      rw [Bool.and_eq_true, beq_iff_eq, isVersion_iff]
      exact ⟨And.right, fun hkey => ⟨hkey.1, hkey⟩⟩
    · rename_i howner
      refine List.countP_eq_zero.mpr fun v _ => ?_
      rw [Bool.and_eq_true, beq_iff_eq, isVersion_iff]
      rintro ⟨rfl, hid, -⟩
      exact howner hid
  rw [owners, List.count, List.countP_map, List.countP_map,
    List.countP_eq_countP_filter_add m.versions _ (isVersion id tag), Nat.add_comm]
  exact congrArg _ hremoved

theorem Consistent.deleteVersion (h : m.Consistent) (now : Int) (id : Nat) (tag : String) :
    (m.deleteVersion now id tag).2.Consistent := by
  unfold Memory.deleteVersion
  split
  · exact h
  · rename_i v hversion
    dsimp only
    have hversions : (m.versions.filter fun v => !isVersion id tag v).Sublist m.versions :=
      List.filter_sublist
    refine h.change (fun _ => rfl) ?_ (h.distinctTags.sublist (hversions.map _)) ?_ ?_
    · rw [names_changeService]
      · exact h.distinctNames
      · exact fun _ => rfl
    · intro v hv
      exact h.owned _ (List.mem_map_of_mem (hversions.subset hv))
    · intro t ht
      have hcount := h.counted t ht
      have hwithout := h.count_without hversion t.id
      by_cases htid : t.id = id
      · rw [if_pos (beq_iff_eq.mpr htid)]
        rw [if_pos htid] at hwithout
        change t.versionCount - 1 = _
        omega
      · rw [if_neg (mt beq_iff_eq.mp htid)]
        rw [if_neg htid] at hwithout
        omega

theorem Consistent.refreshView (h : m.Consistent) : m.refreshView.2.Consistent := by
  unfold Memory.refreshView
  split
  · exact ⟨h.ascending, h.given, h.distinctNames, h.distinctTags, h.owned, h.counted⟩
  · exact ⟨h.ascending, h.given, h.distinctNames, h.distinctTags, h.owned, h.counted⟩

theorem Consistent.answer (h : m.Consistent) (now : Int) (call : Call) :
    (answer now call m).2.Consistent := by
  cases call with
  | refreshView => exact h.refreshView
  | insertService name description => exact h.insertService now name description
  | updateService id name description => exact h.updateService now id name description
  | deleteService id => exact h.deleteService id
  | insertVersion id tag info => exact h.insertVersion now id tag info
  | updateVersion id tag info => exact h.updateVersion now id tag info
  | deleteVersion id tag => exact h.deleteVersion now id tag
  | _ => exact h

theorem consistent_of_new : Consistent {} :=
  ⟨.nil, nofun, .nil, .nil, nofun, nofun⟩

end Memory

end ServiceRegistry
