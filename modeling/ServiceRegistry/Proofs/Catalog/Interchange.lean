import ServiceRegistry.Proofs.Catalog.Careful
import ServiceRegistry.Proofs.Catalog.Deed

/-!
# The stores can be interchanged

A caller makes requests and refreshes, one after another, and sees their results and whether a refresh
is owed.  What is seen over a new store in memory and over a new database is the same, as long as the
ids of services and the row ids of versions stay below the largest signed word.

* `Matched.perform`: an act of a careful procedure has one response over both stores, and they match
  after it.
* `stores_indistinguishable`: so both stores give one transcript.
-/

namespace ServiceRegistry

/-! ## Transcripts -/

namespace Deed

def createsService : (deed : Deed) → deed.Result → Bool
  | .ask request, result => request.createsService result
  | .refresh, _ => false

def createsVersion : (deed : Deed) → deed.Result → Bool
  | .ask request, result => request.createsVersion result
  | .refresh, _ => false

theorem follows_careful (deed : Deed) :
    deed.procedure.Follows careful (fun result progress =>
      progress.service = deed.createsService result ∧
        progress.version = deed.createsVersion result) {} := by
  cases deed with
  | ask request => exact request.follows_careful
  | refresh => exact Refresh.follows_careful_ifOwed

end Deed

/-- What a caller sees of a deed: its result, and whether a refresh is owed after it. -/
structure Entry where
  deed : Deed
  result : deed.Result
  owed : Bool

def Entry.createsService (entry : Entry) : Bool := entry.deed.createsService entry.result

def Entry.createsVersion (entry : Entry) : Bool := entry.deed.createsVersion entry.result

/-- What a caller sees of deeds, each at its instant, over a store. -/
def transcript {σ : Type} (answer : Int → Backend σ) : World σ → List (Int × Deed) → List Entry
  | _, [] => []
  | world, (now, deed) :: rest =>
    let (result, world) := deed.procedure.run (answer now) world
    ⟨deed, result, world.owed⟩ :: transcript answer world rest

/-! ## Matching worlds -/

namespace Memory

variable {m : Memory}

theorem lastId_answer (now : Int) (call : Call) (m : Memory) :
    (answer now call m).2.lastId = m.lastId + (call.createsService (answer now call m).1).toNat := by
  cases call with
  | refreshView =>
    simp only [answer, refreshView]
    split <;> rfl
  | insertService name description =>
    simp only [answer, insertService]
    split <;> rfl
  | updateService id name description =>
    simp only [answer, updateService]
    split <;> rfl
  | deleteService id =>
    simp only [answer, deleteService]
    split <;> rfl
  | insertVersion id tag info =>
    simp only [answer, insertVersion]
    split <;> rfl
  | deleteVersion id tag =>
    simp only [answer, deleteVersion]
    split <;> rfl
  | _ => rfl

theorem finds_answer {now : Int} {call : Call} {found : Option Nat}
    (hfound : ∀ id, found = some id → id ∈ m.ids) {id : Nat}
    (h : call.finds (answer now call m).1 found = some id) : id ∈ (answer now call m).2.ids := by
  cases call with
  | getService wanted =>
    change Call.finds (.getService wanted) (.ok (m.service? wanted)) found = some id at h
    change id ∈ m.ids
    by_contra hnone
    cases hservice : m.service? wanted with
    | none =>
      rw [hservice] at h
      cases h
    | some s =>
      rw [hservice] at h
      cases h
      rw [service?_eq_none_iff.mpr hnone] at hservice
      cases hservice
  | countServicesNamed name excluding => exact hfound id h
  | _ => cases h

end Memory

/-- Two worlds in the midst of a careful procedure that began with `given` services and `created`
versions created so far. -/
structure Matched (given created : Nat) (progress : Progress) (world : World Memory)
    (mirror : World Database) : Prop where
  owed : world.owed = mirror.owed
  mirrors : Mirrors (created + progress.version.toNat) world.store mirror.store
  given : world.store.lastId = given + progress.service.toNat
  found : ∀ id, progress.found = some id → id ∈ world.store.ids

variable {given created : Nat} {progress : Progress} {world : World Memory} {mirror : World Database}

/-- Every act that the discipline allows is responded to alike, and keeps the worlds matched. -/
theorem Matched.perform (h : Matched given created progress world mirror)
    (hgiven : (given : Int) < maxSigned) (hcreated : (created : Int) < maxSigned) (now : Int)
    (act : Act) (hallows : careful.allows progress act) :
    (world.perform (Memory.answer now) act).1 = (mirror.perform (Database.answer now) act).1 ∧
      Matched given created (careful.after progress act (world.perform (Memory.answer now) act).1)
        (world.perform (Memory.answer now) act).2 (mirror.perform (Database.answer now) act).2 := by
  cases act with
  | call call =>
    obtain ⟨⟨hservice, hversion⟩, hthere⟩ := hallows
    have hlast : world.store.lastId = given := by rw [h.given, hservice]; rfl
    have hmirrors := h.mirrors
    rw [hversion] at hmirrors
    obtain ⟨hreply, hafter⟩ := hmirrors.answer (hlast ▸ hgiven) hcreated now call
      fun id name description heq => h.found id (hthere id name description heq)
    refine ⟨hreply, h.owed, hafter, ?_, fun id hid => Memory.finds_answer h.found hid⟩
    exact (Memory.lastId_answer now call world.store).trans (congrArg (· + _) hlast)
  | markOwed => exact ⟨rfl, rfl, h.mirrors, h.given, h.found⟩
  | consumeOwed => exact ⟨h.owed, rfl, h.mirrors, h.given, h.found⟩
  | record event => exact ⟨rfl, h.owed, h.mirrors, h.given, h.found⟩

theorem ite_eq_toNat (b : Bool) : (if b = true then 1 else 0) = b.toNat := by
  cases b with
  | true => rfl
  | false => rfl

theorem transcript_eq_of_mirrors {history : List (Int × Deed)} (howed : world.owed = mirror.owed)
    (hmirrors : Mirrors created world.store mirror.store)
    (hservices : ((world.store.lastId +
      (transcript Memory.answer world history).countP Entry.createsService : Nat) : Int) < maxSigned)
    (hversions : ((created +
      (transcript Memory.answer world history).countP Entry.createsVersion : Nat) : Int) < maxSigned) :
    transcript Database.answer mirror history = transcript Memory.answer world history := by
  induction history generalizing world mirror created with
  | nil => rfl
  | cons entry rest ih =>
    obtain ⟨now, deed⟩ := entry
    have hstart : Matched world.store.lastId created {} world mirror :=
      ⟨howed, hmirrors, rfl, nofun⟩
    obtain ⟨last, hresult, ⟨hservice, hversion⟩, hend⟩ := Procedure.Follows.lockstep
      (fun _ _ _ act hallows hmatched => hmatched.perform (by omega) (by omega) now act hallows)
      deed.follows_careful hstart
    simp only [transcript, List.countP_cons] at hservices hversions ⊢
    have hserviceCount : (if (Entry.mk deed (deed.procedure.run (Memory.answer now) world).1
        (deed.procedure.run (Memory.answer now) world).2.owed).createsService = true then 1 else 0) =
        last.service.toNat :=
      hservice ▸ ite_eq_toNat _
    have hversionCount : (if (Entry.mk deed (deed.procedure.run (Memory.answer now) world).1
        (deed.procedure.run (Memory.answer now) world).2.owed).createsVersion = true then 1 else 0) =
        last.version.toNat :=
      hversion ▸ ite_eq_toNat _
    rw [ih hend.owed hend.mirrors (by rw [hend.given]; omega) (by omega), hresult, hend.owed]

/-- What a caller sees over a new database is what is seen over a new store in memory, as long as fewer
services and fewer versions are created than there are positive signed words. -/
theorem stores_indistinguishable (history : List (Int × Deed))
    (hservices : ((transcript Memory.answer { store := {} } history).countP
      Entry.createsService : Int) < maxSigned)
    (hversions : ((transcript Memory.answer { store := {} } history).countP
      Entry.createsVersion : Int) < maxSigned) :
    transcript Database.answer { store := (Database.prepare {}).2 } history =
      transcript Memory.answer { store := {} } history := by
  have hnew : Mirrors 0 {} (Database.prepare {}).2 :=
    ⟨Memory.consistent_of_new, rfl, rfl, rfl, nofun, rfl, rfl, nofun, le_rfl, le_rfl, nofun, rfl⟩
  refine transcript_eq_of_mirrors rfl hnew ?_ ?_
  · change ((0 + _ : Nat) : Int) < maxSigned
    rw [Nat.zero_add]
    exact hservices
  · rw [Nat.zero_add]
    exact hversions

/-- A version whose tag is taken, and an id that is no signed word. -/
theorem stores_indistinguishable_at_edges :
    let history : List (Int × Deed) :=
      [(5, .ask (.createService "b" "")), (6, .ask (.createVersion 1 "v1" "")),
        (7, .ask (.createVersion 1 "v1" "again")), (8, .refresh),
        (9, .ask (.updateService 9223372036854775808 "b" "")),
        (10, .ask (.fetchServices ⟨18446744073709551615, 9223372036854775808, true⟩ ⟨"b"⟩ .name))]
    transcript Database.answer { store := (Database.prepare {}).2 } history =
      transcript Memory.answer { store := {} } history :=
  stores_indistinguishable _ (by decide) (by decide)

end ServiceRegistry
