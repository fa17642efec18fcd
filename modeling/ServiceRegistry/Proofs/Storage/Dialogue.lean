import ServiceRegistry.Proofs.Catalog.Interchange
import ServiceRegistry.Proofs.Storage.Landing

/-!
# Calls made on a store directly

Whoever calls a store without the operations of the catalog makes calls of any kind, in any order and
with any arguments, and hears the answers.  A new store in memory and a new database give the same
answers, call by call, as long as the ids of services and the row ids of versions stay below the
largest signed word.  They differ in one case: asked to rename a service that is not there to a name
that is taken, the store in memory finds the name taken first, and the database finds no service.

* `dialogue` is what is heard.
* `Mirrors.after`: the stores mirror each other all along, whatever is called.
* `stores_answer_alike`: so they answer alike, and how they differ in the one case.
-/

namespace ServiceRegistry

/-- A call at an instant of the wall clock, and its answer. -/
structure Exchange where
  now : Int
  call : Call
  reply : Reply call.method

namespace Exchange

def createsService (exchange : Exchange) : Bool := exchange.call.createsService exchange.reply

def createsVersion (exchange : Exchange) : Bool := exchange.call.createsVersion exchange.reply

end Exchange

section Dialogue

variable {σ : Type} (answer : Int → Backend σ)

/-- The answers to calls that are made on a store one after another, each at its instant. -/
def dialogue : σ → List (Int × Call) → List Exchange
  | _, [] => []
  | store, (now, call) :: rest =>
    ⟨now, call, (answer now call store).1⟩ :: dialogue (answer now call store).2 rest

/-- The store after calls, each at its instant. -/
def afterCalls (store : σ) (calls : List (Int × Call)) : σ :=
  calls.foldl (fun store entry => (answer entry.1 entry.2 store).2) store

@[simp] theorem afterCalls_nil (store : σ) : afterCalls answer store [] = store := rfl

@[simp] theorem afterCalls_cons (store : σ) (now : Int) (call : Call) (rest : List (Int × Call)) :
    afterCalls answer store ((now, call) :: rest) =
      afterCalls answer (answer now call store).2 rest := rfl

end Dialogue

/-- The call renames a service that is not there to a name that is taken. -/
def Memory.RenamesMissing (m : Memory) : Call → Prop
  | .updateService id name _ => id ∉ m.ids ∧ name ∈ m.names
  | _ => False

namespace Mirrors

variable {created : Nat} {m : Memory} {db : Database}

/-- A service that is not there is not changed in either store. -/
theorem updateService_missing (h : Mirrors created m db) (hlast : (m.lastId : Int) < maxSigned)
    (now : Int) {id : Nat} (hid : id ∉ m.ids) (name description : String) :
    (m.updateService now id name description).1 =
        (if name ∈ m.names then .error (Memory.nameTaken name) else .ok none) ∧
      (m.updateService now id name description).2 = m ∧
      db.updateService now id name description = (.ok none, db) := by
  have hnone : m.service? id = none := Memory.service?_eq_none_iff.mpr hid
  have hrow : db.serviceRow? id = none := by
    rw [h.serviceRow? hlast, hnone]
    rfl
  have htaken : (m.services.any fun s => s.name == name && s.id != id) = true ↔ name ∈ m.names := by
    simp only [List.any_eq_true, Bool.and_eq_true, beq_iff_eq, bne_iff_ne, Memory.names, List.mem_map]
    constructor
    · rintro ⟨s, hs, hname, -⟩
      exact ⟨s, hs, hname⟩
    · rintro ⟨s, hs, hname⟩
      exact ⟨s, hs, hname, fun heq => hid (heq ▸ Memory.mem_ids hs)⟩
  refine ⟨?_, ?_, Database.updateService_none hrow now name description⟩
  · by_cases hname : name ∈ m.names
    · rw [Memory.updateService_taken (htaken.mpr hname), if_pos hname]
    · rw [Memory.updateService_free (mt htaken.mp hname), if_neg hname, hnone]
      rfl
  · by_cases hname : name ∈ m.names
    · rw [Memory.updateService_taken (htaken.mpr hname)]
    · rw [Memory.updateService_free (mt htaken.mp hname)]
      exact Memory.changeService_of_none hnone _

/-- A call is answered alike, or it changes a service that is not there. -/
theorem alike_or_missing (h : Mirrors created m db) (hlast : (m.lastId : Int) < maxSigned)
    (hcreated : (created : Int) < maxSigned) (now : Int) (call : Call) :
    Alike created now call m db ∨
      ∃ id name description, call = .updateService id name description ∧ id ∉ m.ids := by
  by_cases hmissing : ∃ id name description, call = .updateService id name description ∧ id ∉ m.ids
  · exact Or.inr hmissing
  · refine Or.inl (h.answer hlast hcreated now call fun id name description heq => ?_)
    by_contra hid
    exact hmissing ⟨id, name, description, heq, hid⟩

/-- What the two stores answer to a call: the same, or one that the name is taken and the other that
the service is not there. -/
theorem reply (h : Mirrors created m db) (hlast : (m.lastId : Int) < maxSigned)
    (hcreated : (created : Int) < maxSigned) (now : Int) (call : Call) :
    (¬ m.RenamesMissing call →
      (Memory.answer now call m).1 = (Database.answer now call db).1) ∧
    ∀ id name description, call = .updateService id name description → m.RenamesMissing call →
      (Memory.answer now (.updateService id name description) m).1 =
          .error (Memory.nameTaken name) ∧
        (Database.answer now (.updateService id name description) db).1 = .ok none := by
  constructor
  · intro hcall
    rcases h.alike_or_missing hlast hcreated now call with
      halike | ⟨id, name, description, rfl, hid⟩
    · exact halike.1
    · have hname : name ∉ m.names := fun hname => hcall ⟨hid, hname⟩
      obtain ⟨hreply, -, hdb⟩ := h.updateService_missing hlast now hid name description
      change (m.updateService now id name description).1 =
        (db.updateService now id name description).1.mapError DatabaseFault.reported
      rw [hreply, hdb, if_neg hname]
      rfl
  · rintro id name description rfl ⟨hid, hname⟩
    obtain ⟨hreply, -, hdb⟩ := h.updateService_missing hlast now hid name description
    constructor
    · exact hreply.trans (if_pos hname)
    · change (db.updateService now id name description).1.mapError DatabaseFault.reported = _
      rw [hdb]
      rfl

/-- The stores mirror each other after any call. -/
theorem next (h : Mirrors created m db) (hlast : (m.lastId : Int) < maxSigned)
    (hcreated : (created : Int) < maxSigned) (now : Int) (call : Call) :
    Mirrors (created + (call.createsVersion (Memory.answer now call m).1).toNat)
      (Memory.answer now call m).2 (Database.answer now call db).2 := by
  rcases h.alike_or_missing hlast hcreated now call with
    halike | ⟨id, name, description, rfl, hid⟩
  · exact halike.2
  · obtain ⟨-, hm, hdb⟩ := h.updateService_missing hlast now hid name description
    change Mirrors created (m.updateService now id name description).2
      (db.updateService now id name description).2
    rw [hm, hdb]
    exact h

/-- The stores mirror each other after any calls that do not use up the signed words. -/
theorem after (h : Mirrors created m db) (calls : List (Int × Call))
    (hservices : ((m.lastId +
      (dialogue Memory.answer m calls).countP Exchange.createsService : Nat) : Int) < maxSigned)
    (hversions : ((created +
      (dialogue Memory.answer m calls).countP Exchange.createsVersion : Nat) : Int) < maxSigned) :
    Mirrors (created + (dialogue Memory.answer m calls).countP Exchange.createsVersion)
        (afterCalls Memory.answer m calls) (afterCalls Database.answer db calls) ∧
      (afterCalls Memory.answer m calls).lastId =
        m.lastId + (dialogue Memory.answer m calls).countP Exchange.createsService := by
  induction calls generalizing m db created with
  | nil => exact ⟨h, rfl⟩
  | cons entry rest ih =>
    obtain ⟨now, call⟩ := entry
    have hservice : (if (Exchange.mk now call (Memory.answer now call m).1).createsService = true
        then 1 else 0) = (call.createsService (Memory.answer now call m).1).toNat := ite_eq_toNat _
    have hversion : (if (Exchange.mk now call (Memory.answer now call m).1).createsVersion = true
        then 1 else 0) = (call.createsVersion (Memory.answer now call m).1).toNat := ite_eq_toNat _
    simp only [dialogue, List.countP_cons, afterCalls_cons, hservice, hversion] at *
    have hlast := Memory.lastId_answer now call m
    obtain ⟨hmirrors, hgiven⟩ :=
      ih (h.next (by omega) (by omega) now call) (by omega) (by omega)
    refine ⟨?_, by omega⟩
    rw [Nat.add_assoc] at hmirrors
    rwa [Nat.add_comm (List.countP _ _)]

theorem of_new : Mirrors 0 {} (Database.prepare {}).2 :=
  ⟨Memory.consistent_of_new, rfl, rfl, rfl, nofun, rfl, rfl, nofun, le_rfl, le_rfl, nofun, rfl⟩

end Mirrors

/-- After any calls on a new store in memory and on a new database, fewer of which create a service or
a version than there are positive signed words, the next call has the same answer from both.  Only of
a service that is not there, to be renamed to a name that is taken, the store in memory says that the
name is taken and the database that the service is not there. -/
theorem stores_answer_alike (calls : List (Int × Call))
    (hservices : ((dialogue Memory.answer {} calls).countP Exchange.createsService : Int) < maxSigned)
    (hversions : ((dialogue Memory.answer {} calls).countP Exchange.createsVersion : Int) < maxSigned)
    (now : Int) (call : Call) :
    let m := afterCalls Memory.answer {} calls
    let db := afterCalls Database.answer (Database.prepare {}).2 calls
    (¬ m.RenamesMissing call → (Memory.answer now call m).1 = (Database.answer now call db).1) ∧
    ∀ id name description, call = .updateService id name description → m.RenamesMissing call →
      (Memory.answer now (.updateService id name description) m).1 =
          .error (Memory.nameTaken name) ∧
        (Database.answer now (.updateService id name description) db).1 = .ok none := by
  intro m db
  have hnone : ({} : Memory).lastId = 0 := rfl
  obtain ⟨hmirrors, hgiven⟩ := Mirrors.of_new.after calls (by omega) (by omega)
  exact hmirrors.reply (by omega) (by omega) now call

/-- An id that is no signed word and has no service, and a service deleted before a rename to the name
of another. -/
theorem stores_answer_alike_after_delete :
    let calls : List (Int × Call) :=
      [(5, .insertService "a" ""), (6, .insertService "b" ""), (7, .deleteService 2)]
    let m := afterCalls Memory.answer {} calls
    let db := afterCalls Database.answer (Database.prepare {}).2 calls
    (Memory.answer 8 (.insertVersion 9223372036854775808 "v1" "") m).1 =
        (Database.answer 8 (.insertVersion 9223372036854775808 "v1" "") db).1 ∧
      (Memory.answer 8 (.updateService 2 "a" "") m).1 = .error (Memory.nameTaken "a") ∧
      (Database.answer 8 (.updateService 2 "a" "") db).1 = .ok none := by
  intro calls m db
  have halike := stores_answer_alike calls (by decide) (by decide) 8
  refine ⟨(halike (.insertVersion 9223372036854775808 "v1" "")).1 nofun, ?_⟩
  exact (halike (.updateService 2 "a" "")).2 2 "a" "" rfl ⟨by decide, by decide⟩

/-- A service that was never there. -/
theorem stores_differ_on_missing_service :
    let calls : List (Int × Call) := [(5, .insertService "a" "")]
    let call : Call := .updateService 9 "a" "x"
    (Memory.answer 6 call (afterCalls Memory.answer {} calls)).1 ≠
      (Database.answer 6 call (afterCalls Database.answer (Database.prepare {}).2 calls)).1 := by
  decide

end ServiceRegistry
