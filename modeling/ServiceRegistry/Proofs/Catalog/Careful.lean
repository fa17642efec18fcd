import ServiceRegistry.Proofs.Procedure.Quiet
import ServiceRegistry.Proofs.Storage.Correspondence
import ServiceRegistry.Refresh.OnDemand

/-!
# Careful procedures

The discipline under which the two stores cannot be told apart.  A careful procedure changes a service
only after it has found it, with no write in between, and makes no call after it has created a
service or a version.  So no call of it meets an id that its own run has given.

* `Request.follows_careful`: every operation is careful, and its value says what it has created.
* `Refresh.follows_careful_ifOwed`: so is a refresh on demand, which creates nothing.
-/

namespace ServiceRegistry

structure Progress where
  /-- The service found last, if nothing but counting has come after. -/
  found : Option Nat := none
  service : Bool := false
  version : Bool := false

def Progress.Idle (progress : Progress) : Prop :=
  progress.service = false ∧ progress.version = false

/-- The service that is known to be there after a call. -/
def Call.finds : (call : Call) → Reply call.method → Option Nat → Option Nat
  | .getService id, .ok (some _), _ => some id
  | .countServicesNamed .., _, found => found
  | _, _, _ => none

/-- A call that creates nothing and needs nothing to be there. -/
def Call.plain : Call → Bool
  | .insertService .. => false
  | .updateService .. => false
  | .insertVersion .. => false
  | _ => true

/-- A change of a service has found it before, and what has been created comes last. -/
def careful : Discipline Progress where
  allows progress act :=
    match act with
    | .call call => progress.Idle ∧
      ∀ id name description, call = .updateService id name description → progress.found = some id
    | _ => True
  after progress act response :=
    match act, response with
    | .call call, reply =>
      ⟨call.finds reply progress.found, call.createsService reply, call.createsVersion reply⟩
    | _, _ => progress

def Request.createsService : (request : Request) → Except Refusal request.Answer → Bool
  | .createService .., .ok _ => true
  | _, _ => false

def Request.createsVersion : (request : Request) → Except Refusal request.Answer → Bool
  | .createVersion .., .ok _ => true
  | _, _ => false

namespace Operation

variable {α : Type} {progress : Progress}

theorem careful_quiet_plain {call : Call} (h : call.plain = true) :
    careful.Quiet Progress.Idle (.call call) := by
  refine fun progress hidle => ⟨⟨hidle, ?_⟩, fun reply => ?_⟩
  · rintro id name description rfl
    cases h
  · cases call with
    | insertService name description => cases h
    | insertVersion id tag info => cases h
    | _ => exact ⟨rfl, rfl⟩

theorem careful_tolerant : careful.Tolerant Progress.Idle := by
  refine ⟨fun call hreads => careful_quiet_plain ?_, fun _ h => ⟨trivial, fun _ => h⟩,
    fun _ _ h => ⟨trivial, fun _ => h⟩⟩
  cases call with
  | insertService name description => cases hreads
  | updateService id name description => cases hreads
  | insertVersion id tag info => cases hreads
  | _ => rfl

/-- The operation is careful; a refusal has created nothing. -/
def Careful (after : α → Progress → Prop) (operation : Operation α) (progress : Progress) : Prop :=
  Keeps careful after (fun _ progress => progress.Idle) operation progress

theorem careful_callOr (operation : String) (call : Call) (refusal? : Fault.Kind → Option Refusal)
    (hidle : progress.Idle)
    (hfound : ∀ id name description, call = .updateService id name description →
      progress.found = some id) :
    Careful (fun answer after => after = careful.after progress (.call call) (.ok answer))
      (callOr operation call refusal?) progress := by
  have hfault : ∀ fault, (careful.after progress (.call call) (.error fault)).Idle := by
    intro fault
    cases call <;> exact ⟨rfl, rfl⟩
  exact keeps_callOr ⟨hidle, hfound⟩ (fun _ => rfl) (fun fault _ _ => hfault fault)
    (fun fault _ => keeps_fail trivial (hfault fault))

theorem finds_checkService (id : Nat) (hidle : progress.Idle) :
    Careful (fun _ after => after.Idle ∧ after.found = some id) (checkService id) progress := by
  have hcall := careful_callOr "service_exists" (.getService id) (fun _ => none) hidle nofun
  refine keeps_bind (keeps_bind (Keeps.imp hcall fun answer after h => ?_))
  subst h
  cases answer with
  | none => exact ⟨rfl, rfl⟩
  | some service => exact ⟨⟨rfl, rfl⟩, rfl⟩

/-- Counting names forgets no service that has been found. -/
theorem finds_checkNameFree {operation name : String} {excluding : Option Nat} {id : Nat}
    (hidle : progress.Idle) (hfound : progress.found = some id) :
    Careful (fun _ after => after.Idle ∧ after.found = some id)
      (checkNameFree operation name excluding) progress := by
  have hcall := careful_callOr operation (.countServicesNamed name excluding) (fun _ => none) hidle
    nofun
  refine keeps_bind (Keeps.imp hcall fun answer after h => ?_)
  subst h
  exact keeps_check (fun _ => ⟨⟨rfl, rfl⟩, hfound⟩) fun _ => ⟨rfl, rfl⟩

theorem careful_markAndReturn {after : α → Progress → Prop} {value : α} (h : after value progress) :
    Careful after (do Procedure.markOwed; return value) progress :=
  keeps_bind (keeps_lift ⟨trivial, fun _ => h⟩)

theorem careful_createService (name description : String) (hidle : progress.Idle) :
    Careful (fun _ after => after.service = true ∧ after.version = false)
      (createService name description) progress := by
  refine keeps_bind_of_quiet (quiet_check _ _) hidle fun _ progress hidle => ?_
  refine keeps_bind_of_quiet (quiet_checkNameFree careful_tolerant _ _ _) hidle
    fun _ progress hidle => ?_
  have hinsert := careful_callOr "create_service" (.insertService name description)
    (nameConflict name) hidle nofun
  refine keeps_bind (Keeps.imp hinsert fun service after h => careful_markAndReturn ?_)
  subst h
  exact ⟨rfl, rfl⟩

theorem careful_createVersion (id : Nat) (tag info : String) (hidle : progress.Idle) :
    Careful (fun _ after => after.service = false ∧ after.version = true)
      (createVersion id tag info) progress := by
  refine keeps_bind_of_quiet (quiet_check _ _) hidle fun _ progress hidle => ?_
  refine keeps_bind_of_quiet (quiet_checkService careful_tolerant id) hidle fun _ progress hidle => ?_
  refine keeps_bind_of_quiet (quiet_versionExists careful_tolerant id tag) hidle
    fun _ progress hidle => ?_
  refine keeps_bind_of_quiet (quiet_check _ _) hidle fun _ progress hidle => ?_
  have hinsert := careful_callOr "create_version" (.insertVersion id tag info)
    (versionConflict id tag) hidle nofun
  refine keeps_bind (Keeps.imp hinsert fun version after h => careful_markAndReturn ?_)
  subst h
  exact ⟨rfl, rfl⟩

theorem quiet_updateService (id : Nat) (name description : String) :
    Quiet careful Progress.Idle (updateService id name description) := by
  intro progress hidle
  refine keeps_bind_of_quiet (quiet_check _ _) hidle fun _ progress hidle => ?_
  refine keeps_bind (Keeps.imp (finds_checkService id hidle) fun _ progress ⟨hidle, hfound⟩ => ?_)
  refine keeps_bind (Keeps.imp (finds_checkNameFree hidle hfound) fun _ progress ⟨hidle, hfound⟩ => ?_)
  have hupdate := careful_callOr "update_service" (.updateService id name description)
    (nameConflict name) hidle fun _ _ _ h => by cases h; exact hfound
  refine keeps_bind (Keeps.imp hupdate fun updated after h => ?_)
  subst h
  exact keeps_bind_of_quiet (quiet_require _ _) ⟨rfl, rfl⟩ fun service after h =>
    careful_markAndReturn h

theorem quiet_deleteService (id : Nat) : Quiet careful Progress.Idle (deleteService id) := by
  refine quiet_bind (quiet_checkService careful_tolerant id) fun _ => ?_
  refine quiet_bind (quiet_callOr careful_tolerant (careful_quiet_plain rfl)) fun deleted => ?_
  exact quiet_bind (quiet_check _ _) fun _ => quiet_mark careful_tolerant

theorem quiet_updateVersion (id : Nat) (tag info : String) :
    Quiet careful Progress.Idle (updateVersion id tag info) := by
  refine quiet_bind (quiet_checkVersion careful_tolerant id tag) fun _ => ?_
  refine quiet_bind (quiet_callOr careful_tolerant (careful_quiet_plain rfl)) fun updated => ?_
  exact quiet_require _ _

theorem quiet_deleteVersion (id : Nat) (tag : String) :
    Quiet careful Progress.Idle (deleteVersion id tag) := by
  refine quiet_bind (quiet_checkVersion careful_tolerant id tag) fun _ => ?_
  refine quiet_bind (quiet_callOr careful_tolerant (careful_quiet_plain rfl)) fun deleted => ?_
  exact quiet_bind (quiet_check _ _) fun _ => quiet_mark careful_tolerant

end Operation

open Operation

theorem Request.follows_of_quiet {request : Request} (h : Quiet careful Progress.Idle request.operation)
    (hservice : ∀ result, request.createsService result = false)
    (hversion : ∀ result, request.createsVersion result = false) :
    request.procedure.Follows careful (fun result progress =>
      progress.service = request.createsService result ∧
        progress.version = request.createsVersion result) {} := by
  refine Procedure.Follows.mono (h {} ⟨rfl, rfl⟩) fun result progress hprogress => ?_
  rw [hservice, hversion]
  cases result with
  | ok value => exact hprogress
  | error refusal => exact hprogress

theorem Request.follows_careful (request : Request) :
    request.procedure.Follows careful (fun result progress =>
      progress.service = request.createsService result ∧
        progress.version = request.createsVersion result) {} := by
  cases request with
  | createService name description =>
    refine Procedure.Follows.mono (careful_createService name description ⟨rfl, rfl⟩) ?_
    intro result progress h
    cases result with
    | ok value => exact h
    | error refusal => exact h
  | createVersion id tag info =>
    refine Procedure.Follows.mono (careful_createVersion id tag info ⟨rfl, rfl⟩) ?_
    intro result progress h
    cases result with
    | ok value => exact h
    | error refusal => exact h
  | serviceExists id =>
    exact follows_of_quiet (quiet_serviceExists careful_tolerant id) (fun _ => rfl) fun _ => rfl
  | versionExists id tag =>
    exact follows_of_quiet (quiet_versionExists careful_tolerant id tag) (fun _ => rfl) fun _ => rfl
  | getService id =>
    exact follows_of_quiet (quiet_getService careful_tolerant id) (fun _ => rfl) fun _ => rfl
  | getVersion id tag =>
    exact follows_of_quiet (quiet_getVersion careful_tolerant id tag) (fun _ => rfl) fun _ => rfl
  | updateService id name description =>
    exact follows_of_quiet (quiet_updateService id name description) (fun _ => rfl) fun _ => rfl
  | deleteService id => exact follows_of_quiet (quiet_deleteService id) (fun _ => rfl) fun _ => rfl
  | updateVersion id tag info =>
    exact follows_of_quiet (quiet_updateVersion id tag info) (fun _ => rfl) fun _ => rfl
  | deleteVersion id tag =>
    exact follows_of_quiet (quiet_deleteVersion id tag) (fun _ => rfl) fun _ => rfl
  | fetchServices request filter sort =>
    exact follows_of_quiet (quiet_fetchServices careful_tolerant request filter sort) (fun _ => rfl)
      fun _ => rfl
  | fetchVersions id page size =>
    exact follows_of_quiet (quiet_fetchVersions careful_tolerant id page size) (fun _ => rfl)
      fun _ => rfl

theorem Refresh.follows_careful_ifOwed :
    Refresh.ifOwed.Follows careful (fun _ progress => progress.Idle) {} := by
  refine ⟨trivial, fun owed => ?_⟩
  cases owed with
  | false => exact ⟨rfl, rfl⟩
  | true =>
    refine ⟨⟨⟨rfl, rfl⟩, nofun⟩, fun reply => ?_⟩
    cases reply with
    | ok _ => exact ⟨trivial, fun _ => ⟨rfl, rfl⟩⟩
    | error fault => exact ⟨trivial, fun _ => ⟨trivial, fun _ => ⟨rfl, rfl⟩⟩⟩

end ServiceRegistry
