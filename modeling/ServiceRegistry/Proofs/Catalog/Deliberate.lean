import ServiceRegistry.Proofs.Procedure.Execution
import ServiceRegistry.Proofs.Procedure.Quiet
import ServiceRegistry.Proofs.Storage.Landing

/-!
# Deliberate writers

The six requests that write look before they leap: they read, and if what they read lets them they
make one write, and no call after it.  The reply to this write alone decides how the request ends.

* `Request.follows_deliberate`: a request that writes is deliberate, and ends as the reply to its write
  says; without a write it is refused, and not for an internal error unless a read has failed.
* `Request.lands`: a write that lets the request end well is what the whole request, made at the
  instant of the write, would have done; any other write changes nothing.
-/

namespace ServiceRegistry

/-! ## The write of a request -/

def Request.writes : Request → Bool
  | .createService .. => true
  | .updateService .. => true
  | .deleteService _ => true
  | .createVersion .. => true
  | .updateVersion .. => true
  | .deleteVersion .. => true
  | _ => false

/-- The call is the write of the request, which is only made for a text that is not blank. -/
def Request.Intends : Request → Call → Prop
  | .createService name description, call =>
    call = .insertService name description ∧ ¬ Text.blank name = true
  | .updateService id name description, call =>
    call = .updateService id name description ∧ ¬ Text.blank name = true
  | .deleteService id, call => call = .deleteService id
  | .createVersion id tag info, call =>
    call = .insertVersion id tag info ∧ ¬ Text.blank tag = true
  | .updateVersion id tag info, call => call = .updateVersion id tag info
  | .deleteVersion id tag, call => call = .deleteVersion id tag
  | _, _ => False

/-- The refusal that a fault becomes. -/
def Fault.refusal (refusal? : Fault.Kind → Option Refusal) (fault : Fault) : Refusal :=
  (refusal? fault.kind).getD .internal

/-- How a request ends, by the reply to its write. -/
def Request.conclusion :
    (request : Request) → (call : Call) → Reply call.method → Except Refusal request.Answer
  | .createService name _, .insertService .., reply =>
    reply.mapError (Fault.refusal (Operation.nameConflict name))
  | .updateService _ name _, .updateService .., .error fault =>
    .error (fault.refusal (Operation.nameConflict name))
  | .updateService id _ _, .updateService .., .ok updated =>
    updated.elim (.error (.serviceMissing id)) .ok
  | .deleteService _, .deleteService _, .error fault => .error (fault.refusal fun _ => none)
  | .deleteService id, .deleteService _, .ok deleted =>
    if deleted then .ok () else .error (.serviceMissing id)
  | .createVersion id tag _, .insertVersion .., reply =>
    reply.mapError (Fault.refusal (Operation.versionConflict id tag))
  | .updateVersion .., .updateVersion .., .error fault => .error (fault.refusal fun _ => none)
  | .updateVersion id tag _, .updateVersion .., .ok updated =>
    updated.elim (.error (.versionMissing id tag)) .ok
  | .deleteVersion .., .deleteVersion .., .error fault => .error (fault.refusal fun _ => none)
  | .deleteVersion id tag, .deleteVersion .., .ok deleted =>
    if deleted then .ok () else .error (.versionMissing id tag)
  | _, _, _ => .error .internal

/-! ## The discipline -/

/-- What a request has done so far. -/
inductive Stage
  | looking
  /-- A read has failed. -/
  | faulted
  | wrote (call : Call) (reply : Reply call.method)

/-- Calls are made while looking, and only one of them, the last, is no read. -/
def deliberate (request : Request) : Discipline Stage where
  allows stage act :=
    match act with
    | .call call => stage = .looking ∧ (call.reads = true ∨ request.Intends call)
    | .consumeOwed => False
    | _ => True
  after stage act response :=
    match act, response with
    | .call call, reply =>
      if call.reads then reply.casesOn (fun _ => .faulted) fun _ => stage else .wrote call reply
    | _, _ => stage

/-- The request may end so at this stage. -/
def Request.Ends (request : Request) (result : Except Refusal request.Answer) : Stage → Prop
  | .looking => ∃ refusal, result = .error refusal ∧ refusal ≠ .internal
  | .faulted => True
  | .wrote call reply => result = request.conclusion call reply

namespace Operation

variable {α : Type} {request : Request}

/-- From looking, the operation ends still looking or with a refusal at which the request may end. -/
def Looks (request : Request) (operation : Operation α) : Prop :=
  Keeps (deliberate request) (fun _ stage => stage = .looking)
    (fun refusal stage => request.Ends (.error refusal) stage) operation .looking

/-- The operation ends the request. -/
def Concludes (request : Request) (operation : Operation request.Answer) (stage : Stage) : Prop :=
  Keeps (deliberate request) (fun value stage => request.Ends (.ok value) stage)
    (fun refusal stage => request.Ends (.error refusal) stage) operation stage

theorem looks_bind {β : Type} {operation : Operation α} {next : α → Operation β}
    (h : Looks request operation) (hnext : ∀ value, Looks request (next value)) :
    Looks request (operation >>= next) := by
  refine keeps_bind (Keeps.imp h fun value stage hlooking => ?_)
  subst hlooking
  exact hnext value

theorem concludes_bind_of_looks {operation : Operation α} {next : α → Operation request.Answer}
    (h : Looks request operation) (hnext : ∀ value, Concludes request (next value) .looking) :
    Concludes request (operation >>= next) .looking := by
  refine keeps_bind (Keeps.imp h fun value stage hlooking => ?_)
  subst hlooking
  exact hnext value

theorem looks_check {condition : Bool} {refusal : Refusal} (h : refusal ≠ .internal) :
    Looks request (check condition refusal) :=
  keeps_check (fun _ => rfl) fun _ => ⟨refusal, rfl, h⟩

theorem looks_read {operation : String} {call : Call} (h : call.reads = true) :
    Looks request (Operation.call operation call) := by
  have hok : ∀ answer, (deliberate request).after .looking (.call call) (.ok answer) = .looking :=
    fun _ => if_pos h
  have hfault : ∀ fault, (deliberate request).after .looking (.call call) (.error fault) = .faulted :=
    fun _ => if_pos h
  refine keeps_callOr ⟨rfl, Or.inl h⟩ hok (fun _ _ hkind => nomatch hkind) fun fault _ => ?_
  rw [hfault]
  exact keeps_fail trivial trivial

theorem looks_serviceExists (id : Nat) : Looks request (serviceExists id) :=
  looks_bind (looks_read rfl) fun _ => keeps_pure rfl

theorem looks_versionExists (id : Nat) (tag : String) : Looks request (versionExists id tag) :=
  looks_bind (looks_read rfl) fun _ => keeps_pure rfl

theorem looks_checkService (id : Nat) : Looks request (checkService id) :=
  looks_bind (looks_serviceExists id) fun _ => looks_check nofun

theorem looks_checkVersion (id : Nat) (tag : String) : Looks request (checkVersion id tag) :=
  looks_bind (looks_versionExists id tag) fun _ => looks_check nofun

theorem looks_checkNameFree (operation name : String) (excluding : Option Nat) :
    Looks request (checkNameFree operation name excluding) :=
  looks_bind (looks_read rfl) fun _ => looks_check nofun

/-- The write of a request, and what comes after it. -/
theorem concludes_bind_write {operation : String} {call : Call}
    {refusal? : Fault.Kind → Option Refusal} {next : call.Answer → Operation request.Answer}
    (hwrite : call.reads = false) (hintends : request.Intends call)
    (hfault : ∀ fault, request.conclusion call (.error fault) = .error (fault.refusal refusal?))
    (hnext : ∀ answer, Concludes request (next answer) (.wrote call (.ok answer))) :
    Concludes request (callOr operation call refusal? >>= next) .looking := by
  have hafter : ∀ reply, (deliberate request).after .looking (.call call) reply =
      .wrote call reply := fun _ => if_neg (Bool.eq_false_iff.mp hwrite)
  refine keeps_bind (keeps_callOr ⟨rfl, Or.inr hintends⟩ (fun answer => ?_)
    (fun fault refusal hkind => ?_) fun fault hkind => ?_)
  · rw [hafter]
    exact hnext answer
  · rw [hafter]
    exact (hfault fault).trans (by rw [Fault.refusal, hkind]; rfl) |>.symm
  · rw [hafter]
    exact keeps_fail trivial ((hfault fault).trans (by rw [Fault.refusal, hkind]; rfl)).symm

theorem concludes_markAndReturn {value : request.Answer} {call : Call} {reply : Reply call.method}
    (h : request.conclusion call reply = .ok value) :
    Concludes request (do Procedure.markOwed; return value) (.wrote call reply) :=
  keeps_bind (keeps_lift ⟨trivial, fun _ => h.symm⟩)

theorem concludes_createService (name description : String) :
    Concludes (.createService name description) (createService name description) .looking := by
  unfold createService checkNotBlank
  refine keeps_bind (keeps_check (fun hblank => ?_) fun _ => ⟨_, rfl, nofun⟩)
  refine concludes_bind_of_looks (looks_checkNameFree _ _ _) fun _ => ?_
  have hintends : Request.Intends (.createService name description)
      (.insertService name description) := ⟨rfl, by simpa using hblank⟩
  exact concludes_bind_write rfl hintends (fun _ => rfl) fun service => concludes_markAndReturn rfl

theorem concludes_updateService (id : Nat) (name description : String) :
    Concludes (.updateService id name description) (updateService id name description) .looking := by
  unfold updateService checkNotBlank
  refine keeps_bind (keeps_check (fun hblank => ?_) fun _ => ⟨_, rfl, nofun⟩)
  refine concludes_bind_of_looks (looks_checkService id) fun _ => ?_
  refine concludes_bind_of_looks (looks_checkNameFree _ _ _) fun _ => ?_
  have hintends : Request.Intends (.updateService id name description)
      (.updateService id name description) := ⟨rfl, by simpa using hblank⟩
  refine concludes_bind_write rfl hintends (fun _ => rfl) fun updated => ?_
  refine keeps_bind (keeps_require (fun service hsome => ?_) fun hnone => ?_)
  · subst hsome
    exact concludes_markAndReturn rfl
  · subst hnone
    rfl

theorem concludes_deleteService (id : Nat) :
    Concludes (.deleteService id) (deleteService id) .looking := by
  refine concludes_bind_of_looks (looks_checkService id) fun _ => ?_
  refine concludes_bind_write rfl rfl (fun _ => rfl) fun deleted => ?_
  refine keeps_bind (keeps_check (fun htrue => ?_) fun hfalse => ?_)
  · subst htrue
    exact keeps_lift ⟨trivial, fun _ => rfl⟩
  · subst hfalse
    rfl

theorem concludes_createVersion (id : Nat) (tag info : String) :
    Concludes (.createVersion id tag info) (createVersion id tag info) .looking := by
  unfold createVersion checkNotBlank
  refine keeps_bind (keeps_check (fun hblank => ?_) fun _ => ⟨_, rfl, nofun⟩)
  refine concludes_bind_of_looks (looks_checkService id) fun _ => ?_
  refine concludes_bind_of_looks (looks_versionExists id tag) fun _ => ?_
  refine concludes_bind_of_looks (looks_check nofun) fun _ => ?_
  have hintends : Request.Intends (.createVersion id tag info) (.insertVersion id tag info) :=
    ⟨rfl, by simpa using hblank⟩
  exact concludes_bind_write rfl hintends (fun _ => rfl) fun version => concludes_markAndReturn rfl

theorem concludes_updateVersion (id : Nat) (tag info : String) :
    Concludes (.updateVersion id tag info) (updateVersion id tag info) .looking := by
  refine concludes_bind_of_looks (looks_checkVersion id tag) fun _ => ?_
  refine concludes_bind_write rfl rfl (fun _ => rfl) fun updated => ?_
  refine keeps_require (fun version hsome => ?_) fun hnone => ?_
  · subst hsome
    rfl
  · subst hnone
    rfl

theorem concludes_deleteVersion (id : Nat) (tag : String) :
    Concludes (.deleteVersion id tag) (deleteVersion id tag) .looking := by
  refine concludes_bind_of_looks (looks_checkVersion id tag) fun _ => ?_
  refine concludes_bind_write rfl rfl (fun _ => rfl) fun deleted => ?_
  refine keeps_bind (keeps_check (fun htrue => ?_) fun hfalse => ?_)
  · subst htrue
    exact keeps_lift ⟨trivial, fun _ => rfl⟩
  · subst hfalse
    rfl

end Operation

open Operation in
theorem Request.follows_deliberate {request : Request} (h : request.writes = true) :
    request.procedure.Follows (deliberate request) request.Ends .looking := by
  have hconcludes : Concludes request request.operation .looking := by
    cases request with
    | createService name description => exact concludes_createService name description
    | updateService id name description => exact concludes_updateService id name description
    | deleteService id => exact concludes_deleteService id
    | createVersion id tag info => exact concludes_createVersion id tag info
    | updateVersion id tag info => exact concludes_updateVersion id tag info
    | deleteVersion id tag => exact concludes_deleteVersion id tag
    | _ => cases h
  refine Procedure.Follows.mono hconcludes fun result stage hends => ?_
  cases result with
  | ok value => exact hends
  | error refusal => exact hends

/-! ## The write alone and the whole request -/

/-- A consistent store answers every read, and stays as it is. -/
theorem RecordStore.Consistent.reads {store : RecordStore} (h : store.Consistent) (now : Int)
    {call : Call} (hreads : call.reads = true) :
    ∃ answer, RecordStore.answer now call store = (.ok answer, store) := by
  cases call with
  | countServices filter source => exact ⟨_, store.countServices now filter source⟩
  | scanServices filter source range => exact ⟨_, h.scanServices now filter source range⟩
  | getService id => exact ⟨_, h.getService now id⟩
  | countServicesNamed name excluding => exact ⟨_, h.countServicesNamed now name excluding⟩
  | getVersion id tag => exact ⟨_, h.getVersion now id tag⟩
  | countVersions id => exact ⟨_, h.countVersions now id⟩
  | scanVersions id range => exact ⟨_, h.scanVersions now id range⟩
  | _ => cases hreads

/-- The write lets the request end as the whole request would at its instant, or it changes nothing. -/
def Request.Lands (request : Request) (call : Call) (now : Int) (world : World RecordStore) : Prop :=
  (∃ refusal, request.conclusion call (RecordStore.answer now call world.store).1 = .error refusal ∧
    (RecordStore.answer now call world.store).2 = world.store ∧
    (refusal = .internal → ¬ world.store.Roomy)) ∨
  ∃ value, request.conclusion call (RecordStore.answer now call world.store).1 = .ok value ∧
    (request.procedure.run (RecordStore.answer now) world).1 = .ok value ∧
    (request.procedure.run (RecordStore.answer now) world).2.store =
      (RecordStore.answer now call world.store).2

namespace Request

variable {request : Request} {call : Call} {reply : Reply call.method} {now : Int}
  {world : World RecordStore}

theorem lands_of_refused {refusal : Refusal}
    (hreply : RecordStore.answer now call world.store = (reply, world.store))
    (hconclusion : request.conclusion call reply = .error refusal)
    (hinternal : refusal = .internal → ¬ world.store.Roomy) : request.Lands call now world := by
  refine Or.inl ⟨refusal, ?_, ?_, hinternal⟩
  · rw [hreply]
    exact hconclusion
  · rw [hreply]

theorem lands_of_done (owed : Bool) {value : request.Answer} {after : RecordStore}
    (hreply : RecordStore.answer now call world.store = (reply, after))
    (hconclusion : request.conclusion call reply = .ok value)
    (hdone : request.operation.exec (RecordStore.answer now) world =
      (.ok value, { world with store := after, owed := owed })) : request.Lands call now world := by
  have hrun : request.procedure.run (RecordStore.answer now) world =
      (.ok value, { world with store := after, owed := owed }) := hdone
  refine Or.inr ⟨value, ?_, ?_, ?_⟩
  · rw [hreply]
    exact hconclusion
  · rw [hrun]
  · rw [hrun, hreply]

end Request

namespace Operation

variable {now : Int} {world : World RecordStore}

theorem refusal_ne_internal_of_conflict {name : String} {fault : Fault} (h : fault.kind = .conflict) :
    fault.refusal (nameConflict name) ≠ .internal := by
  simp [Fault.refusal, nameConflict, h]

theorem refusal_ne_internal_of_versionConflict {id : Nat} {tag : String} {fault : Fault}
    (h : fault.kind = .conflict ∨ fault.kind = .invalid) :
    fault.refusal (versionConflict id tag) ≠ .internal := by
  rcases h with h | h
  · simp [Fault.refusal, versionConflict, h]
  · simp [Fault.refusal, versionConflict, h]

theorem lands_createService {name : String} (hblank : ¬ Text.blank name = true)
    (hstore : world.store.Consistent) (description : String) :
    Request.Lands (.createService name description) (.insertService name description) now world := by
  obtain ⟨fault, hreply, hwhy⟩ | ⟨s, after, hreply, hfree⟩ :=
    hstore.insertService_lands now name description
  · refine Request.lands_of_refused hreply rfl fun hinternal => ?_
    rcases hwhy with hkind | hfull
    · exact absurd hinternal (refusal_ne_internal_of_conflict hkind)
    · exact hfull
  · refine Request.lands_of_done true hreply rfl ?_
    refine (exec_bind_ok (exec_checkNotBlank hblank)).trans ?_
    refine (exec_bind_ok (exec_checkNameFree_free hfree)).trans ?_
    refine (exec_bind_ok (exec_callOr hreply)).trans ?_
    exact (exec_bind_ok exec_markOwed).trans (exec_pure _)

theorem lands_updateService {name : String} (hblank : ¬ Text.blank name = true)
    (hstore : world.store.Consistent) (id : Nat) (description : String) :
    Request.Lands (.updateService id name description) (.updateService id name description) now
      world := by
  obtain ⟨fault, hreply, hkind⟩ | hreply | ⟨s, after, before, hreply, hfound, hfree⟩ :=
    hstore.updateService_lands now id name description
  · exact Request.lands_of_refused hreply rfl fun hinternal =>
      absurd hinternal (refusal_ne_internal_of_conflict hkind)
  · exact Request.lands_of_refused hreply rfl nofun
  · refine Request.lands_of_done true hreply rfl ?_
    refine (exec_bind_ok (exec_checkNotBlank hblank)).trans ?_
    refine (exec_bind_ok (exec_checkService_found hfound)).trans ?_
    refine (exec_bind_ok (exec_checkNameFree_free hfree)).trans ?_
    refine (exec_bind_ok (exec_callOr hreply)).trans ?_
    refine (exec_bind_ok exec_require_some).trans ?_
    exact (exec_bind_ok exec_markOwed).trans (exec_pure _)

theorem lands_deleteService (hstore : world.store.Consistent) (id : Nat) :
    Request.Lands (.deleteService id) (.deleteService id) now world := by
  obtain hreply | ⟨after, before, hreply, hfound⟩ := hstore.deleteService_lands now id
  · exact Request.lands_of_refused hreply rfl nofun
  · refine Request.lands_of_done true hreply rfl ?_
    refine (exec_bind_ok (exec_checkService_found hfound)).trans ?_
    refine (exec_bind_ok (exec_callOr hreply)).trans ?_
    exact (exec_bind_ok (exec_check_true rfl)).trans exec_markOwed

theorem lands_createVersion {tag : String} (hblank : ¬ Text.blank tag = true)
    (hstore : world.store.Consistent) (id : Nat) (info : String) :
    Request.Lands (.createVersion id tag info) (.insertVersion id tag info) now world := by
  obtain ⟨fault, hreply, hwhy⟩ | ⟨v, after, owner, hreply, hfound, hfree⟩ :=
    hstore.insertVersion_lands now id tag info
  · refine Request.lands_of_refused hreply rfl fun hinternal => ?_
    rcases hwhy with hkind | hkind | hfull
    · exact absurd hinternal (refusal_ne_internal_of_versionConflict (Or.inl hkind))
    · exact absurd hinternal (refusal_ne_internal_of_versionConflict (Or.inr hkind))
    · exact hfull
  · refine Request.lands_of_done true hreply rfl ?_
    refine (exec_bind_ok (exec_checkNotBlank hblank)).trans ?_
    refine (exec_bind_ok (exec_checkService_found hfound)).trans ?_
    refine (exec_bind_ok (exec_versionExists_found hfree)).trans ?_
    refine (exec_bind_ok (exec_check_true rfl)).trans ?_
    refine (exec_bind_ok (exec_callOr hreply)).trans ?_
    exact (exec_bind_ok exec_markOwed).trans (exec_pure _)

theorem lands_updateVersion (hstore : world.store.Consistent) (id : Nat) (tag info : String) :
    Request.Lands (.updateVersion id tag info) (.updateVersion id tag info) now world := by
  obtain hreply | ⟨v, after, before, hreply, hfound⟩ :=
    hstore.updateVersion_lands now id tag info
  · exact Request.lands_of_refused hreply rfl nofun
  · refine Request.lands_of_done world.owed hreply rfl ?_
    refine (exec_bind_ok (exec_checkVersion_found hfound)).trans ?_
    exact (exec_bind_ok (exec_callOr hreply)).trans exec_require_some

theorem lands_deleteVersion (hstore : world.store.Consistent) (id : Nat) (tag : String) :
    Request.Lands (.deleteVersion id tag) (.deleteVersion id tag) now world := by
  obtain hreply | ⟨after, before, hreply, hfound⟩ := hstore.deleteVersion_lands now id tag
  · exact Request.lands_of_refused hreply rfl nofun
  · refine Request.lands_of_done true hreply rfl ?_
    refine (exec_bind_ok (exec_checkVersion_found hfound)).trans ?_
    refine (exec_bind_ok (exec_callOr hreply)).trans ?_
    exact (exec_bind_ok (exec_check_true rfl)).trans exec_markOwed

end Operation

open Operation in
theorem Request.lands {request : Request} {call : Call} {now : Int} {world : World RecordStore}
    (h : request.Intends call) (hstore : world.store.Consistent) : request.Lands call now world := by
  cases request with
  | createService name description =>
    obtain ⟨rfl, hblank⟩ := h
    exact lands_createService hblank hstore description
  | updateService id name description =>
    obtain ⟨rfl, hblank⟩ := h
    exact lands_updateService hblank hstore id description
  | deleteService id =>
    obtain rfl := h
    exact lands_deleteService hstore id
  | createVersion id tag info =>
    obtain ⟨rfl, hblank⟩ := h
    exact lands_createVersion hblank hstore id info
  | updateVersion id tag info =>
    obtain rfl := h
    exact lands_updateVersion hstore id tag info
  | deleteVersion id tag =>
    obtain rfl := h
    exact lands_deleteVersion hstore id tag
  | _ => cases h

end ServiceRegistry
