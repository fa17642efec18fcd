import ServiceRegistry.Proofs.Procedure.Discipline

/-!
# Quiet operations

Under a given discipline, some notes stay as good as they are whatever a reading operation does.  An
operation is quiet if it only makes acts that are allowed at such notes, and ends with such a note.
The checks that precede every write are quiet, and so are lookups and listings.

* `Discipline.Tolerant` is what a discipline has to provide: reads, marks and records are quiet acts.
* `Operation.keeps_bind_of_quiet` is the rule by which a quiet part is skipped.
-/

namespace ServiceRegistry

/-- Whether a call leaves the store as it is. -/
def Call.reads : Call → Bool
  | .countServices .. => true
  | .scanServices .. => true
  | .getService _ => true
  | .countServicesNamed .. => true
  | .getVersion .. => true
  | .countVersions _ => true
  | .scanVersions .. => true
  | _ => false

namespace Discipline

variable {γ : Type}

/-- At a note of the kind the act is allowed, and the note stays of the kind. -/
def Quiet (d : Discipline γ) (I : γ → Prop) (act : Act) : Prop :=
  ∀ note, I note → d.allows note act ∧ ∀ response, I (d.after note act response)

/-- Reads, marks and records are quiet. -/
structure Tolerant (d : Discipline γ) (I : γ → Prop) : Prop where
  call : ∀ call : Call, call.reads = true → d.Quiet I (.call call)
  mark : d.Quiet I .markOwed
  record : ∀ event, d.Quiet I (.record event)

end Discipline

namespace Operation

variable {γ α β : Type} {d : Discipline γ} {I : γ → Prop}

/-- From a note of the kind the operation keeps to the discipline and ends with a note of the kind,
whether with a value or with a refusal. -/
def Quiet (d : Discipline γ) (I : γ → Prop) (operation : Operation α) : Prop :=
  ∀ note, I note → Keeps d (fun _ note => I note) (fun _ note => I note) operation note

theorem quiet_pure (value : α) : Quiet d I (pure value) := fun _ h => keeps_pure h

/-- After a quiet part the operation goes on at a note of the kind. -/
theorem keeps_bind_of_quiet {Q : β → γ → Prop} {operation : Operation α} {next : α → Operation β}
    {note : γ} (h : Quiet d I operation) (hnote : I note)
    (hnext : ∀ value note, I note → Keeps d Q (fun _ note => I note) (next value) note) :
    Keeps d Q (fun _ note => I note) (operation >>= next) note :=
  keeps_bind ((h note hnote).imp hnext)

theorem quiet_bind {operation : Operation α} {next : α → Operation β} (h : Quiet d I operation)
    (hnext : ∀ value, Quiet d I (next value)) : Quiet d I (operation >>= next) :=
  fun _ hnote => keeps_bind_of_quiet h hnote hnext

theorem quiet_require (value : Option α) (refusal : Refusal) : Quiet d I (require value refusal) :=
  fun _ h => keeps_require (fun _ _ => h) fun _ => h

theorem quiet_check (condition : Bool) (refusal : Refusal) : Quiet d I (check condition refusal) :=
  fun _ h => keeps_check (fun _ => h) fun _ => h

section Tolerant

variable (ht : d.Tolerant I)
include ht

theorem quiet_mark : Quiet d I (liftM Procedure.markOwed : Operation Unit) :=
  fun note h => keeps_lift (ht.mark note h)

theorem quiet_fail (operation : String) (fault : Fault) :
    Quiet d I (fail operation fault : Operation α) := by
  intro note h
  obtain ⟨hallows, hafter⟩ := ht.record (.storeFailure operation fault.message) note h
  exact keeps_fail hallows (hafter ())

theorem quiet_callOr {operation : String} {call : Call} {refusal? : Fault.Kind → Option Refusal}
    (hcall : d.Quiet I (.call call)) : Quiet d I (callOr operation call refusal?) := by
  intro note h
  obtain ⟨hallows, hafter⟩ := hcall note h
  exact keeps_callOr hallows (fun answer => hafter (.ok answer)) (fun fault _ _ => hafter (.error fault))
    fun fault _ => quiet_fail ht operation fault _ (hafter (.error fault))

theorem quiet_read {operation : String} {call : Call} (h : call.reads = true) :
    Quiet d I (Operation.call operation call) :=
  quiet_callOr ht (ht.call call h)

theorem quiet_serviceExists (id : Nat) : Quiet d I (serviceExists id) :=
  quiet_bind (quiet_read ht rfl) fun _ => quiet_pure _

theorem quiet_versionExists (id : Nat) (tag : String) : Quiet d I (versionExists id tag) :=
  quiet_bind (quiet_read ht rfl) fun _ => quiet_pure _

theorem quiet_getService (id : Nat) : Quiet d I (getService id) :=
  quiet_bind (quiet_read ht rfl) fun _ => quiet_require _ _

theorem quiet_getVersion (id : Nat) (tag : String) : Quiet d I (getVersion id tag) :=
  quiet_bind (quiet_read ht rfl) fun _ => quiet_require _ _

theorem quiet_checkService (id : Nat) : Quiet d I (checkService id) :=
  quiet_bind (quiet_serviceExists ht id) fun _ => quiet_check _ _

theorem quiet_checkVersion (id : Nat) (tag : String) : Quiet d I (checkVersion id tag) :=
  quiet_bind (quiet_versionExists ht id tag) fun _ => quiet_check _ _

theorem quiet_checkNameFree (operation name : String) (excluding : Option Nat) :
    Quiet d I (checkNameFree operation name excluding) :=
  quiet_bind (quiet_read ht rfl) fun _ => quiet_check _ _

omit ht in
theorem quiet_fetchPage (request : PageRequest) (total : Nat) {scan : ScanRange → Operation (List α)}
    (hscan : ∀ range, Quiet d I (scan range)) : Quiet d I (fetchPage request total scan) := by
  unfold fetchPage
  dsimp only
  split
  · exact quiet_bind (quiet_pure _) fun _ => quiet_pure _
  · exact quiet_bind (hscan _) fun _ => quiet_pure _

theorem quiet_fetchServices (request : PageRequest) (filter : NameFilter) (sort : SortKey) :
    Quiet d I (fetchServices request filter sort) :=
  quiet_bind (quiet_read ht rfl) fun total =>
    quiet_fetchPage request total fun _ => quiet_read ht rfl

theorem quiet_fetchVersions (id page size : Nat) : Quiet d I (fetchVersions id page size) :=
  quiet_bind (quiet_checkService ht id) fun _ =>
    quiet_bind (quiet_read ht rfl) fun total => quiet_fetchPage _ total fun _ => quiet_read ht rfl

end Tolerant

end Operation

end ServiceRegistry
