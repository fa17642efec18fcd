import ServiceRegistry.Proofs.Procedure.Execution

/-!
# Operations over any store

A store is known only by its answers, and nothing is asked of them here: any call may be answered
with anything, or with a fault, and differently the next time.  What an operation does with the
answers follows from how it is put together, from calls, refusals and at most one mark that nothing
comes after.

* `Operation.Built` says how operations are put together, and `Request.built` that the twelve are.
* `Operation.Built.account` and `Operation.Built.reworded` are what follows, by induction on it.
* `Request.sound_over_any_store` puts it together: a failure of the store is recorded once and ends
  the operation, a mark is made if and only if a write has succeeded, and texts decide nothing.
-/

namespace ServiceRegistry

variable {σ α β : Type}

/-! ## What is said between an operation and its store -/

/-- A call with the reply to it. -/
structure RepliedCall where
  call : Call
  reply : Reply call.method

def RepliedCall.fault? (exchange : RepliedCall) : Option Fault :=
  match exchange.reply with
  | .ok _ => none
  | .error fault => some fault

def Act.exchange? : (act : Act) → act.Response → Option RepliedCall
  | .call c, reply => some ⟨c, reply⟩
  | _, _ => none

/-- The calls that a procedure makes when it is run from start to end, and the replies. -/
def Procedure.exchanges (backend : Backend σ) : Procedure α → World σ → List RepliedCall
  | done _, _ => []
  | act a next, world =>
    let (response, after) := world.perform backend a
    (a.exchange? response).toList ++ (next response).exchanges backend after

theorem Procedure.exchanges_bind (backend : Backend σ) (p : Procedure α) (q : α → Procedure β)
    (world : World σ) :
    (p >>= q).exchanges backend world = p.exchanges backend world ++
      (q (p.run backend world).1).exchanges backend (p.run backend world).2 := by
  induction p generalizing world with
  | done value => rfl
  | act a next ih =>
    calc ((act a next) >>= q).exchanges backend world
      _ = (a.exchange? (world.perform backend a).1).toList ++
          ((next (world.perform backend a).1) >>= q).exchanges backend
            (world.perform backend a).2 := rfl
      _ = _ := by
        rw [ih, ← List.append_assoc]
        rfl

/-- The same store with other texts in its faults. -/
def Backend.reworded (reword : Call → σ → String → String) (backend : Backend σ) : Backend σ :=
  fun call store =>
    let (reply, after) := backend call store
    (reply.mapError fun fault => { fault with detail := reword call store fault.detail }, after)

namespace Operation

def exchanges (backend : Backend σ) (operation : Operation α) (world : World σ) : List RepliedCall :=
  operation.run.exchanges backend world

section

variable {backend : Backend σ} {world middle : World σ} {operation : Operation α}
  {next : α → Operation β}

theorem exchanges_bind_ok {value : α} (h : exec backend operation world = (.ok value, middle)) :
    exchanges backend (operation >>= next) world =
      exchanges backend operation world ++ exchanges backend (next value) middle := by
  unfold exec at h
  unfold exchanges
  rw [ExceptT.run_bind, Procedure.exchanges_bind, h]

theorem exchanges_bind_error {refusal : Refusal}
    (h : exec backend operation world = (.error refusal, middle)) :
    exchanges backend (operation >>= next) world = exchanges backend operation world := by
  unfold exec at h
  unfold exchanges
  rw [ExceptT.run_bind, Procedure.exchanges_bind, h]
  exact List.append_nil _

end

section

variable {backend : Backend σ} {world : World σ} {name : String} {call : Call}
  {refusal? : Fault.Kind → Option Refusal}

theorem exec_call_reply {reply : Reply call.method} {store : σ}
    (h : backend call world.store = (reply, store)) :
    exec backend (liftM (Procedure.call call) : Operation (Reply call.method)) world =
      (.ok reply, { world with store := store }) := by
  change (Except.ok (backend call world.store).1,
    { world with store := (backend call world.store).2 }) = _
  rw [h]

/-- A fault that is a refusal. -/
theorem exec_callOr_refused {fault : Fault} {store : σ} {refusal : Refusal}
    (h : backend call world.store = (.error fault, store)) (hkind : refusal? fault.kind = some refusal) :
    exec backend (callOr name call refusal?) world =
      (.error refusal, { world with store := store }) := by
  refine (exec_bind_ok (exec_call_reply h)).trans ?_
  dsimp only
  rw [hkind]
  rfl

/-- A fault that is a failure. -/
theorem exec_callOr_failed {fault : Fault} {store : σ}
    (h : backend call world.store = (.error fault, store)) (hkind : refusal? fault.kind = none) :
    exec backend (callOr name call refusal?) world = (.error .internal,
      { world with store := store, events := world.events ++ [.storeFailure name fault.message] }) := by
  refine (exec_bind_ok (exec_call_reply h)).trans ?_
  dsimp only
  rw [hkind]
  rfl

theorem exchanges_callOr :
    exchanges backend (callOr name call refusal?) world =
      [⟨call, (backend call world.store).1⟩] := by
  refine (exchanges_bind_ok (exec_call_reply rfl)).trans ?_
  refine congrArg (_ :: ·) ?_
  cases (backend call world.store).1 with
  | ok answer => rfl
  | error fault =>
    dsimp only
    split <;> rfl

end

/-! ## How operations are put together -/

/-- An operation made of calls and of refusals that are not failures, with a mark at the end of every
path to a value, or with none at all. -/
inductive Built : {α : Type} → (marks : Bool) → Operation α → Prop
  | pure {α : Type} (value : α) : Built false (pure value : Operation α)
  | throw {α : Type} {marks : Bool} {refusal : Refusal} (h : refusal ≠ .internal) :
    Built marks (throw refusal : Operation α)
  | callOr {operation : String} {call : Call} {refusal? : Fault.Kind → Option Refusal}
    (h : ∀ kind, refusal? kind ≠ some .internal) : Built false (callOr operation call refusal?)
  | mark : Built true (liftM Procedure.markOwed : Operation Unit)
  | bind {α β : Type} {marks : Bool} {operation : Operation α} {next : α → Operation β}
    (first : Built false operation) (rest : ∀ value, Built marks (next value)) :
    Built marks (operation >>= next)
  /-- After the mark a value is returned. -/
  | close {α β : Type} {operation : Operation α} {value : α → β} (first : Built true operation) :
    Built true (operation >>= fun a => Pure.pure (value a))

theorem built_call (operation : String) (call : Call) : Built false (Operation.call operation call) :=
  .callOr fun _ => nofun

theorem built_require (value : Option α) {refusal : Refusal} (h : refusal ≠ .internal) :
    Built false (require value refusal) := by
  cases value with
  | none => exact .throw h
  | some value => exact .pure value

theorem built_check (condition : Bool) {refusal : Refusal} (h : refusal ≠ .internal) :
    Built false (check condition refusal) := by
  cases condition with
  | false => exact .throw h
  | true => exact .pure ()

theorem built_checkNotBlank (what text : String) : Built false (checkNotBlank what text) :=
  built_check _ nofun

theorem built_checkNameFree (operation name : String) (excluding : Option Nat) :
    Built false (checkNameFree operation name excluding) :=
  .bind (built_call _ _) fun _ => built_check _ nofun

theorem built_serviceExists (id : Nat) : Built false (serviceExists id) :=
  .bind (built_call _ _) fun _ => .pure _

theorem built_versionExists (id : Nat) (tag : String) : Built false (versionExists id tag) :=
  .bind (built_call _ _) fun _ => .pure _

theorem built_checkService (id : Nat) : Built false (checkService id) :=
  .bind (built_serviceExists id) fun _ => built_check _ nofun

theorem built_checkVersion (id : Nat) (tag : String) : Built false (checkVersion id tag) :=
  .bind (built_versionExists id tag) fun _ => built_check _ nofun

theorem built_fetchPage (request : PageRequest) (total : Nat) {scan : ScanRange → Operation (List α)}
    (hscan : ∀ range, Built false (scan range)) : Built false (fetchPage request total scan) := by
  unfold fetchPage
  dsimp only
  split
  · exact .bind (.pure _) fun _ => .pure _
  · exact .bind (hscan _) fun _ => .pure _

theorem nameConflict_ne_internal (name : String) (kind : Fault.Kind) :
    nameConflict name kind ≠ some .internal := by
  cases kind <;> nofun

theorem versionConflict_ne_internal (id : Nat) (tag : String) (kind : Fault.Kind) :
    versionConflict id tag kind ≠ some .internal := by
  cases kind <;> nofun

/-! ## How a run ends -/

/-- The replies to all calls were answers. -/
def AllAnswered (said : List RepliedCall) : Prop := ∀ exchange ∈ said, exchange.fault? = none

theorem AllAnswered.append {before said : List RepliedCall} (hbefore : AllAnswered before)
    (hsaid : AllAnswered said) : AllAnswered (before ++ said) :=
  fun exchange hmem => (List.mem_append.mp hmem).elim (hbefore exchange) (hsaid exchange)

/-- How the run of an operation may end, by what has been said: with a value, and marked if it
marks; refused, after the last reply; or failed, with the fault of the last reply recorded. -/
inductive Account (marks : Bool) (world : World σ) :
    List RepliedCall → Except Refusal α × World σ → Prop
  | ended {said : List RepliedCall} {value : α} {store : σ} (hsaid : AllAnswered said) :
    Account marks world said (.ok value, ⟨store, world.owed || marks, world.events⟩)
  | refused {said : List RepliedCall} {refusal : Refusal} {store : σ} (hrefusal : refusal ≠ .internal)
    (hsaid : AllAnswered said.dropLast) :
    Account marks world said (.error refusal, ⟨store, world.owed, world.events⟩)
  | failed {before : List RepliedCall} {call : Call} {fault : Fault} {operation : String} {store : σ}
    (hbefore : AllAnswered before) :
    Account marks world (before ++ [⟨call, .error fault⟩]) (.error .internal,
      ⟨store, world.owed, world.events ++ [.storeFailure operation fault.message]⟩)

namespace Account

variable {marks : Bool} {world : World σ}

/-- What comes after answers that have left everything but the store as it was. -/
theorem prepend {before said : List RepliedCall} {store : σ} {ending : Except Refusal α × World σ}
    (hbefore : AllAnswered before) (h : Account marks { world with store := store } said ending) :
    Account marks world (before ++ said) ending := by
  cases h with
  | ended hsaid => exact .ended (hbefore.append hsaid)
  | refused hrefusal hsaid =>
    refine .refused hrefusal ?_
    cases said with
    | nil => exact fun exchange hmem => hbefore exchange (List.dropLast_subset _ (by simpa using hmem))
    | cons first rest =>
      rw [List.dropLast_append_of_ne_nil (List.cons_ne_nil first rest)]
      exact hbefore.append hsaid
  | failed hrest =>
    rw [← List.append_assoc]
    exact .failed (hbefore.append hrest)

/-- An operation that ends with a refusal or a failure has not marked. -/
theorem of_error {said : List RepliedCall} {marked : Bool} {refusal : Refusal} {after : World σ}
    (h : Account marked world said ((.error refusal : Except Refusal α), after)) :
    Account marks world said ((.error refusal : Except Refusal β), after) := by
  cases h with
  | refused hrefusal hsaid => exact .refused hrefusal hsaid
  | failed hbefore => exact .failed hbefore

variable {backend : Backend σ} {operation : Operation α}

theorem bind {next : α → Operation β}
    (h : Account false world (exchanges backend operation world) (exec backend operation world))
    (hnext : ∀ value middle, Account marks middle (exchanges backend (next value) middle)
      (exec backend (next value) middle)) :
    Account marks world (exchanges backend (operation >>= next) world)
      (exec backend (operation >>= next) world) := by
  cases hfirst : exec backend operation world with
  | mk result middle =>
    rw [hfirst] at h
    cases result with
    | ok value =>
      rw [exchanges_bind_ok hfirst, exec_bind_ok hfirst]
      generalize exchanges backend operation world = before at h ⊢
      cases h with
      | ended hbefore =>
        rw [Bool.or_false] at hfirst ⊢
        exact (hnext value _).prepend hbefore
    | error refusal =>
      rw [exchanges_bind_error hfirst, exec_bind_error hfirst]
      exact h.of_error

/-- Returning a value changes nothing but the value. -/
theorem close {value : α → β}
    (h : Account marks world (exchanges backend operation world) (exec backend operation world)) :
    Account marks world (exchanges backend (operation >>= fun a => Pure.pure (value a)) world)
      (exec backend (operation >>= fun a => Pure.pure (value a)) world) := by
  cases hfirst : exec backend operation world with
  | mk result middle =>
    rw [hfirst] at h
    cases result with
    | ok a =>
      have hnothing : exchanges backend (Pure.pure (value a) : Operation β) middle = [] := rfl
      rw [exchanges_bind_ok hfirst, exec_bind_ok hfirst, hnothing, List.append_nil, exec_pure]
      generalize exchanges backend operation world = said at h ⊢
      cases h with
      | ended hsaid => exact .ended hsaid
    | error refusal =>
      rw [exchanges_bind_error hfirst, exec_bind_error hfirst]
      exact h.of_error

/-- A call ends with its answer, or with its fault, which is refused or else recorded. -/
theorem callOr {name : String} {call : Call} {refusal? : Fault.Kind → Option Refusal}
    (h : ∀ kind, refusal? kind ≠ some .internal) :
    Account false world (exchanges backend (Operation.callOr name call refusal?) world)
      (exec backend (Operation.callOr name call refusal?) world) := by
  rw [exchanges_callOr]
  cases hreply : backend call world.store with
  | mk reply store =>
    cases reply with
    | ok answer =>
      rw [exec_callOr hreply, ← Bool.or_false world.owed]
      refine .ended fun exchange hmem => ?_
      rw [List.mem_singleton.mp hmem]
      rfl
    | error fault =>
      cases hkind : refusal? fault.kind with
      | some refusal =>
        rw [exec_callOr_refused hreply hkind]
        exact .refused (fun hinternal => h _ (hinternal ▸ hkind)) nofun
      | none =>
        rw [exec_callOr_failed hreply hkind]
        have hnone : AllAnswered [] := nofun
        exact .failed hnone

section

variable {said : List RepliedCall} {result : Except Refusal α} {after : World σ}
  (h : Account marks world said (result, after))
include h

theorem internal_iff :
    result = .error .internal ↔ ∃ event, after.events = world.events ++ [event] := by
  cases h with
  | ended hsaid => simp
  | refused hrefusal hsaid => simp [hrefusal]
  | failed hbefore => simp

theorem events_eq (hresult : result ≠ .error .internal) : after.events = world.events := by
  cases h with
  | ended hsaid => rfl
  | refused hrefusal hsaid => rfl
  | failed hbefore => exact absurd rfl hresult

/-- What is recorded is the fault of the last reply. -/
theorem recorded {event : Event} (hevent : after.events = world.events ++ [event]) :
    ∃ operation call fault, said.getLast? = some ⟨call, .error fault⟩ ∧
      event = .storeFailure operation fault.message := by
  cases h with
  | ended hsaid => simp at hevent
  | refused hrefusal hsaid => simp at hevent
  | @failed before call fault operation store hbefore =>
    exact ⟨operation, call, fault, List.getLast?_concat,
      (List.singleton_inj.mp (List.append_cancel_left hevent)).symm⟩

theorem answered_before_last : AllAnswered said.dropLast := by
  cases h with
  | ended hsaid => exact fun exchange hmem => hsaid exchange (List.dropLast_subset _ hmem)
  | refused hrefusal hsaid => exact hsaid
  | failed hbefore =>
    rw [List.dropLast_concat]
    exact hbefore

theorem owed_eq : after.owed = (world.owed || (marks && result.isOk)) := by
  cases h with
  | ended hsaid => simp [Except.isOk, Except.toBool]
  | refused hrefusal hsaid => simp [Except.isOk, Except.toBool]
  | failed hbefore => simp [Except.isOk, Except.toBool]

end

end Account

/-- The account of an operation, by how it is put together. -/
theorem Built.account {marks : Bool} {operation : Operation α} (h : Built marks operation)
    (backend : Backend σ) (world : World σ) :
    Account marks world (exchanges backend operation world) (exec backend operation world) := by
  induction h generalizing world with
  | pure value =>
    have h : Account false world []
        (Except.ok value, ⟨world.store, world.owed || false, world.events⟩) := .ended nofun
    rwa [Bool.or_false] at h
  | throw hrefusal => exact .refused hrefusal nofun
  | callOr hrefusal => exact .callOr hrefusal
  | mark =>
    have h : Account true world []
        (Except.ok (), ⟨world.store, world.owed || true, world.events⟩) := .ended nofun
    rwa [Bool.or_true] at h
  | bind first rest ihfirst ihrest => exact (ihfirst world).bind fun value middle => ihrest value middle
  | close first ih => exact (ih world).close

/-- The same result, and the same store left behind. -/
def Alike (left right : Except Refusal α × World σ) : Prop :=
  left.1 = right.1 ∧ left.2.store = right.2.store

theorem Alike.bind {left right : Backend σ} {operation : Operation α} {next : α → Operation β}
    {world mirror : World σ} (h : Alike (exec left operation mirror) (exec right operation world))
    (hnext : ∀ value {world mirror : World σ}, mirror.store = world.store →
      Alike (exec left (next value) mirror) (exec right (next value) world)) :
    Alike (exec left (operation >>= next) mirror) (exec right (operation >>= next) world) := by
  rw [exec_bind, exec_bind]
  obtain ⟨hresult, hstore⟩ := h
  cases hleft : exec left operation mirror with
  | mk result mirror =>
    cases hright : exec right operation world with
    | mk same world =>
      rw [hleft, hright] at hresult hstore
      cases hresult
      cases result with
      | ok value => exact hnext value hstore
      | error refusal => exact ⟨rfl, hstore⟩

/-- Other texts in the faults of a store change neither how an operation ends nor its store. -/
theorem Built.reworded {marks : Bool} {operation : Operation α} (h : Built marks operation)
    (backend : Backend σ) (reword : Call → σ → String → String) {world mirror : World σ}
    (hstore : mirror.store = world.store) :
    Alike (exec (backend.reworded reword) operation mirror) (exec backend operation world) := by
  induction h generalizing world mirror with
  | pure value => exact ⟨rfl, hstore⟩
  | throw hrefusal => exact ⟨rfl, hstore⟩
  | mark => exact ⟨rfl, hstore⟩
  | @callOr name call refusal? hrefusal =>
    cases hreply : backend call world.store with
    | mk reply store =>
      have hmirror : backend.reworded reword call mirror.store = (reply.mapError fun fault =>
          { fault with detail := reword call world.store fault.detail }, store) := by
        rw [hstore, Backend.reworded, hreply]
      cases reply with
      | ok answer =>
        rw [exec_callOr hreply, exec_callOr hmirror]
        exact ⟨rfl, rfl⟩
      | error fault =>
        -- Only the kind of a fault is looked at, and it is the same.
        cases hkind : refusal? fault.kind with
        | some refusal =>
          rw [exec_callOr_refused hreply hkind, exec_callOr_refused hmirror hkind]
          exact ⟨rfl, rfl⟩
        | none =>
          rw [exec_callOr_failed hreply hkind, exec_callOr_failed hmirror hkind]
          exact ⟨rfl, rfl⟩
  | bind first rest ihfirst ihrest => exact (ihfirst hstore).bind fun value _ _ h => ihrest value h
  | close first ih => exact (ih hstore).bind fun _ _ _ h => ⟨rfl, h⟩

end Operation

namespace Request

/-- Whether the sorted view has to follow what a request does. -/
def marks : Request → Bool
  | .createService .. | .updateService .. | .deleteService _ | .createVersion ..
  | .deleteVersion .. => true
  | _ => false

open Operation in
/-- The twelve operations are put together as operations are. -/
theorem built (request : Request) : Built request.marks request.operation := by
  cases request with
  | serviceExists id => exact built_serviceExists id
  | versionExists id tag => exact built_versionExists id tag
  | getService id => exact .bind (built_call _ _) fun _ => built_require _ nofun
  | getVersion id tag => exact .bind (built_call _ _) fun _ => built_require _ nofun
  | createService name description =>
    refine .bind (built_checkNotBlank _ _) fun _ => .bind (built_checkNameFree _ _ _) fun _ =>
      .bind (.callOr (nameConflict_ne_internal name)) fun service => .close .mark
  | updateService id name description =>
    refine .bind (built_checkNotBlank _ _) fun _ => .bind (built_checkService id) fun _ =>
      .bind (built_checkNameFree _ _ _) fun _ =>
      .bind (.callOr (nameConflict_ne_internal name)) fun updated =>
      .bind (built_require updated nofun) fun service => .close .mark
  | deleteService id =>
    exact .bind (built_checkService id) fun _ => .bind (built_call _ _) fun _ =>
      .bind (built_check _ nofun) fun _ => .mark
  | createVersion id tag info =>
    refine .bind (built_checkNotBlank _ _) fun _ => .bind (built_checkService id) fun _ =>
      .bind (built_versionExists id tag) fun _ => .bind (built_check _ nofun) fun _ =>
      .bind (.callOr (versionConflict_ne_internal id tag)) fun version => .close .mark
  | updateVersion id tag info =>
    exact .bind (built_checkVersion id tag) fun _ => .bind (built_call _ _) fun _ =>
      built_require _ nofun
  | deleteVersion id tag =>
    exact .bind (built_checkVersion id tag) fun _ => .bind (built_call _ _) fun _ =>
      .bind (built_check _ nofun) fun _ => .mark
  | fetchServices request filter sort =>
    exact .bind (built_call _ _) fun total =>
      built_fetchPage request total fun _ => built_call _ _
  | fetchVersions id page size =>
    exact .bind (built_checkService id) fun _ => .bind (built_call _ _) fun total =>
      built_fetchPage _ total fun _ => built_call _ _

/-- The refusal of a blank name or tag. -/
def emptyInput? : Request → Option Refusal
  | .createService name _ | .updateService _ name _ =>
    if Text.blank name then some (.invalidInput "service name is empty") else none
  | .createVersion _ tag _ =>
    if Text.blank tag then some (.invalidInput "version tag is empty") else none
  | _ => none

theorem run_of_blank {what text : String} {next : Unit → Operation α} (h : Text.blank text = true) :
    (Operation.checkNotBlank what text >>= next : Operation α).run =
      .done (.error (.invalidInput (what ++ " is empty"))) := by
  rw [Operation.checkNotBlank, h]
  rfl

/-- A blank name or tag is refused before anything is done. -/
theorem procedure_of_emptyInput {request : Request} {refusal : Refusal}
    (h : request.emptyInput? = some refusal) : request.procedure = .done (.error refusal) := by
  cases request with
  | createService name _ | updateService _ name _ | createVersion _ name _ =>
    simp only [emptyInput?] at h
    split at h
    · rename_i hblank
      cases h
      exact run_of_blank hblank
    · cases h
  | _ => cases h

/-- Whatever a store answers, an operation fails if and only if it records one failure, and otherwise
records nothing; the failure has the text of the fault of the last call, and no call follows a fault.
A blank name or tag is refused without a call.  A refresh is owed after the operation if it was owed
before or the operation marks and has ended with a value.  Other texts in the faults change nothing
of the result. -/
theorem sound_over_any_store (backend : Backend σ) (request : Request) (world : World σ) :
    let result := (request.procedure.run backend world).1
    let after := (request.procedure.run backend world).2
    let said := request.procedure.exchanges backend world
    (result = .error .internal ↔ ∃ event, after.events = world.events ++ [event]) ∧
      (result ≠ .error .internal → after.events = world.events) ∧
      (∀ event, after.events = world.events ++ [event] → ∃ operation call fault,
        said.getLast? = some ⟨call, .error fault⟩ ∧
          event = .storeFailure operation fault.message) ∧
      (∀ exchange ∈ said.dropLast, exchange.fault? = none) ∧
      (∀ refusal, request.emptyInput? = some refusal →
        result = .error refusal ∧ after = world ∧ said = []) ∧
      after.owed = (world.owed || (request.marks && result.isOk)) ∧
      ∀ reword, (request.procedure.run (backend.reworded reword) world).1 = result := by
  intro result after said
  have haccount : Operation.Account request.marks world said (result, after) :=
    request.built.account backend world
  refine ⟨haccount.internal_iff, haccount.events_eq, fun _ => haccount.recorded,
    haccount.answered_before_last, fun refusal hempty => ?_, haccount.owed_eq, fun reword =>
    (request.built.reworded backend reword (Eq.refl world.store)).1⟩
  have hdone := procedure_of_emptyInput hempty
  refine ⟨?_, ?_, ?_⟩
  all_goals
    simp only [result, after, said, hdone]
    rfl

/-- A store that answers nothing. -/
def lostStore (fault : Fault) : Backend Unit := fun _ store => (.error fault, store)

/-- Over a store that answers nothing an update is a failure, found at its first call and under any
other text of the fault. -/
theorem sound_over_lost_store :
    let backend := lostStore ⟨.io, "gone"⟩
    let run := (Request.updateService 1 "a" "").procedure.run backend { store := () }
    run.1 = .error .internal ∧
      run.2.events = [.storeFailure "service_exists" "catalog store io error: gone"] ∧
      run.2.owed = false ∧
      ∀ reword, ((Request.updateService 1 "a" "").procedure.run (backend.reworded reword)
        { store := () }).1 = .error .internal := by
  intro backend run
  obtain ⟨hinternal, -, -, -, -, howed, hreworded⟩ :=
    sound_over_any_store backend (.updateService 1 "a" "") { store := () }
  exact ⟨hinternal.mpr ⟨_, rfl⟩, rfl, howed, hreworded⟩

end Request

end ServiceRegistry
