import ServiceRegistry.Operation

/-!
# Executing operations

What an operation does from start to end over a store, part by part: each part ends with a value, and
the next part goes on from there, or with a refusal, which ends the whole.
-/

namespace ServiceRegistry.Operation

variable {σ α β : Type} {backend : Backend σ} {world : World σ}

/-- The result of an operation, and the world after it. -/
def exec (backend : Backend σ) (operation : Operation α) (world : World σ) :
    Except Refusal α × World σ :=
  operation.run.run backend world

theorem exec_pure (value : α) : exec backend (pure value) world = (.ok value, world) := rfl

theorem exec_markOwed :
    exec backend (liftM Procedure.markOwed : Operation Unit) world =
      (.ok (), { world with owed := true }) := rfl

theorem exec_bind (operation : Operation α) (next : α → Operation β) :
    exec backend (operation >>= next) world =
      match exec backend operation world with
      | (.ok value, world) => exec backend (next value) world
      | (.error refusal, world) => (.error refusal, world) := by
  unfold exec
  rw [ExceptT.run_bind, Procedure.run_bind]
  cases operation.run.run backend world with
  | mk result after =>
    cases result with
    | ok value => rfl
    | error refusal => rfl

/-- After a part that ends with a value the operation goes on from there. -/
theorem exec_bind_ok {operation : Operation α} {next : α → Operation β} {value : α}
    {middle : World σ} (h : exec backend operation world = (.ok value, middle)) :
    exec backend (operation >>= next) world = exec backend (next value) middle := by
  rw [exec_bind, h]

/-- A part that ends with a refusal ends the operation. -/
theorem exec_bind_error {operation : Operation α} {next : α → Operation β} {refusal : Refusal}
    {middle : World σ} (h : exec backend operation world = (.error refusal, middle)) :
    exec backend (operation >>= next) world = (.error refusal, middle) := by
  rw [exec_bind, h]

theorem exec_check_true {condition : Bool} {refusal : Refusal} (h : condition = true) :
    exec backend (check condition refusal) world = (.ok (), world) := by
  rw [h]
  rfl

theorem exec_check_false {condition : Bool} {refusal : Refusal} (h : condition = false) :
    exec backend (check condition refusal) world = (.error refusal, world) := by
  rw [h]
  rfl

theorem exec_require_some {value : α} {refusal : Refusal} :
    exec backend (require (some value) refusal) world = (.ok value, world) := rfl

/-- A call that the store answers. -/
theorem exec_callOr {operation : String} {call : Call} {refusal? : Fault.Kind → Option Refusal}
    {answer : call.Answer} {store : σ} (h : backend call world.store = (.ok answer, store)) :
    exec backend (callOr operation call refusal?) world =
      (.ok answer, { world with store := store }) := by
  have hcall : exec backend (liftM (Procedure.call call) : Operation (Reply call.method)) world =
      (.ok (.ok answer), { world with store := store }) := by
    change (Except.ok (backend call world.store).1,
      { world with store := (backend call world.store).2 }) = _
    rw [h]
  exact exec_bind_ok hcall

/-! ## Checks -/

theorem exec_checkNotBlank_blank {what text : String} (h : Text.blank text = true) :
    exec backend (checkNotBlank what text) world =
      (.error (.invalidInput (what ++ " is empty")), world) :=
  exec_check_false (h ▸ rfl)

theorem exec_checkNotBlank {what text : String} (h : ¬ Text.blank text = true) :
    exec backend (checkNotBlank what text) world = (.ok (), world) :=
  exec_check_true (eq_false_of_ne_true h ▸ rfl)

theorem exec_checkService_found {id : Nat} {s : Service}
    (h : backend (.getService id) world.store = (.ok (some s), world.store)) :
    exec backend (checkService id) world = (.ok (), world) :=
  (exec_bind_ok (exec_bind_ok (exec_callOr h))).trans (exec_check_true rfl)

theorem exec_versionExists_found {id : Nat} {tag : String} {found : Option Version}
    (h : backend (.getVersion id tag) world.store = (.ok found, world.store)) :
    exec backend (versionExists id tag) world = (.ok found.isSome, world) :=
  exec_bind_ok (exec_callOr h)

theorem exec_checkVersion_found {id : Nat} {tag : String} {v : Version}
    (h : backend (.getVersion id tag) world.store = (.ok (some v), world.store)) :
    exec backend (checkVersion id tag) world = (.ok (), world) :=
  (exec_bind_ok (exec_versionExists_found h)).trans (exec_check_true rfl)

theorem exec_checkNameFree_free {operation name : String} {excluding : Option Nat}
    (h : backend (.countServicesNamed name excluding) world.store = (.ok 0, world.store)) :
    exec backend (checkNameFree operation name excluding) world = (.ok (), world) :=
  (exec_bind_ok (exec_callOr h)).trans (exec_check_true rfl)

/-! ## Pages -/

section

variable {request : PageRequest} {total : Nat} {scan : ScanRange → Operation (List α)}

theorem exec_fetchPage_empty (h : (request.window total).isEmpty = true) :
    exec backend (fetchPage request total scan) world =
      (.ok ⟨[], total, request.pageSize, request.currentPage⟩, world) := by
  unfold fetchPage
  dsimp only
  rw [if_pos h]
  refine (exec_bind_ok (exec_pure [])).trans ?_
  rw [PageWindow.present_nil]
  exact exec_pure _

theorem exec_fetchPage_ok (h : (request.window total).isEmpty = false) {rows : List α}
    (hscan : exec backend (scan (request.window total).scanRange) world = (.ok rows, world)) :
    exec backend (fetchPage request total scan) world =
      (.ok ⟨(request.window total).present rows, total, request.pageSize, request.currentPage⟩,
        world) := by
  unfold fetchPage
  dsimp only
  rw [if_neg (ne_true_of_eq_false h)]
  exact (exec_bind_ok hscan).trans (exec_pure _)

theorem exec_fetchPage_error (h : (request.window total).isEmpty = false) {refusal : Refusal}
    {after : World σ}
    (hscan : exec backend (scan (request.window total).scanRange) world = (.error refusal, after)) :
    exec backend (fetchPage request total scan) world = (.error refusal, after) := by
  unfold fetchPage
  dsimp only
  rw [if_neg (ne_true_of_eq_false h)]
  exact exec_bind_error hscan

end

/-- A page over a source that is scanned as it is counted. -/
theorem exec_fetchPage (request : PageRequest) (rows : List α) {scan : ScanRange → Operation (List α)}
    (hscan : ∀ range, exec backend (scan range) world = (.ok (range.pick rows), world)) :
    exec backend (fetchPage request rows.length scan) world =
      (.ok ⟨(request.window rows.length).rows rows, rows.length, request.pageSize,
        request.currentPage⟩, world) := by
  cases hempty : (request.window rows.length).isEmpty with
  | true =>
    rw [PageWindow.rows_of_isEmpty hempty]
    exact exec_fetchPage_empty hempty
  | false =>
    rw [PageWindow.rows_of_not_isEmpty hempty]
    exact exec_fetchPage_ok hempty (hscan _)

end ServiceRegistry.Operation
