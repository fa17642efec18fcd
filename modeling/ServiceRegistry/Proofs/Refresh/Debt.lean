import ServiceRegistry.Deployment
import ServiceRegistry.Proofs.Procedure.Quiet
import ServiceRegistry.Proofs.Storage.Frame
import ServiceRegistry.Refresh.Engine

/-!
# The debt of a refresh

Whoever changes the service table, or consumes the mark that a refresh is owed, owes a refresh until
the mark is set or a refresh has succeeded.  The discipline `debt` allows a procedure that owes
nothing but to refresh or to mark.

* `Request.repays`: every operation pays what it owes, on every path.
* `Refresh.repays_ifOwed`, `Refresh.Phase.repays_turn`: so does the refreshing side, also when the
  refresh fails.
-/

namespace ServiceRegistry

namespace Refresh

/-- The note says whether a refresh is owed by the procedure itself. -/
def debt : Discipline Bool where
  allows owing act :=
    match act with
    | .markOwed => True
    | .call .refreshView => True
    | _ => owing = false
  after owing act response :=
    match act, response with
    | .call .refreshView, .ok () => false
    | .call .refreshView, .error _ => owing
    | .call call, reply => call.changesTable reply
    | .markOwed, () => false
    | .consumeOwed, taken => taken
    | .record _, () => owing

theorem debt_after_call {owing : Bool} {call : Call} (hne : call ≠ .refreshView)
    (reply : Reply call.method) : debt.after owing (.call call) reply = call.changesTable reply := by
  cases call with
  | refreshView => exact absurd rfl hne
  | _ => rfl

theorem debt_of_allows {owing : Bool} {call : Call} (hne : call ≠ .refreshView)
    (h : debt.allows owing (.call call)) : owing = false := by
  cases call with
  | refreshView => exact absurd rfl hne
  | _ => exact h

theorem debt_after_fault {owing : Bool} {call : Call} (h : debt.allows owing (.call call))
    (fault : Fault) : debt.after owing (.call call) (.error fault) = owing := by
  by_cases hne : call = .refreshView
  · subst hne
    rfl
  · rw [debt_after_call hne, debt_of_allows hne h]
    cases call <;> rfl

theorem pays_of_allows {act : Act} (h : debt.allows true act) :
    act = .call .refreshView ∨ act = .markOwed := by
  cases act with
  | markOwed => exact Or.inr rfl
  | call call =>
    by_cases hne : call = .refreshView
    · exact Or.inl (hne ▸ rfl)
    · cases debt_of_allows hne h
  | consumeOwed => cases h
  | record event => cases h

/-- From owing nothing, the procedure ends owing nothing. -/
def Repays (p : Procedure α) : Prop :=
  p.Follows debt (fun _ owing => owing = false) false

def OfWriter : Act → Prop
  | .call .refreshView => False
  | .consumeOwed => False
  | _ => True

/-- The discipline of the writing side, which can only pay by setting the mark. -/
def writerDebt : Discipline Bool := debt.restrict OfWriter

theorem eq_markOwed_of_allows {act : Act} (h : writerDebt.allows true act) : act = .markOwed := by
  obtain ⟨hpays, hwriter⟩ := h
  rcases pays_of_allows hpays with rfl | rfl
  · cases hwriter
  · rfl

end Refresh

open Refresh

namespace Operation

variable {α : Type} {owing : Bool}

/-- Without a debt a writer may read, mark and record, and has no debt afterwards. -/
theorem writerDebt_tolerant : writerDebt.Tolerant fun owing => owing = false := by
  refine ⟨?_, ?_, ?_⟩
  · rintro call hreads owing rfl
    cases call with
    | refreshView => cases hreads
    | insertService name description => cases hreads
    | updateService id name description => cases hreads
    | deleteService id => cases hreads
    | insertVersion id tag info => cases hreads
    | updateVersion id tag info => cases hreads
    | deleteVersion id tag => cases hreads
    | _ => exact ⟨⟨rfl, trivial⟩, fun _ => rfl⟩
  · exact fun _ _ => ⟨⟨trivial, trivial⟩, fun _ => rfl⟩
  · exact fun _ _ hnone => ⟨⟨hnone, trivial⟩, fun _ => hnone⟩

def Settles (owing : Bool) (operation : Operation α) : Prop :=
  Keeps writerDebt (fun _ owing => owing = false) (fun _ owing => owing = false) operation owing

theorem settles_mark : Settles owing (liftM Procedure.markOwed : Operation Unit) :=
  keeps_lift ⟨⟨trivial, trivial⟩, fun _ => rfl⟩

theorem settles_markAndReturn (value : α) : Settles owing (do Procedure.markOwed; return value) :=
  keeps_bind (settles_mark.imp fun _ _ hnone => keeps_pure hnone)

/-- After a call its reply says whether there is a debt. -/
theorem settles_bind_callOr {operation : String} {call : Call}
    {refusal? : Fault.Kind → Option Refusal} {next : call.Answer → Operation α}
    (hne : call ≠ .refreshView)
    (hnext : ∀ answer, Settles (call.changesTable (.ok answer)) (next answer)) :
    Settles false (callOr operation call refusal? >>= next) := by
  have hallows : debt.allows false (.call call) := by cases call <;> trivial
  have hwriter : OfWriter (.call call) := by
    cases call with
    | refreshView => exact absurd rfl hne
    | _ => trivial
  have hanswer : ∀ answer, writerDebt.after false (.call call) (.ok answer) =
      call.changesTable (.ok answer) := fun _ => debt_after_call hne _
  have hfault : ∀ fault, writerDebt.after false (.call call) (.error fault) = false :=
    debt_after_fault hallows
  refine keeps_bind (keeps_callOr ⟨hallows, hwriter⟩ (fun answer => ?_)
    (fun fault _ _ => hfault fault) (fun fault _ => ?_))
  · rw [hanswer]
    exact hnext answer
  · rw [hfault]
    exact keeps_fail ⟨rfl, trivial⟩ rfl

theorem settles_createService (name description : String) :
    Settles false (createService name description) := by
  refine keeps_bind_of_quiet (quiet_check _ _) rfl fun _ owing hnone => ?_
  refine keeps_bind_of_quiet (quiet_checkNameFree writerDebt_tolerant _ _ _) hnone
    fun _ owing hnone => ?_
  subst hnone
  exact settles_bind_callOr nofun fun service => settles_markAndReturn service

theorem settles_updateService (id : Nat) (name description : String) :
    Settles false (updateService id name description) := by
  refine keeps_bind_of_quiet (quiet_check _ _) rfl fun _ owing hnone => ?_
  refine keeps_bind_of_quiet (quiet_checkService writerDebt_tolerant id) hnone fun _ owing hnone => ?_
  refine keeps_bind_of_quiet (quiet_checkNameFree writerDebt_tolerant _ _ _) hnone
    fun _ owing hnone => ?_
  subst hnone
  refine settles_bind_callOr nofun fun updated => ?_
  refine keeps_bind (keeps_require (fun service _ => settles_markAndReturn service) ?_)
  rintro rfl
  rfl

theorem settles_deleteService (id : Nat) : Settles false (deleteService id) := by
  refine keeps_bind_of_quiet (quiet_checkService writerDebt_tolerant id) rfl fun _ owing hnone => ?_
  subst hnone
  refine settles_bind_callOr nofun fun deleted => ?_
  refine keeps_bind (keeps_check (fun _ => settles_mark) ?_)
  rintro rfl
  rfl

theorem settles_createVersion (id : Nat) (tag info : String) :
    Settles false (createVersion id tag info) := by
  refine keeps_bind_of_quiet (quiet_check _ _) rfl fun _ owing hnone => ?_
  refine keeps_bind_of_quiet (quiet_checkService writerDebt_tolerant id) hnone fun _ owing hnone => ?_
  refine keeps_bind_of_quiet (quiet_versionExists writerDebt_tolerant id tag) hnone
    fun _ owing hnone => ?_
  refine keeps_bind_of_quiet (quiet_check _ _) hnone fun _ owing hnone => ?_
  subst hnone
  exact settles_bind_callOr nofun fun version => settles_markAndReturn version

theorem settles_updateVersion (id : Nat) (tag info : String) :
    Settles false (updateVersion id tag info) := by
  refine keeps_bind_of_quiet (quiet_checkVersion writerDebt_tolerant id tag) rfl
    fun _ owing hnone => ?_
  subst hnone
  refine settles_bind_callOr nofun fun updated => ?_
  exact quiet_require _ _ false rfl

theorem settles_deleteVersion (id : Nat) (tag : String) : Settles false (deleteVersion id tag) := by
  refine keeps_bind_of_quiet (quiet_checkVersion writerDebt_tolerant id tag) rfl
    fun _ owing hnone => ?_
  subst hnone
  refine settles_bind_callOr nofun fun deleted => ?_
  refine keeps_bind (keeps_check (fun _ => settles_mark) ?_)
  rintro rfl
  rfl

end Operation

open Operation

theorem Request.settles (request : Request) : Settles false request.operation := by
  cases request with
  | serviceExists id => exact quiet_serviceExists writerDebt_tolerant id false rfl
  | versionExists id tag => exact quiet_versionExists writerDebt_tolerant id tag false rfl
  | getService id => exact quiet_getService writerDebt_tolerant id false rfl
  | getVersion id tag => exact quiet_getVersion writerDebt_tolerant id tag false rfl
  | createService name description => exact settles_createService name description
  | updateService id name description => exact settles_updateService id name description
  | deleteService id => exact settles_deleteService id
  | createVersion id tag info => exact settles_createVersion id tag info
  | updateVersion id tag info => exact settles_updateVersion id tag info
  | deleteVersion id tag => exact settles_deleteVersion id tag
  | fetchServices request filter sort =>
    exact quiet_fetchServices writerDebt_tolerant request filter sort false rfl
  | fetchVersions id page size => exact quiet_fetchVersions writerDebt_tolerant id page size false rfl

theorem Request.follows_writerDebt (request : Request) :
    request.procedure.Follows writerDebt (fun _ owing => owing = false) false :=
  request.settles.mono fun result owing h => by cases result <;> exact h

theorem Request.repays (request : Request) : Repays request.procedure :=
  request.follows_writerDebt.of_restrict

/-! ## The refreshing side -/

namespace Refresh

variable {α β : Type} {owing : Bool}

/-- From a debt or from none, a refresh for a consumed mark ends without one. -/
theorem follows_settle : settle.Follows debt (fun _ owing => owing = false) owing := by
  refine ⟨trivial, fun reply => ?_⟩
  cases reply with
  | ok _ => exact ⟨rfl, fun _ => rfl⟩
  | error fault => exact ⟨trivial, fun _ => ⟨rfl, fun _ => rfl⟩⟩

theorem repays_ifOwed : Repays ifOwed := by
  refine ⟨rfl, fun taken => ?_⟩
  cases taken with
  | false => rfl
  | true =>
    change ((fun result => result.map fun () => true) <$> settle).Follows debt _ true
    exact Procedure.follows_bind (follows_settle.mono fun _ _ h => h)

theorem Repays.map {p : Procedure α} (h : Repays p) (f : α → β) : Repays (f <$> p) :=
  Procedure.follows_bind (h.mono fun _ _ hlast => hlast)

namespace Phase

/-- A turn of the engine: a step, and where this consumes the mark, the refresh for it. -/
def turn (plan : Plan) (now : Nat) (stop : Bool) (phase : Phase) : Procedure Phase := do
  match ← phase.step plan now stop with
  | settling timers => (settling timers).step plan now stop
  | next => return next

/-- After a step the engine owes a refresh only where it is about to make it. -/
theorem follows_step (plan : Plan) (now : Nat) (stop : Bool) (phase : Phase) :
    (phase.step plan now stop).Follows debt
      (fun next owing => owing = true → ∃ timers, next = settling timers) false := by
  have hnone : ∀ next : Phase, false = true → ∃ timers, next = settling timers := nofun
  unfold step
  split
  · cases phase with
    | attempting purpose attempt =>
      simp only [proceed]
      split
      · exact ⟨rfl, fun _ => hnone _⟩
      · exact hnone _
    | refreshing purpose attempt =>
      refine ⟨trivial, fun reply => ?_⟩
      cases reply <;> exact ⟨rfl, fun _ => hnone _⟩
    | pausing purpose attempt fault until_ =>
      simp only [proceed]
      split
      · exact hnone _
      · split
        · exact ⟨rfl, fun _ => hnone _⟩
        · exact ⟨rfl, fun _ => hnone _⟩
    | waiting timers =>
      simp only [proceed]
      split
      · exact hnone _
      · split
        · exact hnone _
        · refine ⟨rfl, fun taken => ?_⟩
          cases taken with
          | false => exact hnone _
          | true => exact fun _ => ⟨_, rfl⟩
    | settling timers =>
      refine Procedure.follows_bind (follows_settle.mono fun _ owing h => ?_)
      subst h
      exact hnone _
    | ended result => exact hnone _
  · exact hnone _

theorem repays_turn (plan : Plan) (now : Nat) (stop : Bool) (phase : Phase) :
    Repays (phase.turn plan now stop) := by
  refine Procedure.follows_bind ((follows_step plan now stop phase).mono fun next owing h => ?_)
  cases next with
  | settling timers =>
    have hsettle : ((settling timers).proceed plan now stop).Follows debt
        (fun _ owing => owing = false) owing :=
      Procedure.follows_bind follows_settle
    exact hsettle
  | _ =>
    cases owing with
    | false => rfl
    | true => obtain ⟨_, hnext⟩ := h rfl; cases hnext

end Phase

end Refresh

theorem Deployment.repays_flush : Repays Deployment.flush :=
  repays_ifOwed.map _

end ServiceRegistry
