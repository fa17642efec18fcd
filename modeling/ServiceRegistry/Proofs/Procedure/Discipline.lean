import ServiceRegistry.Operation

/-!
# Disciplines on procedures

A discipline says what a procedure may do next.  It keeps a note, which every act and the response
to it change, and allows an act or not by what the note says.  `Procedure.Follows` says that a
procedure keeps to a discipline whatever it is answered, and that its value and the last note stand
in a given relation.

* `Procedure.Follows.run`: what every allowed act preserves of note and world is preserved by a run
  from start to end.
* `Procedure.Follows.step`: the same for one act of a procedure that is interleaved with others.
* `Procedure.Follows.lockstep`: two backends that respond alike to allowed acts cannot be told apart.
* `Operation.Keeps` is the form for operations, which end with a value or a refusal; its rules
  follow the ways in which operations are put together.
-/

namespace ServiceRegistry

/-- What procedures may do next, by a note of what they have done. -/
structure Discipline (γ : Type) where
  allows : γ → Act → Prop
  after : γ → (act : Act) → act.Response → γ

def Discipline.restrict {γ : Type} (d : Discipline γ) (kinds : Act → Prop) : Discipline γ :=
  { d with allows := fun note act => d.allows note act ∧ kinds act }

namespace Procedure

variable {γ α β σ : Type} {d : Discipline γ}

/-- The procedure keeps to the discipline, and ends with a value and a note related by `Q`. -/
def Follows (d : Discipline γ) (Q : α → γ → Prop) : Procedure α → γ → Prop
  | done value, note => Q value note
  | act a next, note => d.allows note a ∧ ∀ response, (next response).Follows d Q (d.after note a response)

theorem Follows.mono {Q R : α → γ → Prop} {p : Procedure α} {note : γ} (h : p.Follows d Q note)
    (hQR : ∀ value note, Q value note → R value note) : p.Follows d R note := by
  induction p generalizing note with
  | done value => exact hQR value note h
  | act a next ih => exact ⟨h.1, fun response => ih response (h.2 response)⟩

theorem Follows.of_restrict {kinds : Act → Prop} {Q : α → γ → Prop} {p : Procedure α} {note : γ}
    (h : p.Follows (d.restrict kinds) Q note) : p.Follows d Q note := by
  induction p generalizing note with
  | done value => exact h
  | act a next ih => exact ⟨h.1.1, fun response => ih response (h.2 response)⟩

theorem follows_bind {Q : β → γ → Prop} {p : Procedure α} {q : α → Procedure β} {note : γ}
    (h : p.Follows d (fun value note => (q value).Follows d Q note) note) :
    (p >>= q).Follows d Q note := by
  induction p generalizing note with
  | done value => exact h
  | act a next ih => exact ⟨h.1, fun response => ih response (h.2 response)⟩

/-- One act: the procedure after it, and the world. -/
def advance (backend : Backend σ) : Procedure α → World σ → Procedure α × World σ
  | done value, world => (done value, world)
  | act a next, world =>
    let (response, world) := world.perform backend a
    (next response, world)

def noteAfter (d : Discipline γ) (backend : Backend σ) : Procedure α → World σ → γ → γ
  | done _, _, note => note
  | act a _, world, note => d.after note a (world.perform backend a).1

section Preservation

variable {backend : Backend σ} {I : γ → World σ → Prop}

theorem Follows.step {Q : α → γ → Prop} {p : Procedure α} {note : γ} {world : World σ}
    (h : p.Follows d Q note) :
    (p.advance backend world).1.Follows d Q (p.noteAfter d backend world note) := by
  cases p with
  | done value => exact h
  | act a next => exact h.2 _

/-- What every allowed act preserves holds after a run. -/
theorem Follows.run {Q : α → γ → Prop} {p : Procedure α} {note : γ} {world : World σ}
    (hstep : ∀ note world a, d.allows note a → I note world →
      I (d.after note a (world.perform backend a).1) (world.perform backend a).2)
    (h : p.Follows d Q note) (hI : I note world) :
    ∃ last, Q (p.run backend world).1 last ∧ I last (p.run backend world).2 := by
  induction p generalizing note world with
  | done value => exact ⟨note, h, hI⟩
  | act a next ih => exact ih _ (h.2 _) (hstep note world a h.1 hI)

end Preservation

/-- Over two backends that respond alike to every allowed act, a procedure has one value. -/
theorem Follows.lockstep {τ : Type} {left : Backend σ} {right : Backend τ}
    {J : γ → World σ → World τ → Prop} {Q : α → γ → Prop} {p : Procedure α} {note : γ}
    {world : World σ} {mirror : World τ}
    (hstep : ∀ note world mirror a, d.allows note a → J note world mirror →
      (world.perform left a).1 = (mirror.perform right a).1 ∧
      J (d.after note a (world.perform left a).1) (world.perform left a).2 (mirror.perform right a).2)
    (h : p.Follows d Q note) (hJ : J note world mirror) :
    ∃ last, (p.run left world).1 = (p.run right mirror).1 ∧ Q (p.run left world).1 last ∧
      J last (p.run left world).2 (p.run right mirror).2 := by
  induction p generalizing note world mirror with
  | done value => exact ⟨note, rfl, h, hJ⟩
  | act a next ih =>
    obtain ⟨hsame, hafter⟩ := hstep note world mirror a h.1 hJ
    obtain ⟨last, hvalue, hlast⟩ := ih (world.perform left a).1 (h.2 _) hafter
    rw [hsame] at hvalue hlast
    refine ⟨last, ?_, ?_⟩
    · change ((next (world.perform left a).1).run left _).1 = _
      rw [hsame]
      exact hvalue
    · change Q ((next (world.perform left a).1).run left _).1 last ∧
        J last ((next (world.perform left a).1).run left _).2 _
      rw [hsame]
      exact hlast

end Procedure

namespace Operation

variable {γ α β : Type} {d : Discipline γ}

/-- The operation keeps to the discipline; it ends with a value and a note related by `Q`, or with a
refusal and a note related by `R`. -/
def Keeps (d : Discipline γ) (Q : α → γ → Prop) (R : Refusal → γ → Prop) (operation : Operation α)
    (note : γ) : Prop :=
  Procedure.Follows d (fun result note => Except.casesOn result (R · note) (Q · note)) operation.run note

variable {Q : α → γ → Prop} {R : Refusal → γ → Prop} {note : γ}

theorem Keeps.imp {Q' : α → γ → Prop} {operation : Operation α} (h : Keeps d Q R operation note)
    (hQ : ∀ value note, Q value note → Q' value note) : Keeps d Q' R operation note := by
  refine Procedure.Follows.mono h fun result last hr => ?_
  cases result with
  | ok value => exact hQ value last hr
  | error refusal => exact hr

theorem keeps_pure {value : α} (h : Q value note) : Keeps d Q R (pure value) note := h

theorem keeps_throw {refusal : Refusal} (h : R refusal note) :
    Keeps d Q R (throw refusal) note := h

theorem keeps_bind {Q : β → γ → Prop} {operation : Operation α} {next : α → Operation β}
    (h : Keeps d (fun value note => Keeps d Q R (next value) note) R operation note) :
    Keeps d Q R (operation >>= next) note := by
  unfold Keeps at h ⊢
  rw [ExceptT.run_bind]
  refine Procedure.follows_bind (h.mono fun result last hr => ?_)
  cases result with
  | ok value => exact hr
  | error refusal => exact hr

theorem keeps_lift {p : Procedure α} (h : p.Follows d Q note) :
    Keeps d Q R (liftM p : Operation α) note :=
  Procedure.follows_bind (h.mono fun _ _ hq => hq)

theorem keeps_require {value : Option α} {refusal : Refusal}
    (hsome : ∀ a, value = some a → Q a note) (hnone : value = none → R refusal note) :
    Keeps d Q R (require value refusal) note := by
  cases value with
  | none => exact keeps_throw (hnone rfl)
  | some a => exact keeps_pure (hsome a rfl)

theorem keeps_check {Q : Unit → γ → Prop} {condition : Bool} {refusal : Refusal}
    (htrue : condition = true → Q () note) (hfalse : condition = false → R refusal note) :
    Keeps d Q R (check condition refusal) note := by
  cases condition with
  | false => exact keeps_throw (hfalse rfl)
  | true => exact keeps_pure (htrue rfl)

/-- The rule for a call: its answer, the faults that are refusals, and all other faults, which are
recorded before the operation is refused. -/
theorem keeps_callOr {operation : String} {call : Call} {refusal? : Fault.Kind → Option Refusal}
    {Q : call.Answer → γ → Prop} (hallows : d.allows note (.call call))
    (hok : ∀ answer, Q answer (d.after note (.call call) (.ok answer)))
    (hrefused : ∀ fault refusal, refusal? fault.kind = some refusal →
      R refusal (d.after note (.call call) (.error fault)))
    (hfailed : ∀ fault, refusal? fault.kind = none →
      Keeps d Q R (fail operation fault) (d.after note (.call call) (.error fault))) :
    Keeps d Q R (callOr operation call refusal?) note := by
  refine keeps_bind (keeps_lift ⟨hallows, fun reply => ?_⟩)
  cases reply with
  | ok answer => exact hok answer
  | error fault =>
    simp only [Procedure.Follows]
    split
    · rename_i refusal hkind
      exact keeps_throw (hrefused fault refusal hkind)
    · rename_i hkind
      exact hfailed fault hkind

theorem keeps_fail {operation : String} {fault : Fault}
    (hallows : d.allows note (.record (.storeFailure operation fault.message)))
    (h : R .internal (d.after note (.record (.storeFailure operation fault.message)) ())) :
    Keeps d Q R (fail operation fault) note :=
  keeps_bind (keeps_lift ⟨hallows, fun _ => h⟩)

end Operation

end ServiceRegistry
