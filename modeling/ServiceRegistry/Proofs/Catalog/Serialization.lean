import ServiceRegistry.Proofs.Catalog.Deliberate
import ServiceRegistry.Proofs.Catalog.Interchange

/-!
# Concurrent writers serialize

Any number of writing requests are in flight over one store, and their acts are interleaved in any
order, each at an instant of its own.  A request may find a name free or a service there, and another
may take the name or delete the service before it writes.

* `Contest.Serial` is the invariant: the requests whose writes have landed, made one after another in
  the order of these writes, see what the replies to the writes let them end with, and leave the store
  as it stands.
* `Contest.serial_move`: every act keeps it.
* `Contest.writers_serialize`: once all requests have ended, none of them with an internal error, those
  that were refused have changed nothing, and the others could have been made one after another.
-/

namespace ServiceRegistry

/-- A deed with the result that its caller has seen. -/
abbrev Seen : Type := (deed : Deed) × deed.Result

def Entry.seen (entry : Entry) : Seen := ⟨entry.deed, entry.result⟩

/-- A request in flight. -/
structure Party where
  request : Request
  /-- What it has still to do. -/
  rest : Procedure (Except Refusal request.Answer)
  stage : Stage := .looking
  /-- Whether an act of its own has changed the store. -/
  changed : Bool := false

namespace Party

def begin (request : Request) : Party := { request := request, rest := request.procedure }

def act (party : Party) (now : Int) (world : World RecordStore) : Party × World RecordStore :=
  let backend := RecordStore.answer now
  let (rest, after) := party.rest.advance backend world
  ({ request := party.request
     rest := rest
     stage := party.rest.noteAfter (deliberate party.request) backend world party.stage
     changed := party.changed || decide (after.store ≠ world.store) }, after)

/-- Whether its next act is a call that is no read. -/
def writesNext (party : Party) : Bool :=
  match party.rest with
  | .act (.call call) _ => !call.reads
  | _ => false

/-- The result with which it has ended. -/
def result? (party : Party) : Option (Except Refusal party.request.Answer) :=
  match party.rest with
  | .done result => some result
  | .act _ _ => none

def succeeds (request : Request) : Except Refusal request.Answer → Option Seen
  | .ok value => some ⟨.ask request, .ok value⟩
  | .error _ => none

/-- What has been seen of it, if it has ended well. -/
def success? (party : Party) : Option Seen := party.result?.bind (succeeds party.request)

/-- What will be seen of it, if the reply to its write lets it end well. -/
def landed? (party : Party) : Option Seen :=
  match party.stage with
  | .wrote call reply => succeeds party.request (party.request.conclusion call reply)
  | _ => none

end Party

structure Contest where
  world : World RecordStore
  parties : List Party
  /-- The calls that were no reads: the number of the party and the instant of each. -/
  writes : List (Nat × Int) := []

namespace Contest

/-- The parties are all at their start. -/
def begin (store : RecordStore) (requests : List Request) : Contest :=
  { world := { store := store }, parties := requests.map Party.begin }

/-- The next act of the party with a number, at an instant. -/
def move (t : Contest) (number : Nat) (now : Int) : Contest :=
  match t.parties[number]? with
  | none => t
  | some party =>
    { world := (party.act now t.world).2
      parties := t.parties.set number (party.act now t.world).1
      writes := if party.writesNext then t.writes ++ [(number, now)] else t.writes }

def after (t : Contest) (schedule : List (Nat × Int)) : Contest :=
  schedule.foldl (fun t move => t.move move.1 move.2) t

def Ended (t : Contest) : Prop := ∀ party ∈ t.parties, party.result?.isSome

/-- What is said of the parties, in the order of their writes and with the instants of these. -/
def chronicle (say : Party → Option Seen) (parties : List Party) (writes : List (Nat × Int)) :
    List (Int × Seen) :=
  writes.filterMap fun write => (parties[write.1]?.bind say).map fun seen => (write.2, seen)

/-- What has been seen of the parties that have ended well. -/
def successes (t : Contest) : List (Int × Seen) := chronicle Party.success? t.parties t.writes

def landed (t : Contest) : List (Int × Seen) := chronicle Party.landed? t.parties t.writes

def deeds (history : List (Int × Seen)) : List (Int × Deed) :=
  history.map fun entry => (entry.1, entry.2.1)

/-- The history can be seen by making its deeds one after another, and the store comes out of it. -/
structure Replays (start : RecordStore) (history : List (Int × Seen)) (store : RecordStore) : Prop where
  seen : (transcript RecordStore.answer { store := start } (deeds history)).map Entry.seen =
    history.map Prod.snd
  final : (Deed.done RecordStore.answer { store := start } (deeds history)).store = store

/-- Every party is deliberate, and those whose writes have landed can be replayed. -/
structure Serial (start : RecordStore) (t : Contest) : Prop where
  consistent : t.world.store.Consistent
  follows : ∀ party ∈ t.parties,
    party.rest.Follows (deliberate party.request) party.request.Ends party.stage
  unfaulted : ∀ party ∈ t.parties, party.stage ≠ .faulted
  once : (t.writes.map Prod.fst).Nodup
  written : ∀ (number : Nat) (party : Party), t.parties[number]? = some party →
    (party.stage = .looking ↔ number ∉ t.writes.map Prod.fst)
  changed : ∀ party ∈ t.parties, party.changed = true → party.landed?.isSome
  internal : t.world.store.Roomy → ∀ party ∈ t.parties, ∀ call reply,
    party.stage = .wrote call reply → party.request.conclusion call reply ≠ .error .internal
  replays : Replays start t.landed t.world.store

variable {start : RecordStore} {t : Contest}

/-! ## Histories -/

theorem transcript_append {σ : Type} (answer : Int → Backend σ) (world : World σ)
    (before rest : List (Int × Deed)) :
    transcript answer world (before ++ rest) =
      transcript answer world before ++ transcript answer (Deed.done answer world before) rest := by
  induction before generalizing world with
  | nil => rfl
  | cons step before ih => exact congrArg (List.cons _) (ih _)

theorem Replays.append {history : List (Int × Seen)} {store after : RecordStore}
    (h : Replays start history store) {now : Int} {deed : Deed} {result : deed.Result}
    {before : World RecordStore}
    (hbefore : before = Deed.done RecordStore.answer { store := start } (deeds history))
    (hresult : (deed.procedure.run (RecordStore.answer now) before).1 = result)
    (hafter : (deed.procedure.run (RecordStore.answer now) before).2.store = after) :
    Replays start (history ++ [(now, ⟨deed, result⟩)]) after := by
  subst hbefore
  have hdeeds : deeds (history ++ [(now, ⟨deed, result⟩)]) = deeds history ++ [(now, deed)] := by
    simp [deeds]
  constructor
  · rw [hdeeds, transcript_append]
    simp [transcript, Entry.seen, h.seen, hresult]
  · rw [hdeeds, Deed.done, List.foldl_append]
    exact hafter

/-- A party that takes the place of another, of which the same is said, changes no chronicle. -/
theorem chronicle_set {say : Party → Option Seen} {parties : List Party} {number : Nat}
    {party after : Party} (hparty : parties[number]? = some party) (hsame : say after = say party)
    (writes : List (Nat × Int)) :
    chronicle say (parties.set number after) writes = chronicle say parties writes := by
  unfold chronicle
  congr 1
  ext write
  by_cases hnumber : number = write.1
  · subst hnumber
    obtain ⟨hlt, -⟩ := List.getElem?_eq_some_iff.mp hparty
    rw [hparty, List.getElem?_set_self hlt, Option.bind_some, Option.bind_some, hsame]
  · rw [List.getElem?_set_ne hnumber]

/-- A party that has not written is in no chronicle of writes. -/
theorem chronicle_set_of_notMem {number : Nat} {writes : List (Nat × Int)}
    (h : number ∉ writes.map Prod.fst) (say : Party → Option Seen) (parties : List Party)
    (after : Party) :
    chronicle say (parties.set number after) writes = chronicle say parties writes := by
  unfold chronicle
  apply List.filterMap_congr
  intro write hwrite
  have hne : number ≠ write.1 := by
    intro heq
    exact h (List.mem_map.mpr ⟨write, hwrite, heq.symm⟩)
  rw [List.getElem?_set_ne hne]

theorem chronicle_append (say : Party → Option Seen) (parties : List Party)
    (writes : List (Nat × Int)) (number : Nat) (now : Int) :
    chronicle say parties (writes ++ [(number, now)]) =
      chronicle say parties writes ++
        ((parties[number]?.bind say).map fun seen => (now, seen)).toList := by
  rw [chronicle, List.filterMap_append, ← chronicle]
  cases hsaid : parties[number]?.bind say with
  | none => simp only [List.filterMap_cons, hsaid, Option.map_none, List.filterMap_nil,
      Option.toList_none]
  | some seen => simp only [List.filterMap_cons, hsaid, Option.map_some, List.filterMap_nil,
      Option.toList_some]

/-! ## One act -/

/-- Of the party at a number there is the party that has taken its place, and of any other the same. -/
theorem getElem?_set_cases {parties : List Party} {number other : Nat} {after party : Party}
    (h : (parties.set number after)[other]? = some party) :
    (number = other ∧ party = after) ∨ (number ≠ other ∧ parties[other]? = some party) := by
  by_cases hnumber : number = other
  · subst hnumber
    obtain ⟨hlt, hget⟩ := List.getElem?_eq_some_iff.mp h
    rw [List.getElem_set_self] at hget
    exact Or.inl ⟨rfl, hget.symm⟩
  · rw [List.getElem?_set_ne hnumber] at h
    exact Or.inr ⟨hnumber, h⟩

/-- What holds of all parties holds still when one of them is replaced by another of which it holds. -/
theorem forall_set {P : Party → Prop} {parties : List Party} (h : ∀ party ∈ parties, P party)
    (number : Nat) {after : Party} (hafter : P after) :
    ∀ party ∈ parties.set number after, P party := by
  intro party hparty
  rcases List.mem_or_eq_of_mem_set hparty with hparty | rfl
  · exact h party hparty
  · exact hafter

/-- An act that leaves the store as it is, and is no write. -/
theorem Serial.quiet (h : Serial start t) {number : Nat} {party : Party}
    (hparty : t.parties[number]? = some party)
    {rest : Procedure (Except Refusal party.request.Answer)}
    (hfollows : rest.Follows (deliberate party.request) party.request.Ends party.stage)
    {world : World RecordStore} (hworld : world.store = t.world.store) :
    Serial start
      { t with world := world, parties := t.parties.set number { party with rest := rest } } := by
  have hmem : party ∈ t.parties := List.mem_of_getElem? hparty
  have hsame : Party.landed? { party with rest := rest } = party.landed? := rfl
  have hlanded : Contest.landed
      { t with world := world, parties := t.parties.set number { party with rest := rest } } =
      t.landed := chronicle_set hparty hsame t.writes
  constructor
  · exact hworld ▸ h.consistent
  · exact forall_set h.follows number hfollows
  · exact forall_set h.unfaulted number (h.unfaulted party hmem)
  · exact h.once
  · intro i other hother
    rcases getElem?_set_cases hother with ⟨rfl, rfl⟩ | ⟨-, hother⟩
    · exact h.written number party hparty
    · exact h.written i other hother
  · exact forall_set h.changed number (h.changed party hmem)
  · intro hroomy
    have hbefore : t.world.store.Roomy := hworld ▸ hroomy
    exact forall_set (h.internal hbefore) number (h.internal hbefore party hmem)
  · rw [hlanded]
    exact hworld ▸ h.replays

/-- The party after its write. -/
def wrote (party : Party) (rest : Procedure (Except Refusal party.request.Answer)) (call : Call)
    (now : Int) (store : RecordStore) : Party where
  request := party.request
  rest := rest
  stage := .wrote call (RecordStore.answer now call store).1
  changed := party.changed || decide ((RecordStore.answer now call store).2 ≠ store)

/-- A party that has not written yet has changed nothing. -/
theorem Serial.unchanged (h : Serial start t) {party : Party} (hmem : party ∈ t.parties)
    (hlooking : party.stage = .looking) : party.changed = false := by
  apply Bool.eq_false_iff.mpr
  intro hchanged
  have hlanded := h.changed party hmem hchanged
  rw [Party.landed?, hlooking] at hlanded
  cases hlanded

/-- A write decides as the whole request would in the world of the replay. -/
theorem Serial.lands (h : Serial start t) {request : Request} {call : Call}
    (hintends : request.Intends call) (now : Int) :
    ∃ replay : World RecordStore,
      replay = Deed.done RecordStore.answer { store := start } (deeds t.landed) ∧
      replay.store = t.world.store ∧ request.Lands call now replay := by
  have hstore := h.replays.final
  refine ⟨_, rfl, hstore, Request.lands hintends ?_⟩
  rw [hstore]
  exact h.consistent

/-- The first write of a party comes last in what has landed. -/
theorem landed_write {number : Nat} {party : Party} (hparty : t.parties[number]? = some party)
    (hfirst : number ∉ t.writes.map Prod.fst) (after : Party) (now : Int) (world : World RecordStore) :
    Contest.landed
      { world := world
        parties := t.parties.set number after
        writes := t.writes ++ [(number, now)] } =
      t.landed ++ (after.landed?.map fun seen => (now, seen)).toList := by
  obtain ⟨hlt, -⟩ := List.getElem?_eq_some_iff.mp hparty
  rw [landed, chronicle_append, chronicle_set_of_notMem hfirst, List.getElem?_set_self hlt]
  rfl

/-- The write of a party. -/
theorem Serial.write (h : Serial start t) {number : Nat} {party : Party}
    (hparty : t.parties[number]? = some party) (hlooking : party.stage = .looking) {call : Call}
    (hintends : party.request.Intends call) (now : Int)
    {rest : Procedure (Except Refusal party.request.Answer)}
    (hfollows : rest.Follows (deliberate party.request) party.request.Ends
      (.wrote call (RecordStore.answer now call t.world.store).1)) :
    Serial start
      { world := { t.world with store := (RecordStore.answer now call t.world.store).2 }
        parties := t.parties.set number (wrote party rest call now t.world.store)
        writes := t.writes ++ [(number, now)] } := by
  have hfirst : number ∉ t.writes.map Prod.fst := (h.written number party hparty).mp hlooking
  have hunchanged := h.unchanged (List.mem_of_getElem? hparty) hlooking
  obtain ⟨replay, hreplay, hstore, hlands⟩ := h.lands hintends now
  rw [Request.Lands, hstore] at hlands
  constructor
  · exact h.consistent.answer now call
  · exact forall_set h.follows number hfollows
  · exact forall_set h.unfaulted number nofun
  · rw [List.map_append]
    refine List.nodup_append.mpr ⟨h.once, List.nodup_singleton _, ?_⟩
    rintro i hi j hj rfl
    obtain rfl := List.mem_singleton.mp hj
    exact hfirst hi
  · intro i other hother
    rw [List.map_append, List.mem_append]
    rcases getElem?_set_cases hother with ⟨rfl, rfl⟩ | ⟨hne, hother⟩
    · simp [wrote]
    · rw [h.written i other hother]
      simp [Ne.symm hne]
  · refine forall_set h.changed number fun hchanged => ?_
    rcases hlands with ⟨refusal, -, hsame, -⟩ | ⟨value, hconclusion, -⟩
    · simp [wrote, hunchanged, hsame] at hchanged
    · simp [wrote, Party.landed?, hconclusion, Party.succeeds]
  · intro hroomy
    have hbefore : t.world.store.Roomy := RecordStore.Roomy.of_answer hroomy
    refine forall_set (h.internal hbefore) number fun last reply hstage hinternal => ?_
    cases hstage
    change party.request.conclusion call _ = _ at hinternal
    rcases hlands with ⟨refusal, hconclusion, -, hfull⟩ | ⟨value, hconclusion, -⟩
    · rw [hconclusion] at hinternal
      exact hfull (Except.error.inj hinternal) hbefore
    · rw [hconclusion] at hinternal
      cases hinternal
  · rw [landed_write hparty hfirst]
    rcases hlands with ⟨refusal, hconclusion, hsame, -⟩ | ⟨value, hconclusion, hresult, hafter⟩
    · simpa [wrote, Party.landed?, hconclusion, Party.succeeds, hsame] using h.replays
    · have hdone : Replays start (t.landed ++ [(now, ⟨.ask party.request, .ok value⟩)])
          (RecordStore.answer now call t.world.store).2 :=
        h.replays.append hreplay hresult hafter
      simpa [wrote, Party.landed?, hconclusion, Party.succeeds] using hdone

/-- An act that changes neither the stage nor the store. -/
theorem act_of_quiet {request : Request} {a : Act}
    {next : a.Response → Procedure (Except Refusal request.Answer)} {stage : Stage} {changed : Bool}
    {now : Int} {world after : World RecordStore} {response : a.Response}
    (hperform : world.perform (RecordStore.answer now) a = (response, after))
    (hstore : after.store = world.store)
    (hstage : (deliberate request).after stage a response = stage) :
    Party.act ⟨request, .act a next, stage, changed⟩ now world =
      (⟨request, next response, stage, changed⟩, after) := by
  simp [Party.act, Procedure.advance, Procedure.noteAfter, hperform, hstore, hstage]

theorem act_of_write {request : Request} {call : Call}
    {next : Reply call.method → Procedure (Except Refusal request.Answer)} {changed : Bool}
    (hwrite : call.reads = false) (now : Int) (world : World RecordStore) :
    Party.act ⟨request, .act (.call call) next, .looking, changed⟩ now world =
      (wrote ⟨request, .act (.call call) next, .looking, changed⟩
          (next (RecordStore.answer now call world.store).1) call now world.store,
        { world with store := (RecordStore.answer now call world.store).2 }) := by
  simp only [Party.act, Procedure.advance, Procedure.noteAfter, World.perform, deliberate, wrote,
    hwrite, Bool.false_eq_true, if_false]
  rfl

theorem move_of_party {number : Nat} {party : Party} (hparty : t.parties[number]? = some party)
    (now : Int) :
    t.move number now =
      { world := (party.act now t.world).2
        parties := t.parties.set number (party.act now t.world).1
        writes := if party.writesNext then t.writes ++ [(number, now)] else t.writes } := by
  rw [move, hparty]

theorem Serial.moveRead (h : Serial start t) {number : Nat} {request : Request} {call : Call}
    {next : Reply call.method → Procedure (Except Refusal request.Answer)} {changed : Bool}
    (hparty : t.parties[number]? = some ⟨request, .act (.call call) next, .looking, changed⟩)
    (hreads : call.reads = true)
    (hnext : ∀ reply, (next reply).Follows (deliberate request) request.Ends
      ((deliberate request).after .looking (.call call) reply)) (now : Int) :
    Serial start (t.move number now) := by
  obtain ⟨answer, hanswer⟩ := h.consistent.reads now hreads
  have hperform : t.world.perform (RecordStore.answer now) (.call call) = (.ok answer, t.world) := by
    rw [World.perform, hanswer]
  have hstage : (deliberate request).after .looking (.call call) (.ok answer) = .looking :=
    if_pos hreads
  have hwrites : Party.writesNext ⟨request, .act (.call call) next, .looking, changed⟩ = false := by
    simp [Party.writesNext, hreads]
  have hfollows := hnext (.ok answer)
  rw [hstage] at hfollows
  rw [move_of_party hparty, act_of_quiet hperform rfl hstage, hwrites]
  exact h.quiet hparty hfollows rfl

theorem Serial.moveWrite (h : Serial start t) {number : Nat} {request : Request} {call : Call}
    {next : Reply call.method → Procedure (Except Refusal request.Answer)} {changed : Bool}
    (hparty : t.parties[number]? = some ⟨request, .act (.call call) next, .looking, changed⟩)
    (hwrite : call.reads = false) (hintends : request.Intends call)
    (hnext : ∀ reply, (next reply).Follows (deliberate request) request.Ends
      ((deliberate request).after .looking (.call call) reply)) (now : Int) :
    Serial start (t.move number now) := by
  have hstage : (deliberate request).after .looking (.call call)
      (RecordStore.answer now call t.world.store).1 =
      .wrote call (RecordStore.answer now call t.world.store).1 :=
    if_neg (Bool.eq_false_iff.mp hwrite)
  have hwrites : Party.writesNext ⟨request, .act (.call call) next, .looking, changed⟩ = true := by
    simp [Party.writesNext, hwrite]
  have hfollows := hnext (RecordStore.answer now call t.world.store).1
  rw [hstage] at hfollows
  rw [move_of_party hparty, act_of_write hwrite, hwrites]
  exact h.write hparty rfl hintends now hfollows

/-- Every act keeps the parties serial. -/
theorem serial_move (h : Serial start t) (number : Nat) (now : Int) :
    Serial start (t.move number now) := by
  cases hparty : t.parties[number]? with
  | none =>
    rw [move, hparty]
    exact h
  | some party =>
    have hfollows := h.follows party (List.mem_of_getElem? hparty)
    obtain ⟨request, rest, stage, changed⟩ := party
    cases rest with
    | done result =>
      have hstill : Party.act ⟨request, .done result, stage, changed⟩ now t.world =
          (⟨request, .done result, stage, changed⟩, t.world) := by
        simp [Party.act, Procedure.advance, Procedure.noteAfter]
      rw [move_of_party hparty, hstill]
      exact h.quiet hparty hfollows rfl
    | act a next =>
      obtain ⟨hallows, hnext⟩ := hfollows
      cases a with
      | call call =>
        obtain ⟨hlooking, hcall⟩ := hallows
        change stage = .looking at hlooking
        subst hlooking
        cases hreads : call.reads with
        | true => exact h.moveRead hparty hreads hnext now
        | false =>
          rcases hcall with hread | hintends
          · rw [hreads] at hread
            cases hread
          · exact h.moveWrite hparty hreads hintends hnext now
      | markOwed =>
        have hperform : t.world.perform (RecordStore.answer now) .markOwed =
          ((), { t.world with owed := true }) := rfl
        rw [move_of_party hparty, act_of_quiet hperform rfl rfl]
        exact h.quiet hparty (hnext ()) rfl
      | consumeOwed => cases hallows
      | record event =>
        have hperform : t.world.perform (RecordStore.answer now) (.record event) =
          ((), { t.world with events := t.world.events ++ [event] }) := rfl
        rw [move_of_party hparty, act_of_quiet hperform rfl rfl]
        exact h.quiet hparty (hnext ()) rfl

theorem serial_after (h : Serial start t) (schedule : List (Nat × Int)) :
    Serial start (t.after schedule) := by
  induction schedule generalizing t with
  | nil => exact h
  | cons move rest ih => exact ih (serial_move h move.1 move.2)

theorem serial_begin (hstart : start.Consistent) {requests : List Request}
    (hwrites : ∀ request ∈ requests, request.writes = true) : Serial start (begin start requests) := by
  have hlooking : ∀ party ∈ (begin start requests).parties, party.stage = .looking := by
    intro party hparty
    obtain ⟨request, -, rfl⟩ := List.mem_map.mp hparty
    rfl
  constructor
  · exact hstart
  · intro party hparty
    obtain ⟨request, hrequest, rfl⟩ := List.mem_map.mp hparty
    exact Request.follows_deliberate (hwrites request hrequest)
  · intro party hparty
    rw [hlooking party hparty]
    exact nofun
  · exact List.nodup_nil
  · intro number party hparty
    simp [hlooking party (List.mem_of_getElem? hparty), begin]
  · intro party hparty hchanged
    obtain ⟨request, -, rfl⟩ := List.mem_map.mp hparty
    cases hchanged
  · intro _ party hparty call reply hstage
    rw [hlooking party hparty] at hstage
    cases hstage
  · exact ⟨rfl, rfl⟩

theorem requests_move (t : Contest) (number : Nat) (now : Int) :
    (t.move number now).parties.map Party.request = t.parties.map Party.request := by
  unfold move
  split
  · rfl
  · rename_i party hparty
    obtain ⟨hlt, hget⟩ := List.getElem?_eq_some_iff.mp hparty
    have hbound : number < (t.parties.map Party.request).length := by
      rw [List.length_map]
      exact hlt
    have hrequest : (party.act now t.world).1.request = (t.parties.map Party.request)[number] := by
      rw [List.getElem_map, hget]
      rfl
    rw [List.map_set, hrequest, List.set_getElem_self]

theorem requests_after (t : Contest) (schedule : List (Nat × Int)) :
    (t.after schedule).parties.map Party.request = t.parties.map Party.request := by
  induction schedule generalizing t with
  | nil => rfl
  | cons move rest ih => exact (ih _).trans (requests_move t move.1 move.2)

/-! ## All acts -/

/-- A party that has ended is where its stage lets it end. -/
theorem Serial.ends (h : Serial start t) {party : Party} (hparty : party ∈ t.parties)
    {result : Except Refusal party.request.Answer} (hresult : party.result? = some result) :
    party.request.Ends result party.stage := by
  have hfollows := h.follows party hparty
  unfold Party.result? at hresult
  split at hresult
  · rename_i hrest
    cases hresult
    rw [hrest] at hfollows
    exact hfollows
  · cases hresult

theorem Serial.success?_eq_landed? (h : Serial start t) {party : Party} (hparty : party ∈ t.parties)
    (hended : party.result?.isSome) : party.success? = party.landed? := by
  obtain ⟨result, hresult⟩ := Option.isSome_iff_exists.mp hended
  have hends := h.ends hparty hresult
  rw [Party.success?, hresult, Option.bind_some, Party.landed?]
  cases hstage : party.stage with
  | looking =>
    rw [hstage] at hends
    obtain ⟨refusal, rfl, -⟩ := hends
    rfl
  | faulted => exact absurd hstage (h.unfaulted party hparty)
  | wrote call reply =>
    rw [hstage] at hends
    exact congrArg (Party.succeeds party.request) hends

theorem Serial.successes_eq_landed (h : Serial start t) (hended : t.Ended) :
    t.successes = t.landed := by
  apply List.filterMap_congr
  intro write _
  cases hparty : t.parties[write.1]? with
  | none => rfl
  | some party =>
    have hmem : party ∈ t.parties := List.mem_of_getElem? hparty
    rw [Option.bind_some, Option.bind_some, h.success?_eq_landed? hmem (hended party hmem)]

/-- Once all have ended: no internal error, as long as the row ids are not used up; a refusal has
changed nothing; and those that ended well, each with one write, would have ended so and left the same
store if they had been made one after another, in the order of their writes and at their instants. -/
theorem writers_serialize {store : RecordStore} (hnew : store.New)
    (prior : List RecordStore.Incident) (requests : List Request)
    (hwrites : ∀ request ∈ requests, request.writes = true) (schedule : List (Nat × Int))
    (hended : ((begin (store.after prior) requests).after schedule).Ended) :
    let t := (begin (store.after prior) requests).after schedule
    t.parties.map Party.request = requests ∧
    (t.world.store.Roomy → ∀ party ∈ t.parties, party.result? ≠ some (.error .internal)) ∧
    (∀ party ∈ t.parties, party.success? = none → party.changed = false) ∧
    (t.writes.map Prod.fst).Nodup ∧
    (∀ (number : Nat) (party : Party), t.parties[number]? = some party → party.success?.isSome →
      number ∈ t.writes.map Prod.fst) ∧
    (transcript RecordStore.answer { store := store.after prior } (deeds t.successes)).map Entry.seen =
      t.successes.map Prod.snd ∧
    (Deed.done RecordStore.answer { store := store.after prior } (deeds t.successes)).store =
      t.world.store := by
  intro t
  have hserial : Serial (store.after prior) t :=
    serial_after (serial_begin (hnew.consistent.after prior) hwrites) schedule
  have hreplays : Replays (store.after prior) t.successes t.world.store :=
    hserial.successes_eq_landed hended ▸ hserial.replays
  refine ⟨?_, ?_, ?_, hserial.once, ?_, hreplays.seen, hreplays.final⟩
  · rw [requests_after, begin, List.map_map]
    exact List.map_id requests
  · intro hroomy party hparty hresult
    have hends := hserial.ends hparty hresult
    cases hstage : party.stage with
    | looking =>
      rw [hstage] at hends
      obtain ⟨refusal, hrefusal, hne⟩ := hends
      exact hne (Except.error.inj hrefusal).symm
    | faulted => exact hserial.unfaulted party hparty hstage
    | wrote call reply =>
      rw [hstage] at hends
      exact hserial.internal hroomy party hparty call reply hstage hends.symm
  · intro party hparty hfailed
    rw [hserial.success?_eq_landed? hparty (hended party hparty)] at hfailed
    apply Bool.eq_false_iff.mpr
    intro hchanged
    have hlanded := hserial.changed party hparty hchanged
    rw [hfailed] at hlanded
    cases hlanded
  · intro number party hparty hsuccess
    have hmem : party ∈ t.parties := List.mem_of_getElem? hparty
    rw [hserial.success?_eq_landed? hmem (hended party hmem)] at hsuccess
    by_contra hnone
    have hlooking := (hserial.written number party hparty).mpr hnone
    rw [Party.landed?, hlooking] at hsuccess
    cases hsuccess

/-- Two requests that find one name free, and a deletion that comes between a check and its write. -/
theorem writers_serialize_in_races :
    let start := RecordStore.after (.database (Database.prepare {}).2) [.call 1 (.insertService "z" "")]
    let t := (begin start [.createService "a" "x", .createService "a" "y", .updateService 1 "b" "",
        .deleteService 1]).after
      [(0, 2), (1, 3), (1, 4), (0, 5), (1, 6), (2, 7), (3, 8), (2, 9), (3, 10), (2, 11), (3, 12)]
    t.Ended ∧ t.successes.length = 2 ∧ (t.writes.map Prod.fst).Nodup := by
  have hended : ((begin (RecordStore.after (.database (Database.prepare {}).2)
      [.call 1 (.insertService "z" "")]) [.createService "a" "x", .createService "a" "y",
        .updateService 1 "b" "", .deleteService 1]).after
      [(0, 2), (1, 3), (1, 4), (0, 5), (1, 6), (2, 7), (3, 8), (2, 9), (3, 10), (2, 11),
        (3, 12)]).Ended := by
    unfold Ended
    decide
  have hserial := writers_serialize .database _ _ (by decide) _ hended
  exact ⟨hended, by decide, hserial.2.2.2.1⟩

end Contest

end ServiceRegistry
