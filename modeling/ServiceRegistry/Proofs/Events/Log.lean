import ServiceRegistry.Deployment
import ServiceRegistry.Proofs.Host.Machine
import ServiceRegistry.Proofs.Json.Lines

/-!
# Logs of events

A log in a file only ever grows, by one line for each event.  Whatever texts an event holds, its line has
no line break inside, and the event is read back from it exactly.  So no event can be mistaken for two, or
two for one, and what was in the file before stays what it was.

* `StampedEvent.ofJson?` reads an event, field by field.
* `Deployment.run_emit` is what one event does to the file, and `Deployment.run_emits` what a list of
  events does.
* `Deployment.log_lines_exact`: the lines of the file, and the events read back from them.
-/

namespace ServiceRegistry

/-! ## Reading events -/

def RefreshCause.ofLabel? : String → Option RefreshCause
  | "startup" => some .startup
  | "scheduled" => some .scheduled
  | "dirty" => some .dirty
  | _ => none

def RefreshOutcome.ofLabel? : String → Option RefreshOutcome
  | "refreshed" => some .refreshed
  | "failed" => some .failed
  | "exhausted" => some .exhausted
  | "cancelled" => some .cancelled
  | _ => none

theorem RefreshCause.ofLabel?_label (cause : RefreshCause) : ofLabel? cause.label = some cause := by
  cases cause <;> rfl

theorem RefreshOutcome.ofLabel?_label (outcome : RefreshOutcome) :
    ofLabel? outcome.label = some outcome := by
  cases outcome <;> rfl

def Json.natural? : Json → Option Nat
  | .integer (.ofNat n) => some n
  | _ => none

namespace StampedEvent

/-- The event that a value tells of, with all its fields. -/
def ofJson? (value : Json) : Option StampedEvent := do
  let kind ← (← value.field? "event").text?
  let instant ← (← value.field? "timestamp_ms").integer?
  if kind = "view_sync" then
    let cause ← RefreshCause.ofLabel? (← (← value.field? "trigger").text?)
    let attempt ← (← value.field? "attempt").natural?
    let outcome ← RefreshOutcome.ofLabel? (← (← value.field? "outcome").text?)
    let error ← (← value.field? "error").option? Json.text?
    return ⟨instant, .refresh cause attempt outcome error⟩
  else if kind = "store_failure" then
    let operation ← (← value.field? "operation").text?
    let error ← (← value.field? "error").text?
    return ⟨instant, .storeFailure operation error⟩
  else none

theorem ofJson?_toJson (stamped : StampedEvent) : ofJson? stamped.toJson = some stamped := by
  obtain ⟨instant, event⟩ := stamped
  cases event with
  | refresh cause attempt outcome error =>
    have hcause := cause.ofLabel?_label
    have houtcome := outcome.ofLabel?_label
    have herror : (Json.ofOption .text error).option? Json.text? = some error := by
      cases error <;> rfl
    simp [ofJson?, toJson, Json.ofFields, Json.field?, Json.text, Json.text?, Json.integer?, Json.natural,
      Json.natural?, hcause, houtcome, herror]
  | storeFailure operation error => rfl

theorem exact_toJson (stamped : StampedEvent) : stamped.toJson.Exact := by
  obtain ⟨instant, event⟩ := stamped
  cases event with
  | refresh cause attempt outcome error =>
    have herror : (Json.ofOption .text error).Exact :=
      Json.exact_ofOption (fun text => Json.exact_string (some text)) error
    apply Json.exact_ofFields
    simp [Json.text, Json.natural, Json.exact_integer, Json.exact_string, herror]
  | storeFailure operation error =>
    apply Json.exact_ofFields
    simp [Json.text, Json.exact_integer, Json.exact_string]

/-- The event that a line of a file tells of. -/
def ofLine? (line : List UInt8) : Option StampedEvent := do
  ofJson? (← Json.ofLine? line)

theorem ofLine?_toText (stamped : StampedEvent) : ofLine? (utf8 stamped.toJson.toText) = some stamped := by
  rw [ofLine?, Json.ofLine?_toText stamped.exact_toJson]
  exact stamped.ofJson?_toJson

theorem newline_notMem_utf8_toText (stamped : StampedEvent) : newline ∉ utf8 stamped.toJson.toText :=
  newline_notMem_utf8 (Json.newline_notMem_toText stamped.exact_toJson)

theorem utf8_line (stamped : StampedEvent) :
    utf8 stamped.line = utf8 stamped.toJson.toText ++ [newline] := by
  rw [line, utf8_append]
  rfl

end StampedEvent

/-! ## Letting events go to a file -/

namespace Deployment

variable {settings : LogSettings} {path : String} {place : Place} {content : ByteArray}
  {machine : Machine}

/-- The machine with another content of the file at a place. -/
def logged (place : Place) (content : ByteArray) (machine : Machine) : Machine :=
  { machine with disk := machine.disk.put place (.file content) }

theorem run_emit (hsink : settings.sink = .file) (hpath : settings.path = some path)
    (hstores : machine.disk.Stores path place content) (stamped : StampedEvent) :
    (emit Machine.host settings stamped).run machine =
      (⟨⟩, logged place (content ++ stamped.line.toUTF8) machine) := by
  have happend : machine.disk.append path stamped.line.toUTF8 =
      .ok (machine.disk.put place (.file (content ++ stamped.line.toUTF8))) := hstores.modify _
  have hrun : (Machine.host.append path stamped.line.toUTF8).run machine =
      (.ok (), logged place (content ++ stamped.line.toUTF8) machine) := by
    change (Machine.changeDisk (·.append path stamped.line.toUTF8)).run machine = _
    rw [Machine.run_changeDisk, happend]
    rfl
  simp only [emit, hsink, hpath]
  change (PUnit.unit, ((Machine.host.append path stamped.line.toUTF8).run machine).2) = _
  rw [hrun]

/-- Opening a log leaves what is in the file, and makes the file if it is not there. -/
theorem openEvents_ok (hsink : settings.sink = .file) (hpath : settings.path = some path)
    {opened : Machine} (h : (openEvents Machine.host settings).run machine = (.ok (), opened)) :
    ∃ place old, opened.disk.Stores path place old ∧
      (machine.disk.read path = .ok old ∨ machine.disk.read path = .error .noEntry ∧ old = .empty) := by
  simp only [openEvents, hsink, hpath] at h
  obtain ⟨_, between, hmade, hends⟩ := Machine.run_ok h fun _ _ => nofun
  obtain rfl : between = opened := congrArg Prod.snd hends
  rw [Machine.run_append] at hmade
  cases happend : machine.disk.append path .empty with
  | error failure =>
    rw [happend] at hmade
    cases hmade
  | ok disk =>
    rw [happend] at hmade
    cases hmade
    obtain ⟨place, old, -, -, hstores, hread⟩ := Disk.stores_of_modify happend
    rw [ByteArray.append_empty] at hstores
    exact ⟨place, old, hstores, hread⟩

/-- The machine after events. -/
def afterEvents (settings : LogSettings) (machine : Machine) (events : List StampedEvent) : Machine :=
  ((events.forM (emit Machine.host settings)).run machine).2

theorem afterEvents_cons (stamped : StampedEvent) (rest : List StampedEvent) :
    afterEvents settings machine (stamped :: rest) =
      afterEvents settings ((emit Machine.host settings stamped).run machine).2 rest := rfl

/-- The events come to the end of the file, in their order. -/
theorem stores_afterEvents (hsink : settings.sink = .file) (hpath : settings.path = some path)
    (hstores : machine.disk.Stores path place content) (events : List StampedEvent) :
    ∃ later : ByteArray, (afterEvents settings machine events).disk.Stores path place later ∧
      later.data.toList = content.data.toList ++ events.flatMap fun stamped => utf8 stamped.line := by
  induction events generalizing machine content with
  | nil => exact ⟨content, hstores, (List.append_nil _).symm⟩
  | cons stamped rest ih =>
    have hlogged : (logged place (content ++ stamped.line.toUTF8) machine).disk.Stores path place
        (content ++ stamped.line.toUTF8) := hstores.put _
    rw [afterEvents_cons, run_emit hsink hpath hstores]
    obtain ⟨later, hlater, hbytes⟩ := ih hlogged
    refine ⟨later, hlater, ?_⟩
    rw [hbytes, ByteArray.data_append, Array.toList_append, List.append_assoc, List.flatMap_cons]
    rfl

/-- The lines that events add, and the events read back from them. -/
theorem linesOf_events (events : List StampedEvent) :
    linesOf (events.flatMap fun stamped => utf8 stamped.line) =
      events.map fun stamped => utf8 stamped.toJson.toText := by
  have hlines : (events.flatMap fun stamped => utf8 stamped.line) =
      (events.map fun stamped => utf8 stamped.toJson.toText).flatMap fun line => line ++ [newline] := by
    rw [List.flatMap_map]
    exact List.flatMap_congr fun stamped _ => stamped.utf8_line
  rw [hlines, linesOf_flatMap]
  intro line hline
  obtain ⟨stamped, -, rfl⟩ := List.mem_map.mp hline
  exact stamped.newline_notMem_utf8_toText

/-- After a log has been opened and any events have come to it, the file holds what it held before, and
then the lines of the events.  If the file was empty or its last line had ended, there is one more line for
each event, in their order, from which the event is read back with all its fields. -/
theorem log_lines_exact (settings : LogSettings) (path : String) (hsink : settings.sink = .file)
    (hpath : settings.path = some path) (machine opened : Machine)
    (hopened : (openEvents Machine.host settings).run machine = (.ok (), opened))
    (events : List StampedEvent) :
    let after := afterEvents settings opened events
    ∃ old later : ByteArray,
      (machine.disk.read path = .ok old ∨ machine.disk.read path = .error .noEntry ∧ old = .empty) ∧
      after.disk.read path = .ok later ∧
      later.data.toList = old.data.toList ++ (events.flatMap fun stamped => utf8 stamped.line) ∧
      (LinesEnd old.data.toList → ∃ added,
        linesOf later.data.toList = linesOf old.data.toList ++ added ∧
        added.map StampedEvent.ofLine? = events.map some) := by
  intro after
  obtain ⟨place, old, hstores, hread⟩ := openEvents_ok hsink hpath hopened
  obtain ⟨later, hlater, hbytes⟩ := stores_afterEvents hsink hpath hstores events
  refine ⟨old, later, hread, hlater.read, hbytes, fun hend => ?_⟩
  refine ⟨events.map fun stamped => utf8 stamped.toJson.toText, ?_, ?_⟩
  · rw [hbytes, linesOf_append hend, linesOf_events]
  · rw [List.map_map]
    exact List.map_congr_left fun stamped _ => stamped.ofLine?_toText

/-- Texts with line breaks, quotes and control characters in a log that is not empty. -/
theorem log_lines_exact_with_breaks :
    let settings : LogSettings := { sink := .file, path := some "events.log" }
    let machine : Machine := { disk := { entries := [(["events.log"], .file "\x7b\x7d\n".toUTF8)] } }
    let opened := ((openEvents Machine.host settings).run machine).2
    let events : List StampedEvent :=
      [⟨7, .storeFailure "fetch_services" "a\n\"b\\"⟩, ⟨-8, .refresh .dirty 1 .failed (some "\r\n\x00")⟩]
    (openEvents Machine.host settings).run machine = (.ok (), opened) ∧
    ∃ later added, (afterEvents settings opened events).disk.read "events.log" = .ok later ∧
      linesOf later.data.toList = [[123, 125]] ++ added ∧
      added.map StampedEvent.ofLine? = events.map some := by
  intro settings machine opened events
  have hfirst : ((openEvents Machine.host settings).run machine).1 = .ok () := by
    decide +kernel
  have hopened : (openEvents Machine.host settings).run machine = (.ok (), opened) :=
    Prod.ext hfirst rfl
  have hread : machine.disk.read "events.log" = .ok "\x7b\x7d\n".toUTF8 := by
    decide +kernel
  obtain ⟨old, later, hold, hlater, -, hlines⟩ :=
    log_lines_exact settings "events.log" rfl rfl machine opened hopened events
  obtain rfl : old = "\x7b\x7d\n".toUTF8 := by
    rcases hold with hold | ⟨hold, -⟩
    · exact Except.ok.inj (hold.symm.trans hread)
    · rw [hread] at hold
      cases hold
  obtain ⟨added, hadded, hevents⟩ := hlines (Or.inr (by decide +kernel))
  exact ⟨hopened, later, added, hlater, hadded, hevents⟩

end Deployment

end ServiceRegistry
