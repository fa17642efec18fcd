import ServiceRegistry.Proofs.Refresh.Upkeep
import ServiceRegistry.Proofs.Storage.Archive

/-!
# What a database file holds

A database file that nothing but the library writes is empty, or holds tables with a current sorted view.
Its path may also be given for the events; then lines come after the tables, and the file is no database
any more until tables are written there again.

* `Database.Kept` are the contents that come about.
* `Database.Kept.synced`: whatever database is read from one has a current sorted view.
-/

namespace ServiceRegistry

/-- The line of an event is an object. -/
theorem StampedEvent.head_line (stamped : StampedEvent) : stamped.line.toList.head? = some '{' := by
  obtain ⟨instant, event⟩ := stamped
  cases event <;> simp [line, toJson, Json.toText, Json.ofFields, Json.tokens, Json.Token.chars]

namespace Database

/-- The contents of a file to which only databases with a current sorted view and events are written. -/
inductive Kept : ByteArray → Prop
  | empty : Kept .empty
  | written {db : Database} (h : db.Synced) : Kept db.toBytes
  | logged {content : ByteArray} (h : Kept content) (stamped : StampedEvent) :
    Kept (content ++ stamped.line.toUTF8)

/-- The layout version has no part in the rows. -/
theorem Consistent.withLayout {db : Database} (h : db.Consistent) (layout : Option Int) :
    Consistent { db with layout := layout } := by
  obtain ⟨hundamaged, hnumbered, hviewed, hlast, hrecords, harranged⟩ := h
  exact ⟨⟨hundamaged.ids, hundamaged.counts, hundamaged.lastService, hundamaged.lastVersion⟩,
    ⟨hnumbered.owners, hnumbered.ascending, hnumbered.given⟩, hviewed, hlast, hrecords, harranged⟩

theorem Synced.withLayout {db : Database} (h : db.Synced) (layout : Option Int) :
    Synced { db with layout := layout } :=
  ⟨h.consistent.withLayout layout, h.view⟩

theorem synced_empty : ({} : Database).Synced := by
  refine ⟨consistent_of_new.withLayout none, ?_⟩
  show [] = sorted []
  simp [sorted]

/-- An object alone is no database. -/
theorem ofBytes?_object {text : String} (h : text.toList.head? = some '{') :
    ofBytes? text.toUTF8 = none := by
  obtain ⟨cs, hcs⟩ := List.head?_eq_some_iff.mp h
  have htext : text = "\x7b" ++ String.ofList cs := by
    apply String.toList_inj.mp
    simp [hcs]
  have hbytes : text.toUTF8 = "\x7b".toUTF8 ++ (String.ofList cs).toUTF8 := by
    rw [htext]
    exact String.toByteArray_append ..
  have hbrace : "\x7b".toUTF8.size = 1 := rfl
  have hhead : text.toUTF8[0]? = some 0x7b := by
    have hpos : 0 < ("\x7b".toUTF8 ++ (String.ofList cs).toUTF8).size := by
      rw [ByteArray.size_append, hbrace]
      omega
    rw [hbytes, getElem?_pos _ 0 hpos]
    exact congrArg some (ByteArray.getElem_append_left (by decide))
  simp only [ofBytes?, hhead]
  rfl

/-- With an object after it a database is none. -/
theorem ofBytes?_append (db : Database) {text : String} (h : text.toList.head? = some '{') :
    ofBytes? (db.toBytes ++ text.toUTF8) = none := by
  have hlast : ∀ last ∈ db.toJson.tokens.getLast?, last.isNumber = false := by
    intro last hmem
    rw [toJson, Json.tokens, List.cons_append, ← List.cons_append, List.getLast?_concat] at hmem
    obtain rfl := Option.mem_some.mp hmem
    rfl
  have hbody : db.toJson.toText.toUTF8 ++ text.toUTF8 = (db.toJson.toText ++ text).toUTF8 :=
    (String.toByteArray_append ..).symm
  rw [toBytes, ByteArray.append_assoc, ofBytes?_mark, hbody, fromUTF8?_toUTF8, Option.bind_some,
    Json.ofText?_append db.exact_toJson hlast h]
  rfl

namespace Kept

variable {content : ByteArray}

/-- The content is made of the tables, if there are any, and of the events after them. -/
theorem parts (h : Kept content) : ∃ events : String, (events = "" ∨ events.toList.head? = some '{') ∧
    (content = events.toUTF8 ∨ ∃ db : Database, db.Synced ∧ content = db.toBytes ++ events.toUTF8) := by
  induction h with
  | empty => exact ⟨"", Or.inl rfl, Or.inl rfl⟩
  | written hdb => exact ⟨"", Or.inl rfl, Or.inr ⟨_, hdb, ByteArray.append_empty.symm⟩⟩
  | @logged content _ stamped ih =>
    obtain ⟨events, hevents, hcontent⟩ := ih
    have hbytes : (events ++ stamped.line).toUTF8 = events.toUTF8 ++ stamped.line.toUTF8 :=
      String.toByteArray_append ..
    refine ⟨events ++ stamped.line, Or.inr ?_, ?_⟩
    · rw [String.toList_append, List.head?_append]
      rcases hevents with rfl | hhead
      · exact stamped.head_line
      · rw [hhead]
        rfl
    · rw [hbytes]
      rcases hcontent with rfl | ⟨db, hdb, rfl⟩
      · exact Or.inl rfl
      · exact Or.inr ⟨db, hdb, ByteArray.append_assoc⟩

/-- Whatever database is read has a current sorted view. -/
theorem synced (h : Kept content) {db : Database} (hdb : ofBytes? content = some db) : db.Synced := by
  obtain ⟨events, hevents, rfl | ⟨tables, htables, rfl⟩⟩ := h.parts
  · rcases hevents with rfl | hhead
    · obtain rfl : {} = db := Option.some.inj hdb
      exact synced_empty
    · rw [ofBytes?_object hhead] at hdb
      cases hdb
  · rcases hevents with rfl | hhead
    · have hbytes : tables.toBytes ++ "".toUTF8 = tables.toBytes := ByteArray.append_empty
      rw [hbytes, ofBytes?_toBytes] at hdb
      obtain rfl := Option.some.inj hdb
      exact htables
    · rw [ofBytes?_append tables hhead] at hdb
      cases hdb

end Kept

end Database

end ServiceRegistry
