import ServiceRegistry.Proofs.Json.RoundTrip
import ServiceRegistry.Storage.Archive

/-!
# Reading back a database file

A database comes back from the bytes of its file as it was written: every row with all its columns,
damaged ones too, and the ids given last.

* `Database.ofBytes?_toBytes` is this statement.
-/

namespace ServiceRegistry

open Json

theorem Json.list?_map {α : Type} {encode : α → Json} {decode? : Json → Option α}
    (h : ∀ value, decode? (encode value) = some value) (values : List α) :
    (array (values.map encode)).list? decode? = some values := by
  simp only [list?]
  induction values with
  | nil => rfl
  | cons value values ih => simp [List.mapM_cons, h, ih]

namespace ServiceRow

theorem ofJson?_toJson (row : ServiceRow) : ofJson? row.toJson = some row := rfl

theorem exact_toJson (row : ServiceRow) : row.toJson.Exact := by
  apply exact_array
  simp [text, exact_integer, exact_string]

end ServiceRow

namespace VersionRow

theorem ofJson?_toJson (row : VersionRow) : ofJson? row.toJson = some row := rfl

theorem exact_toJson (row : VersionRow) : row.toJson.Exact := by
  apply exact_array
  simp [text, exact_integer, exact_string]

end VersionRow

namespace Database

theorem exact_toJson (db : Database) : db.toJson.Exact := by
  have hservices : ∀ rows : List ServiceRow, (array (rows.map ServiceRow.toJson)).Exact := by
    intro rows
    apply exact_array
    intro item hitem
    obtain ⟨row, -, rfl⟩ := List.mem_map.mp hitem
    exact row.exact_toJson
  have hversions : (array (db.versions.map VersionRow.toJson)).Exact := by
    apply exact_array
    intro item hitem
    obtain ⟨row, -, rfl⟩ := List.mem_map.mp hitem
    exact row.exact_toJson
  apply exact_array
  simp [exact_integer, hservices, hversions, exact_ofOption]

theorem ofJson?_toJson (db : Database) : ofJson? db.toJson = some db := by
  have hlayout : (ofOption integer db.layout).option? integer? = some db.layout := by
    cases db.layout <;> rfl
  simp only [toJson, ofJson?, hlayout, list?_map ServiceRow.ofJson?_toJson,
    list?_map VersionRow.ofJson?_toJson]
  rfl

theorem fromUTF8?_toUTF8 (s : String) : String.fromUTF8? s.toUTF8 = some s :=
  dif_pos s.isValidUTF8

/-- The bytes of a file are the mark and what follows it. -/
theorem ofBytes?_mark (body : ByteArray) :
    ofBytes? (ByteArray.empty.push fileMark ++ body) =
      (String.fromUTF8? body).bind fun text => (Json.ofText? text).bind ofJson? := by
  let content := ByteArray.empty.push fileMark ++ body
  have hmark : (ByteArray.empty.push fileMark).size = 1 := rfl
  have hsize : content.size = 1 + body.size := by
    rw [ByteArray.size_append, hmark]
  have hhead : content[0]? = some fileMark := by
    have hpos : 0 < content.size := by omega
    rw [getElem?_pos content 0 hpos]
    exact congrArg some (ByteArray.getElem_append_left (by decide))
  have hbody : content.extract 1 content.size = body := ByteArray.extract_append_eq_right rfl hsize
  change ofBytes? content = _
  simp only [ofBytes?, hhead, hbody, if_true]
  rfl

/-- A database comes back from the bytes of its file. -/
theorem ofBytes?_toBytes (db : Database) : ofBytes? db.toBytes = some db := by
  rw [toBytes, ofBytes?_mark, fromUTF8?_toUTF8, Option.bind_some, ofText?_toText db.exact_toJson]
  exact db.ofJson?_toJson

end Database

end ServiceRegistry
