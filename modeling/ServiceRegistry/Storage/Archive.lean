import ServiceRegistry.Json.Printer
import ServiceRegistry.Json.Reader
import ServiceRegistry.Json.Shape
import ServiceRegistry.Storage.Database

/-!
# Database files

A database is kept in one file: a mark that no text starts with, and then the tables as JSON, each
row an array of its columns.  An empty file is a database without a layout.

`Database.ofBytes?` reads what `Database.toBytes` writes.
-/

namespace ServiceRegistry

namespace ServiceRow

def toJson (row : ServiceRow) : Json :=
  .array [.integer row.id, .text row.name, .text row.description, .integer row.versionCount,
    .integer row.createdAt, .integer row.updatedAt]

def ofJson? : Json → Option ServiceRow
  | .array [id, name, description, versionCount, createdAt, updatedAt] => do
    return ⟨← id.integer?, ← name.text?, ← description.text?, ← versionCount.integer?,
      ← createdAt.integer?, ← updatedAt.integer?⟩
  | _ => none

end ServiceRow

namespace VersionRow

def toJson (row : VersionRow) : Json :=
  .array [.integer row.rowId, .integer row.serviceId, .text row.tag, .text row.info,
    .integer row.createdAt, .integer row.updatedAt]

def ofJson? : Json → Option VersionRow
  | .array [rowId, serviceId, tag, info, createdAt, updatedAt] => do
    return ⟨← rowId.integer?, ← serviceId.integer?, ← tag.text?, ← info.text?,
      ← createdAt.integer?, ← updatedAt.integer?⟩
  | _ => none

end VersionRow

namespace Database

def toJson (db : Database) : Json :=
  .array [.ofOption .integer db.layout, .array (db.services.map ServiceRow.toJson),
    .integer db.lastServiceId, .array (db.versions.map VersionRow.toJson),
    .integer db.lastVersionRow, .array (db.view.map ServiceRow.toJson)]

def ofJson? : Json → Option Database
  | .array [layout, services, lastServiceId, versions, lastVersionRow, view] => do
    return ⟨← layout.option? Json.integer?, ← services.list? ServiceRow.ofJson?,
      ← lastServiceId.integer?, ← versions.list? VersionRow.ofJson?, ← lastVersionRow.integer?,
      ← view.list? ServiceRow.ofJson?⟩
  | _ => none

/-- The byte at the front of a database file; it occurs in no text. -/
def fileMark : UInt8 := 0xff

def toBytes (db : Database) : ByteArray := ByteArray.empty.push fileMark ++ db.toJson.toText.toUTF8

def ofBytes? (content : ByteArray) : Option Database :=
  match content[0]? with
  | none => some {}
  | some mark =>
    if mark = fileMark then do
      ofJson? (← Json.ofText? (← String.fromUTF8? (content.extract 1 content.size)))
    else none

end Database

end ServiceRegistry
