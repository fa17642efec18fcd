import ServiceRegistry.Event
import ServiceRegistry.Json.Printer
import ServiceRegistry.Json.Reader
import ServiceRegistry.Json.Shape
import ServiceRegistry.Paging

/-!
# Records as JSON

Every record of the catalog has a form in JSON, written as an object with its columns in a fixed
order and read back in any form that `Json.columns?` takes.  Numbers are read within the words that
they are kept in.
-/

namespace ServiceRegistry

namespace Service

def toJson (s : Service) : Json :=
  .ofFields [("id", .natural s.id), ("name", .text s.name), ("description", .text s.description),
    ("versionCount", .natural s.versionCount), ("createdAtMs", .integer s.createdAt),
    ("updatedAtMs", .integer s.updatedAt)]

def ofJson? (value : Json) : Option Service := do
  match ← value.allColumns?
      ["id", "name", "description", "versionCount", "createdAtMs", "updatedAtMs"] with
  | [id, name, description, versionCount, createdAt, updatedAt] =>
    return ⟨← id.word?, ← name.text?, ← description.text?, ← versionCount.word?,
      ← createdAt.signed?, ← updatedAt.signed?⟩
  | _ => none

end Service

namespace Version

def toJson (v : Version) : Json :=
  .ofFields [("serviceId", .natural v.serviceId), ("tag", .text v.tag), ("info", .text v.info),
    ("createdAtMs", .integer v.createdAt), ("updatedAtMs", .integer v.updatedAt)]

def ofJson? (value : Json) : Option Version := do
  match ← value.allColumns? ["serviceId", "tag", "info", "createdAtMs", "updatedAtMs"] with
  | [serviceId, tag, info, createdAt, updatedAt] =>
    return ⟨← serviceId.word?, ← tag.text?, ← info.text?, ← createdAt.signed?,
      ← updatedAt.signed?⟩
  | _ => none

end Version

namespace Page

def toJson (encode : α → Json) (page : Page α) : Json :=
  .ofFields [("data", .array (page.data.map encode)), ("totalItems", .natural page.totalItems),
    ("pageSize", .natural page.pageSize), ("currentPage", .natural page.currentPage)]

def ofJson? (decode? : Json → Option α) (value : Json) : Option (Page α) := do
  match ← value.allColumns? ["data", "totalItems", "pageSize", "currentPage"] with
  | [data, totalItems, pageSize, currentPage] =>
    return ⟨← data.list? decode?, ← totalItems.word?, ← pageSize.word?, ← currentPage.word?⟩
  | _ => none

end Page

namespace NameFilter

def toJson (filter : NameFilter) : Json := .ofFields [("term", .text filter.term)]

def ofJson? (value : Json) : Option NameFilter := do
  match ← value.allColumns? ["term"] with
  | [term] => return ⟨← term.text?⟩
  | _ => none

end NameFilter

namespace ScanRange

def toJson (range : ScanRange) : Json :=
  .ofFields [("offset", .natural range.offset), ("limit", .natural range.limit)]

def ofJson? (value : Json) : Option ScanRange := do
  match ← value.allColumns? ["offset", "limit"] with
  | [offset, limit] => return ⟨← offset.word?, ← limit.word?⟩
  | _ => none

end ScanRange

namespace PageWindow

def toJson (w : PageWindow) : Json :=
  .ofFields [("offset", .natural w.offset), ("limit", .natural w.limit),
    ("needs_reverse", .bool w.needsReverse), ("is_empty", .bool w.isEmpty)]

def ofJson? (value : Json) : Option PageWindow := do
  match ← value.allColumns? ["offset", "limit", "needs_reverse", "is_empty"] with
  | [offset, limit, needsReverse, isEmpty] =>
    return ⟨← offset.word?, ← limit.word?, ← needsReverse.bool?, ← isEmpty.bool?⟩
  | _ => none

end PageWindow

namespace PageRequest

def toJson (r : PageRequest) : Json :=
  .ofFields [("current_page", .natural r.currentPage), ("page_size", .natural r.pageSize),
    ("inverted", .bool r.inverted)]

/-- The page number is taken as it stands, page 0 too. -/
def ofJson? (value : Json) : Option PageRequest := do
  match ← value.allColumns? ["current_page", "page_size", "inverted"] with
  | [currentPage, pageSize, inverted] =>
    return ⟨← currentPage.word?, ← pageSize.word?, ← inverted.bool?⟩
  | _ => none

end PageRequest

namespace Source

def toJson (source : Source) : Json := .text source.label

def ofJson? (value : Json) : Option Source := do
  match ← value.choice? with
  | "table" => return .table
  | "sorted_view" => return .sortedView
  | _ => none

end Source

namespace SortKey

def label : SortKey → String
  | .created => "date"
  | .name => "name"

def toJson (sort : SortKey) : Json := .text sort.label

def ofJson? (value : Json) : Option SortKey := do
  match ← value.choice? with
  | "date" => return .created
  | "name" => return .name
  | _ => none

end SortKey

namespace StampedEvent

def toJson (stamped : StampedEvent) : Json :=
  match stamped.event with
  | .refresh cause attempt outcome error =>
    .ofFields [("event", .text "view_sync"), ("timestamp_ms", .integer stamped.instant),
      ("trigger", .text cause.label), ("attempt", .natural attempt),
      ("outcome", .text outcome.label), ("error", .ofOption .text error)]
  | .storeFailure operation error =>
    .ofFields [("event", .text "store_failure"), ("timestamp_ms", .integer stamped.instant),
      ("operation", .text operation), ("error", .text error)]

/-- An event as one line of a log, its line break included. -/
def line (stamped : StampedEvent) : String := stamped.toJson.toText ++ "\n"

end StampedEvent

end ServiceRegistry
