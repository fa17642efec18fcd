import ServiceRegistry.Json.Record
import ServiceRegistry.Proofs.Json.Lines
import ServiceRegistry.Proofs.Json.Rearrangement

/-!
# Records through JSON and back

Every record comes back from its text if its numbers are words, and no other record is ever read.  So a
text that is taken for a record, however it was put together, can be read and written again without loss.

* `Json.Faithful` is the law of one kind of record on values; it is proved for each of them, and for pages
  of records that have it (`Page.faithful`).
* `Json.Lossless` is what it means for texts, and `Json.Faithful.lossless` takes one to the other.
* `records_lossless`: the records of the catalog, its ids and tags, pages, filters and windows.
-/

namespace ServiceRegistry

namespace Json

variable {α : Type} {Kept : α → Prop} {encode : α → Json} {decode? : Json → Option α}

/-- The record that a text spells. -/
def recordOfText? (decode? : Json → Option α) (text : String) : Option α :=
  (ofText? text).bind decode?

/-- Every form of a record that can be kept is read as the record, and only such records are read. -/
structure Faithful (Kept : α → Prop) (encode : α → Json) (decode? : Json → Option α) : Prop where
  exact : ∀ record, (encode record).Exact
  read : ∀ {record form}, Kept record → Rearranged (encode record) form → decode? form = some record
  kept : ∀ {form record}, decode? form = some record → Kept record

/-- Nothing is lost when a record is written, nor when one is read. -/
structure Lossless (Kept : α → Prop) (encode : α → Json) (decode? : Json → Option α) : Prop where
  /-- A record comes back from its text. -/
  written : ∀ record, Kept record → recordOfText? decode? (encode record).toText = some record
  /-- A record comes back from every text of every form of it: blanks, the spelling of strings, the order
  of the columns and further fields make no difference. -/
  sent : ∀ record form text, Kept record → Rearranged (encode record) form → form.WrittenAs text →
    recordOfText? decode? text = some record
  /-- What any text is taken for can be kept, and comes back when it is written again. -/
  rewritten : ∀ text record, recordOfText? decode? text = some record →
    Kept record ∧ recordOfText? decode? (encode record).toText = some record

theorem Faithful.lossless (h : Faithful Kept encode decode?) : Lossless Kept encode decode? := by
  have hsent : ∀ record form text, Kept record → Rearranged (encode record) form →
      form.WrittenAs text → recordOfText? decode? text = some record := by
    intro record form text hkept hform htext
    rw [recordOfText?, ofText?_writtenAs htext]
    exact h.read hkept hform
  have hwritten : ∀ record, Kept record →
      recordOfText? decode? (encode record).toText = some record := fun record hkept =>
    hsent record _ _ hkept (.same _) (writtenAs_toText (h.exact record))
  refine ⟨hwritten, hsent, ?_⟩
  intro text record hread
  obtain ⟨value, -, hvalue⟩ := Option.bind_eq_some_iff.mp hread
  exact ⟨h.kept hvalue, hwritten record (h.kept hvalue)⟩

/-! ## Columns -/

/-- The numbers that a signed word holds. -/
def IsSigned (n : Int) : Prop := minSigned ≤ n ∧ n ≤ maxSigned

theorem exact_natural (n : Nat) : (natural n).Exact := exact_integer n

theorem exact_text (content : String) : (text content).Exact := exact_string (some content)

theorem exact_bool (b : Bool) : (bool b).Exact := by
  simp [Exact, tokens, Token.isExact]

theorem word?_natural {n : Nat} (h : n ≤ maxWord) : (natural n).word? = some n := by
  rw [natural, word?, if_pos (by omega)]
  rfl

theorem text?_text (content : String) : (text content).text? = some content := rfl

theorem bool?_bool (b : Bool) : (bool b).bool? = some b := rfl

theorem signed?_integer {n : Int} (h : IsSigned n) : (integer n).signed? = some n := if_pos h

theorem le_of_word? {value : Json} {n : Nat} (h : value.word? = some n) : n ≤ maxWord := by
  cases value with
  | integer m =>
    rw [word?, Option.ite_none_right_eq_some] at h
    obtain ⟨hword, heq⟩ := h
    cases heq
    omega
  | _ => cases h

theorem isSigned_of_signed? {value : Json} {n : Int} (h : value.signed? = some n) : IsSigned n := by
  cases value with
  | integer m =>
    rw [signed?, Option.ite_none_right_eq_some] at h
    obtain ⟨hword, heq⟩ := h
    cases heq
    exact hword
  | _ => cases h

/-- A list is read from forms of its items. -/
theorem Faithful.list?_of_forms (h : Faithful Kept encode decode?) {records : List α}
    (hkept : ∀ record ∈ records, Kept record) {forms : List Json}
    (hforms : List.Forall₂ Rearranged (records.map encode) forms) :
    (array forms).list? decode? = some records := by
  rw [list?]
  induction records generalizing forms with
  | nil =>
    cases hforms
    rfl
  | cons record records ih =>
    cases hforms with
    | cons hform hforms =>
      have hrecord := h.read (hkept record List.mem_cons_self) hform
      have hrecords := ih (fun other hmem => hkept other (List.mem_cons_of_mem _ hmem)) hforms
      simp [List.mapM_cons, hrecord, hrecords]

theorem Faithful.kept_of_list? (h : Faithful Kept encode decode?) {value : Json} {records : List α}
    (hread : value.list? decode? = some records) : ∀ record ∈ records, Kept record := by
  cases value with
  | array items =>
    rw [list?] at hread
    induction items generalizing records with
    | nil =>
      cases hread
      simp
    | cons item items ih =>
      simp only [List.mapM_cons, Option.bind_eq_bind, Option.bind_eq_some_iff] at hread
      obtain ⟨record, hrecord, later, hlater, heq⟩ := hread
      cases heq
      intro other hother
      rcases List.mem_cons.mp hother with rfl | hother
      · exact h.kept hrecord
      · exact ih hlater other hother
  | _ => cases hread

end Json

open Json

/-! ## The records -/

/-- Ids are written as numbers. -/
theorem Service.id_faithful : Faithful (fun id : Nat => id ≤ maxWord) natural word? where
  exact := exact_natural
  read hid hform := by
    rw [rearranged_natural.mp hform]
    exact word?_natural hid
  kept := le_of_word?

/-- Tags are written as texts. -/
theorem Version.tag_faithful : Faithful (fun _ : String => True) text text? where
  exact := exact_text
  read _ hform := by
    rw [rearranged_text.mp hform]
    rfl
  kept _ := trivial

/-- The numbers of a service fit their words. -/
structure Service.InWords (s : Service) : Prop where
  id : s.id ≤ maxWord
  versionCount : s.versionCount ≤ maxWord
  createdAt : IsSigned s.createdAt
  updatedAt : IsSigned s.updatedAt

theorem Service.faithful : Faithful Service.InWords Service.toJson Service.ofJson? where
  exact s := by
    apply exact_ofFields
    simp [exact_natural, exact_text, exact_integer]
  read := by
    intro s form hs hform
    have hcolumns := Rearranged.allColumns?_of_leaves hform (by simp) (by simp)
    simp only [List.map_cons, List.map_nil] at hcolumns
    simp [ofJson?, hcolumns, text?_text, word?_natural hs.id, word?_natural hs.versionCount,
      signed?_integer hs.createdAt, signed?_integer hs.updatedAt]
  kept := by
    intro form s hread
    simp only [ofJson?, Option.bind_eq_bind, Option.bind_eq_some_iff] at hread
    obtain ⟨columns, -, hread⟩ := hread
    split at hread
    · simp only [Option.bind_eq_some_iff] at hread
      obtain ⟨id, hid, name, -, description, -, count, hcount, created, hcreated, updated, hupdated,
        heq⟩ := hread
      cases heq
      exact ⟨le_of_word? hid, le_of_word? hcount, isSigned_of_signed? hcreated,
        isSigned_of_signed? hupdated⟩
    · cases hread

/-- The numbers of a version fit their words. -/
structure Version.InWords (v : Version) : Prop where
  serviceId : v.serviceId ≤ maxWord
  createdAt : IsSigned v.createdAt
  updatedAt : IsSigned v.updatedAt

theorem Version.faithful : Faithful Version.InWords Version.toJson Version.ofJson? where
  exact v := by
    apply exact_ofFields
    simp [exact_natural, exact_text, exact_integer]
  read := by
    intro v form hv hform
    have hcolumns := Rearranged.allColumns?_of_leaves hform (by simp) (by simp)
    simp only [List.map_cons, List.map_nil] at hcolumns
    simp [ofJson?, hcolumns, text?_text, word?_natural hv.serviceId, signed?_integer hv.createdAt,
      signed?_integer hv.updatedAt]
  kept := by
    intro form v hread
    simp only [ofJson?, Option.bind_eq_bind, Option.bind_eq_some_iff] at hread
    obtain ⟨columns, -, hread⟩ := hread
    split at hread
    · simp only [Option.bind_eq_some_iff] at hread
      obtain ⟨id, hid, tag, -, info, -, created, hcreated, updated, hupdated, heq⟩ := hread
      cases heq
      exact ⟨le_of_word? hid, isSigned_of_signed? hcreated, isSigned_of_signed? hupdated⟩
    · cases hread

/-- The numbers of a page fit their words, and its records can be kept. -/
structure Page.InWords {α : Type} (Kept : α → Prop) (page : Page α) : Prop where
  data : ∀ record ∈ page.data, Kept record
  totalItems : page.totalItems ≤ maxWord
  pageSize : page.pageSize ≤ maxWord
  currentPage : page.currentPage ≤ maxWord

theorem Page.faithful {α : Type} {Kept : α → Prop} {encode : α → Json} {decode? : Json → Option α}
    (h : Faithful Kept encode decode?) :
    Faithful (Page.InWords Kept) (Page.toJson encode) (Page.ofJson? decode?) where
  exact page := by
    have hdata : (array (page.data.map encode)).Exact := by
      apply exact_array
      intro item hitem
      obtain ⟨record, -, rfl⟩ := List.mem_map.mp hitem
      exact h.exact record
    apply exact_ofFields
    simp [exact_natural, hdata]
  read := by
    intro page form hpage hform
    obtain ⟨forms, hforms, hcolumns⟩ := Rearranged.allColumns? hform (by simp)
    simp only [List.map_cons, List.map_nil] at hforms hcolumns
    cases hforms with
    | cons hdata hnumbers =>
      obtain ⟨items, hitems, rfl⟩ := rearranged_array.mp hdata
      obtain rfl := eq_of_forall₂_rearranged hnumbers (by simp)
      simp [ofJson?, hcolumns, h.list?_of_forms hpage.data hitems, word?_natural hpage.totalItems,
        word?_natural hpage.pageSize, word?_natural hpage.currentPage]
  kept := by
    intro form page hread
    simp only [ofJson?, Option.bind_eq_bind, Option.bind_eq_some_iff] at hread
    obtain ⟨columns, -, hread⟩ := hread
    split at hread
    · simp only [Option.bind_eq_some_iff] at hread
      obtain ⟨data, hdata, total, htotal, size, hsize, current, hcurrent, heq⟩ := hread
      cases heq
      exact ⟨h.kept_of_list? hdata, le_of_word? htotal, le_of_word? hsize, le_of_word? hcurrent⟩
    · cases hread

theorem NameFilter.faithful :
    Faithful (fun _ : NameFilter => True) NameFilter.toJson NameFilter.ofJson? where
  exact filter := by
    apply exact_ofFields
    simp [exact_text]
  read := by
    intro filter form _ hform
    have hcolumns := Rearranged.allColumns?_of_leaves hform (by simp) (by simp)
    simp only [List.map_cons, List.map_nil] at hcolumns
    simp [ofJson?, hcolumns, text?_text]
  kept _ := trivial

/-- The numbers of a range fit their words. -/
structure ScanRange.InWords (range : ScanRange) : Prop where
  offset : range.offset ≤ maxWord
  limit : range.limit ≤ maxWord

theorem ScanRange.faithful : Faithful ScanRange.InWords ScanRange.toJson ScanRange.ofJson? where
  exact range := by
    apply exact_ofFields
    simp [exact_natural]
  read := by
    intro range form hrange hform
    have hcolumns := Rearranged.allColumns?_of_leaves hform (by simp) (by simp)
    simp only [List.map_cons, List.map_nil] at hcolumns
    simp [ofJson?, hcolumns, word?_natural hrange.offset, word?_natural hrange.limit]
  kept := by
    intro form range hread
    simp only [ofJson?, Option.bind_eq_bind, Option.bind_eq_some_iff] at hread
    obtain ⟨columns, -, hread⟩ := hread
    split at hread
    · simp only [Option.bind_eq_some_iff] at hread
      obtain ⟨offset, hoffset, limit, hlimit, heq⟩ := hread
      cases heq
      exact ⟨le_of_word? hoffset, le_of_word? hlimit⟩
    · cases hread

/-- The numbers of a window fit their words. -/
structure PageWindow.InWords (w : PageWindow) : Prop where
  offset : w.offset ≤ maxWord
  limit : w.limit ≤ maxWord

theorem PageWindow.faithful : Faithful PageWindow.InWords PageWindow.toJson PageWindow.ofJson? where
  exact w := by
    apply exact_ofFields
    simp [exact_natural, exact_bool]
  read := by
    intro w form hw hform
    have hcolumns := Rearranged.allColumns?_of_leaves hform (by simp) (by simp)
    simp only [List.map_cons, List.map_nil] at hcolumns
    simp [ofJson?, hcolumns, bool?_bool, word?_natural hw.offset, word?_natural hw.limit]
  kept := by
    intro form w hread
    simp only [ofJson?, Option.bind_eq_bind, Option.bind_eq_some_iff] at hread
    obtain ⟨columns, -, hread⟩ := hread
    split at hread
    · simp only [Option.bind_eq_some_iff] at hread
      obtain ⟨offset, hoffset, limit, hlimit, reverse, -, empty, -, heq⟩ := hread
      cases heq
      exact ⟨le_of_word? hoffset, le_of_word? hlimit⟩
    · cases hread

/-- The numbers of a page request fit their words. -/
structure PageRequest.InWords (r : PageRequest) : Prop where
  currentPage : r.currentPage ≤ maxWord
  pageSize : r.pageSize ≤ maxWord

theorem PageRequest.faithful :
    Faithful PageRequest.InWords PageRequest.toJson PageRequest.ofJson? where
  exact r := by
    apply exact_ofFields
    simp [exact_natural, exact_bool]
  read := by
    intro r form hr hform
    have hcolumns := Rearranged.allColumns?_of_leaves hform (by simp) (by simp)
    simp only [List.map_cons, List.map_nil] at hcolumns
    simp [ofJson?, hcolumns, bool?_bool, word?_natural hr.currentPage, word?_natural hr.pageSize]
  kept := by
    intro form r hread
    simp only [ofJson?, Option.bind_eq_bind, Option.bind_eq_some_iff] at hread
    obtain ⟨columns, -, hread⟩ := hread
    split at hread
    · simp only [Option.bind_eq_some_iff] at hread
      obtain ⟨page, hpage, size, hsize, inverted, -, heq⟩ := hread
      cases heq
      exact ⟨le_of_word? hpage, le_of_word? hsize⟩
    · cases hread

/-- Whatever their numbers, strings and lists are, nothing of the records of the catalog, of their ids,
tags and pages, and of what a listing is asked by is lost in JSON. -/
theorem records_lossless :
    Lossless Service.InWords Service.toJson Service.ofJson? ∧
    Lossless Version.InWords Version.toJson Version.ofJson? ∧
    Lossless (Page.InWords Service.InWords) (Page.toJson Service.toJson)
      (Page.ofJson? Service.ofJson?) ∧
    Lossless (Page.InWords Version.InWords) (Page.toJson Version.toJson)
      (Page.ofJson? Version.ofJson?) ∧
    Lossless (fun id : Nat => id ≤ maxWord) natural word? ∧
    Lossless (fun _ : String => True) text text? ∧
    Lossless (fun _ : NameFilter => True) NameFilter.toJson NameFilter.ofJson? ∧
    Lossless ScanRange.InWords ScanRange.toJson ScanRange.ofJson? ∧
    Lossless PageWindow.InWords PageWindow.toJson PageWindow.ofJson? ∧
    Lossless PageRequest.InWords PageRequest.toJson PageRequest.ofJson? :=
  ⟨Service.faithful.lossless, Version.faithful.lossless, (Page.faithful Service.faithful).lossless,
    (Page.faithful Version.faithful).lossless, Service.id_faithful.lossless,
    Version.tag_faithful.lossless, NameFilter.faithful.lossless, ScanRange.faithful.lossless,
    PageWindow.faithful.lossless, PageRequest.faithful.lossless⟩

/-- A range that was sent with its columns the other way round, blanks between them and a further field. -/
theorem records_lossless_in_other_order :
    recordOfText? ScanRange.ofJson?
        "\n\x7b \"note\" : [1.5e3, null],\t\"limit\":18446744073709551615 ,\"o\\u0066fset\" : 7 \x7d" =
      some ⟨7, maxWord⟩ ∧
    recordOfText? ScanRange.ofJson? (ScanRange.toJson ⟨7, maxWord⟩).toText = some ⟨7, maxWord⟩ := by
  obtain ⟨-, -, -, -, -, -, -, hrange, -, -⟩ := records_lossless
  suffices hread : recordOfText? ScanRange.ofJson? _ = some ⟨7, maxWord⟩ from
    ⟨hread, (hrange.rewritten _ _ hread).2⟩
  decide +kernel

end ServiceRegistry
