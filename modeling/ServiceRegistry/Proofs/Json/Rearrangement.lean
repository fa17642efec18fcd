import Mathlib.Data.List.Forall2
import Mathlib.Data.List.Nodup
import Mathlib.Data.List.Perm.Basic
import ServiceRegistry.Json.Shape

/-!
# Rearranged objects

The order of the fields of an object says nothing, and neither do fields that nobody asks for.  A value
may thus be sent in other forms than the one that it is written in: the columns of every record in any
order and with further fields among them, also in the records of a list.

* `Json.Rearranged` relates a value to its forms.
* `Json.Rearranged.allColumns?`: a form of a record has the columns of the record.
-/

namespace ServiceRegistry.Json

/-- The value and a form of it: fields may stand in another order, with further ones among them. -/
inductive Rearranged : Json → Json → Prop
  | same (value : Json) : Rearranged value value
  | items {items forms : List Json} (hforms : List.Forall₂ Rearranged items forms) :
    Rearranged (array items) (array forms)
  | fields {columns : List (String × Json)} {forms : List Json} {named : List (String × Json)}
    (hforms : List.Forall₂ Rearranged (columns.map Prod.snd) forms)
    (hnamed : (named.filter fun field => (columns.map Prod.fst).contains field.1).Perm
      ((columns.map Prod.fst).zip forms)) :
    Rearranged (ofFields columns) (ofFields named)

theorem ofFields_injective : Function.Injective ofFields := by
  intro first second h
  have hkey : Function.Injective fun field : String × Json => (some field.1, field.2) := by
    rintro ⟨key, value⟩ ⟨key', value'⟩ heq
    simpa using heq
  exact List.map_injective_iff.mpr hkey (object.inj h)

/-! ## The columns of a form -/

variable {names : List String} {forms : List Json} {named : List (String × Json)}

theorem filter_zip_name (hnames : names.Nodup) {name : String} {form : Json}
    (hmem : (name, form) ∈ names.zip forms) :
    ((names.zip forms).filter fun field => field.1 == name) = [(name, form)] := by
  induction names generalizing forms with
  | nil => cases hmem
  | cons first names ih =>
    cases forms with
    | nil => cases hmem
    | cons firstForm forms =>
      obtain ⟨hfirst, hlater⟩ := List.nodup_cons.mp hnames
      rw [List.zip_cons_cons] at hmem ⊢
      rcases List.mem_cons.mp hmem with heq | hmem
      · cases heq
        have hothers : ∀ field ∈ names.zip forms, ¬ (field.1 == name) = true := by
          rintro ⟨other, value⟩ hfield heq
          rw [beq_iff_eq] at heq
          exact hfirst (heq ▸ (List.of_mem_zip hfield).1)
        rw [List.filter_cons, List.filter_eq_nil_iff.mpr hothers, if_pos (beq_self_eq_true name)]
      · have hne : ¬ (first == name) = true := by
          rw [beq_iff_eq]
          rintro rfl
          exact hfirst (List.of_mem_zip hmem).1
        rw [List.filter_cons, if_neg hne]
        exact ih hlater hmem

/-- The only field with the name of a column is that column. -/
theorem filter_name (hnames : names.Nodup)
    (hnamed : (named.filter fun field => names.contains field.1).Perm (names.zip forms)) {name : String}
    {form : Json} (hmem : (name, form) ∈ names.zip forms) :
    (named.filter fun field => field.1 == name) = [(name, form)] := by
  have hthese := hnamed.filter fun field => field.1 == name
  rw [List.filter_filter, filter_zip_name hnames hmem] at hthese
  rw [← List.perm_singleton.mp hthese]
  apply List.filter_congr
  intro field _
  by_cases hfield : field.1 = name
  · have hname : field.1 ∈ names := hfield ▸ (List.of_mem_zip hmem).1
    simp [hname]
  · simp [hfield]

theorem mapM_key (named : List (String × Json)) :
    ((named.map fun field => (some field.1, field.2)).mapM fun field : Option String × Json =>
      field.1.map (·, field.2)) = some named := by
  induction named with
  | nil => rfl
  | cons field named ih => simp [List.mapM_cons, ih]

theorem mapM_id_some (forms : List Json) : (forms.map some).mapM id = some forms := by
  induction forms with
  | nil => rfl
  | cons form forms ih => simp [List.mapM_cons, ih]

/-- The columns of a record are found in any order and among any other fields. -/
theorem allColumns?_ofFields (hnames : names.Nodup) (hlength : names.length = forms.length)
    (hnamed : (named.filter fun field => names.contains field.1).Perm (names.zip forms)) :
    (ofFields named).allColumns? names = some forms := by
  have hkeys : (names.zip forms).map Prod.fst = names := List.map_fst_zip (Nat.le_of_eq hlength)
  have hvalues : (names.zip forms).map Prod.snd = forms := List.map_snd_zip (Nat.le_of_eq hlength.symm)
  have honce : ¬ (names.any fun name => 1 < (named.filter fun field => field.1 == name).length) = true := by
    rw [List.any_eq_true]
    rintro ⟨name, hname, hmany⟩
    rw [← hkeys] at hname
    obtain ⟨⟨name, form⟩, hmem, rfl⟩ := List.mem_map.mp hname
    rw [filter_name hnames hnamed hmem] at hmany
    cases hmany
  have hfound : (names.map fun name => (named.find? fun field => field.1 == name).map (·.2)) =
      forms.map some := by
    conv => lhs; rw [← hkeys]
    conv => rhs; rw [← hvalues]
    rw [List.map_map, List.map_map]
    apply List.map_congr_left
    rintro ⟨name, form⟩ hmem
    simp [← List.head?_filter, filter_name hnames hnamed hmem]
  have hcolumns : (ofFields named).columns? false names = some (forms.map some) := by
    simp only [columns?, ofFields, columnsOfFields?]
    rw [mapM_key named]
    simp only [Option.bind_eq_bind, Option.bind_some, Bool.false_and, Bool.false_eq_true, if_false,
      if_neg honce, hfound]
  rw [allColumns?, hcolumns]
  exact mapM_id_some forms

theorem rearranged_same (values : List Json) : List.Forall₂ Rearranged values values :=
  List.forall₂_same.mpr fun value _ => .same value

/-- The columns of a form are forms of the columns. -/
theorem Rearranged.allColumns? {columns : List (String × Json)} {form : Json}
    (h : Rearranged (ofFields columns) form) (hnames : (columns.map Prod.fst).Nodup) :
    ∃ forms, List.Forall₂ Rearranged (columns.map Prod.snd) forms ∧
      form.allColumns? (columns.map Prod.fst) = some forms := by
  generalize hvalue : ofFields columns = value at h
  cases h with
  | same =>
    refine ⟨columns.map Prod.snd, rearranged_same _, ?_⟩
    rw [← hvalue]
    apply allColumns?_ofFields hnames (by simp)
    have hall : ∀ field ∈ columns, (columns.map Prod.fst).contains field.1 = true := by
      intro field hfield
      exact List.contains_iff_mem.mpr (List.mem_map_of_mem hfield)
    rw [List.filter_eq_self.mpr hall, List.zip_map']
    simp
  | items => cases hvalue
  | fields hforms hnamed =>
    obtain rfl := ofFields_injective hvalue
    refine ⟨_, hforms, allColumns?_ofFields hnames ?_ hnamed⟩
    simpa using hforms.length_eq

/-! ## Forms of single values -/

variable {form : Json}

/-- A value without parts has no other form. -/
theorem Rearranged.eq_of_leaf {value : Json} (h : Rearranged value form)
    (harray : ∀ items, value ≠ array items) (hobject : ∀ fields, value ≠ object fields) :
    form = value := by
  cases h with
  | same => rfl
  | items => exact absurd rfl (harray _)
  | fields => exact absurd rfl (hobject _)

@[simp] theorem rearranged_integer {n : Int} : Rearranged (integer n) form ↔ form = integer n :=
  ⟨fun h => h.eq_of_leaf nofun nofun, fun h => h ▸ .same _⟩

@[simp] theorem rearranged_natural {n : Nat} : Rearranged (natural n) form ↔ form = natural n :=
  rearranged_integer

@[simp] theorem rearranged_text {content : String} : Rearranged (text content) form ↔ form = text content :=
  ⟨fun h => h.eq_of_leaf nofun nofun, fun h => h ▸ .same _⟩

@[simp] theorem rearranged_bool {b : Bool} : Rearranged (bool b) form ↔ form = bool b :=
  ⟨fun h => h.eq_of_leaf nofun nofun, fun h => h ▸ .same _⟩

theorem rearranged_array {items : List Json} :
    Rearranged (array items) form ↔ ∃ forms, List.Forall₂ Rearranged items forms ∧ form = array forms := by
  constructor
  · intro h
    generalize hvalue : array items = value at h
    cases h with
    | same => exact ⟨items, rearranged_same _, hvalue.symm⟩
    | items hforms =>
      cases hvalue
      exact ⟨_, hforms, rfl⟩
    | fields => cases hvalue
  · rintro ⟨forms, hforms, rfl⟩
    exact .items hforms

theorem eq_of_forall₂_rearranged {values forms : List Json} (h : List.Forall₂ Rearranged values forms)
    (hleaves : ∀ value ∈ values, ∀ form, Rearranged value form → form = value) : forms = values := by
  induction h with
  | nil => rfl
  | cons hform _ ih =>
    rw [hleaves _ List.mem_cons_self _ hform,
      ih fun value hmem => hleaves value (List.mem_cons_of_mem _ hmem)]

/-- A form of a record of single values has the same columns. -/
theorem Rearranged.allColumns?_of_leaves {columns : List (String × Json)}
    (h : Rearranged (ofFields columns) form) (hnames : (columns.map Prod.fst).Nodup)
    (hleaves : ∀ value ∈ columns.map Prod.snd, ∀ form, Rearranged value form → form = value) :
    form.allColumns? (columns.map Prod.fst) = some (columns.map Prod.snd) := by
  obtain ⟨forms, hforms, hcolumns⟩ := h.allColumns? hnames
  rw [hcolumns, eq_of_forall₂_rearranged hforms hleaves]

end ServiceRegistry.Json
