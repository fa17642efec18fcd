import ServiceRegistry.Files.Disk

/-!
# What lies on a disk

A path that is made of names leads straight down to the place of these names.  Putting a file or a
directory where no directory is leaves every path leading where it led, so what is written to a path
is read from it again, and the directories around it stay.

* `Path.parts_ofSteps`: the parts of a path that is made of names.
* `Disk.locate_put`: where paths lead afterwards.
* `Disk.Stores`, `Disk.Stores.write`: a path at which a file lies, and that it lies there after it has
  been written.
* `Disk.stores_of_modify`: a file that has been changed or made at any path.
-/

namespace ServiceRegistry

theorem bind_eq_ok {ε α β : Type} {x : Except ε α} {next : α → Except ε β} {result : β} :
    x >>= next = .ok result ↔ ∃ value, x = .ok value ∧ next value = .ok result := by
  cases x with
  | error fault => exact ⟨nofun, nofun⟩
  | ok value => exact ⟨fun h => ⟨value, rfl, h⟩, fun ⟨_, rfl, h⟩ => h⟩

/-! ## Names and the paths made of them -/

namespace Path

/-- A name leads one step down: it has no slash and does not stand for a directory on the way. -/
structure IsName (part : String) : Prop where
  ne_empty : part ≠ ""
  ne_dot : part ≠ "."
  ne_dots : part ≠ ".."
  no_slash : '/' ∉ part.toList

theorem splitChars_of_no_slash {cs : List Char} (h : '/' ∉ cs) : splitChars cs = [cs] := by
  induction cs with
  | nil => rfl
  | cons c cs ih =>
    rw [List.mem_cons, not_or] at h
    rw [splitChars, if_neg (Ne.symm h.1), ih h.2]

theorem splitChars_append_slash {cs : List Char} (h : '/' ∉ cs) (rest : List Char) :
    splitChars (cs ++ '/' :: rest) = cs :: splitChars rest := by
  induction cs with
  | nil => simp [splitChars]
  | cons c cs ih =>
    rw [List.mem_cons, not_or] at h
    rw [List.cons_append, splitChars, if_neg (Ne.symm h.1), ih h.2]

theorem splitChars_joinChars {runs : List (List Char)} (hne : runs ≠ [])
    (h : ∀ run ∈ runs, '/' ∉ run) : splitChars (joinChars runs) = runs := by
  induction runs with
  | nil => exact absurd rfl hne
  | cons run rest ih =>
    have hrun := h run List.mem_cons_self
    cases rest with
    | nil => exact splitChars_of_no_slash hrun
    | cons next rest =>
      rw [joinChars, splitChars_append_slash hrun, ih (List.cons_ne_nil _ _)]
      exact fun other hmem => h other (List.mem_cons_of_mem _ hmem)

theorem no_slash_of_mem_splitChars {cs run : List Char} (h : run ∈ splitChars cs) : '/' ∉ run := by
  induction cs generalizing run with
  | nil =>
    rw [List.mem_singleton.mp h]
    exact List.not_mem_nil
  | cons c cs ih =>
    rw [splitChars] at h
    split at h
    · rcases List.mem_cons.mp h with rfl | hrest
      · exact List.not_mem_nil
      · exact ih hrest
    · rename_i hc
      split at h
      · rw [List.mem_singleton.mp h, List.mem_singleton]
        exact Ne.symm hc
      · rename_i part parts hparts
        rw [hparts] at ih
        rcases List.mem_cons.mp h with rfl | hrest
        · rw [List.mem_cons, not_or]
          exact ⟨Ne.symm hc, ih List.mem_cons_self⟩
        · exact ih (List.mem_cons_of_mem _ hrest)

theorem no_slash_of_mem_parts {path part : String} (h : part ∈ parts path) : '/' ∉ part.toList := by
  obtain ⟨run, hrun, rfl⟩ := List.mem_map.mp h
  rw [String.toList_ofList]
  exact no_slash_of_mem_splitChars hrun

/-- The parts of an absolute path are an empty one and the names that it is made of. -/
theorem parts_ofSteps {names : List String} (hne : names ≠ [])
    (h : ∀ name ∈ names, '/' ∉ name.toList) : parts (ofSteps true names) = "" :: names := by
  have hruns : ∀ run ∈ names.map String.toList, '/' ∉ run := by
    intro run hrun
    obtain ⟨name, hname, rfl⟩ := List.mem_map.mp hrun
    exact h name hname
  have hsplit := splitChars_joinChars (by simpa using hne) hruns
  have hpath : (ofSteps true names).toList = '/' :: joinChars (names.map String.toList) := by
    simp [ofSteps, join]
  rw [parts, hpath, splitChars, if_pos rfl, hsplit]
  simp [Function.comp_def]

theorem steps_ofSteps {names : List String} (h : ∀ name ∈ names, IsName name) :
    steps (ofSteps true names) = names := by
  cases names with
  | nil => rfl
  | cons first rest =>
    rw [steps, parts_ofSteps (List.cons_ne_nil _ _) fun name hname => (h name hname).no_slash]
    rw [List.filter_cons_of_neg (by simp)]
    apply List.filter_eq_self.mpr
    intro name hname
    simp [(h name hname).ne_empty, (h name hname).ne_dot]

theorem isAbsolute_ofSteps (names : List String) : isAbsolute (ofSteps true names) = true := by
  simp [isAbsolute, ofSteps]

theorem joinChars_concat_nil {runs : List (List Char)} (h : runs ≠ []) :
    joinChars (runs ++ [[]]) = joinChars runs ++ ['/'] := by
  induction runs with
  | nil => exact absurd rfl h
  | cons run rest ih =>
    cases rest with
    | nil => rfl
    | cons next rest =>
      have hrest := ih (List.cons_ne_nil _ _)
      simp only [List.cons_append, joinChars] at hrest ⊢
      rw [hrest, List.append_assoc]
      rfl

/-- A path whose last part is empty ends with a slash. -/
theorem endsWith_slash {path : String} {before : List String} (hne : path ≠ "")
    (h : parts path = before ++ [""]) : path.endsWith "/" = true := by
  have hjoin := join_parts path
  rw [h, join, List.map_append, List.map_singleton] at hjoin
  have hbefore : before.map String.toList ≠ [] := by
    intro hnil
    rw [hnil] at hjoin
    exact hne hjoin.symm
  have hchars : path.toList = joinChars (before.map String.toList) ++ ['/'] := by
    rw [← joinChars_concat_nil hbefore, ← hjoin, String.toList_ofList]
    rfl
  rw [String.endsWith_eq_endsWith_toSlice, String.Slice.endsWith_string_iff, String.copy_toSlice, hchars]
  exact List.suffix_append _ _

end Path

namespace Disk

variable {disk : Disk} {place : Place} {entry : DiskEntry}

/-! ## Entries -/

@[simp] theorem entry?_put_self (hplace : place ≠ []) :
    Disk.entry? (disk.put place entry) place = some entry := by
  cases place with
  | nil => exact absurd rfl hplace
  | cons name around => simp [put, entry?]

theorem entry?_put_of_ne {other : Place} (h : other ≠ place) :
    Disk.entry? (disk.put place entry) other = disk.entry? other := by
  cases other with
  | nil => rfl
  | cons name around =>
    have hlookup : ∀ entries : List (Place × DiskEntry),
        (entries.filter fun old => old.1 != place).lookup (name :: around) =
          entries.lookup (name :: around) := by
      intro entries
      induction entries with
      | nil => rfl
      | cons old entries ih =>
        obtain ⟨at', what⟩ := old
        by_cases hold : at' = place
        · have hother : ¬ (name :: around) = at' := fun heq => h (heq.trans hold)
          simp [hold, List.lookup_cons, beq_eq_false_iff_ne.mpr h, ih]
        · simp [hold, List.lookup_cons, ih]
    simp [put, entry?, List.lookup_cons, beq_eq_false_iff_ne.mpr h, hlookup]

/-! ## Following paths on a disk with one more entry -/

/-- Nothing but a file lies at a place. -/
def Free (disk : Disk) (place : Place) : Prop := disk.entry? place ≠ some .directory

theorem Free.ne_nil (h : disk.Free place) : place ≠ [] := fun heq => h (heq ▸ rfl)

/-- A place stays free of directories. -/
theorem Free.put_file {other : Place} (h : disk.Free other) (hfree : disk.Free place) (content : ByteArray) :
    (disk.put place (.file content)).Free other := by
  by_cases hsame : other = place
  · subst hsame
    rw [Free, entry?_put_self hfree.ne_nil]
    exact nofun
  · rw [Free, entry?_put_of_ne hsame]
    exact h

theorem child_put (hfree : disk.Free place) (entry : DiskEntry) {around next : Place} {part : String}
    (h : disk.child around part = .ok next) : (disk.put place entry).child around part = .ok next := by
  have hdirectory : disk.entry? around = some .directory := by
    unfold child at h
    split at h
    · cases h
    · cases h
    · assumption
  have hne : around ≠ place := fun heq => hfree (heq ▸ hdirectory)
  rw [child, entry?_put_of_ne hne]
  exact h

theorem follow_put (hfree : disk.Free place) (entry : DiskEntry) {parts : List String}
    {around last : Place} (h : parts.foldlM disk.child around = .ok last) :
    parts.foldlM (disk.put place entry).child around = .ok last := by
  induction parts generalizing around with
  | nil => exact h
  | cons part parts ih =>
    obtain ⟨next, hnext, hrest⟩ := bind_eq_ok.mp h
    exact bind_eq_ok.mpr ⟨next, child_put hfree entry hnext, ih hrest⟩

/-- A path leads where it led. -/
theorem locate_put (hfree : disk.Free place) (entry : DiskEntry) {path : String} {found : Place}
    (h : disk.locate path = .ok found) : (disk.put place entry).locate path = .ok found := by
  obtain ⟨origin, horigin, hfollowed⟩ := bind_eq_ok.mp h
  exact bind_eq_ok.mpr ⟨origin, horigin, follow_put hfree entry hfollowed⟩

theorem find_eq {path : String} {found : Place} (h : disk.locate path = .ok found) :
    disk.find path = match disk.entry? found with
      | some entry => .ok entry
      | none => .error .noEntry := by
  rw [find, h]
  rfl

theorem read_eq_ok {path : String} {content : ByteArray} (h : disk.read path = .ok content) :
    ∃ found, disk.locate path = .ok found ∧ disk.entry? found = some (.file content) := by
  obtain ⟨entry, hfind, hentry⟩ := bind_eq_ok.mp h
  cases entry with
  | directory => cases hentry
  | file found =>
    obtain rfl := Except.ok.inj hentry
    obtain ⟨place, hlocate, hplace⟩ := bind_eq_ok.mp hfind
    refine ⟨place, hlocate, ?_⟩
    split at hplace
    · rename_i entry hthere
      obtain rfl := Except.ok.inj hplace
      exact hthere
    · cases hplace

theorem isDirectory_iff {path : String} :
    disk.isDirectory path = true ↔
      ∃ found, disk.locate path = .ok found ∧ disk.entry? found = some .directory := by
  unfold isDirectory
  cases hlocate : disk.locate path with
  | error failure =>
    have hfind : disk.find path = .error failure := by
      rw [find, hlocate]
      rfl
    simp [hfind]
  | ok found =>
    rw [find_eq hlocate]
    cases hentry : disk.entry? found with
    | none => simp [hentry]
    | some entry => cases entry <;> simp [hentry]

/-- A directory stays one. -/
theorem isDirectory_put (hfree : disk.Free place) (entry : DiskEntry) {path : String}
    (h : disk.isDirectory path = true) : (disk.put place entry).isDirectory path = true := by
  obtain ⟨found, hlocate, hentry⟩ := isDirectory_iff.mp h
  have hne : found ≠ place := fun heq => hfree (heq ▸ hentry)
  refine isDirectory_iff.mpr ⟨found, locate_put hfree entry hlocate, ?_⟩
  rw [entry?_put_of_ne hne]
  exact hentry

/-! ## Paths made of names -/

theorem child_name {around next : Place} {name : String} (hname : Path.IsName name)
    (h : disk.child around name = .ok next) : next = name :: around := by
  unfold child at h
  simp only [hname.ne_empty, hname.ne_dot, hname.ne_dots, or_self, if_false] at h
  split at h
  · cases h
  · cases h
  · split at h
    · cases h
    · exact (Except.ok.inj h).symm

/-- Names lead straight down. -/
theorem follow_names {names : List String} (hnames : ∀ name ∈ names, Path.IsName name)
    {around last : Place} (h : names.foldlM disk.child around = .ok last) :
    last = names.reverse ++ around := by
  induction names generalizing around with
  | nil => exact (Except.ok.inj h).symm
  | cons name names ih =>
    obtain ⟨next, hnext, hrest⟩ := bind_eq_ok.mp h
    have hlast := ih (fun other hmem => hnames other (List.mem_cons_of_mem _ hmem)) hrest
    rw [hlast, child_name (hnames name List.mem_cons_self) hnext]
    simp

theorem origin_of_absolute {path : String} (habsolute : Path.isAbsolute path = true) {origin : Place}
    (h : disk.origin path = .ok origin) : origin = [] := by
  unfold Disk.origin at h
  rw [if_pos habsolute] at h
  split at h
  · cases h
  · split at h
    · cases h
    · split at h
      · cases h
      · exact (Except.ok.inj h).symm

/-- A path that is made of names leads to the place of these names. -/
theorem locate_names {names : List String} (hne : names ≠ [])
    (hnames : ∀ name ∈ names, Path.IsName name) {found : Place}
    (h : disk.locate (Path.ofSteps true names) = .ok found) : found = names.reverse := by
  obtain ⟨origin, horigin, hfollowed⟩ := bind_eq_ok.mp h
  rw [origin_of_absolute (Path.isAbsolute_ofSteps names) horigin,
    Path.parts_ofSteps hne fun name hname => (hnames name hname).no_slash] at hfollowed
  have hdown := follow_names hnames hfollowed
  simpa using hdown

/-- Where a file is looked for, and what is asked of the last part of its path. -/
theorem locateFile_eq {path : String} {before : List String} {last : String}
    (hparts : Path.parts path = before ++ [last]) (hlast : last ≠ "") :
    disk.locateFile path = disk.locate path >>= fun place =>
      if path.endsWith "/" ∨ last = "." ∨ last = ".." then .error .isDirectory else .ok place := by
  have hreversed : (Path.parts path).reverse.dropWhile (· == "") = last :: before.reverse := by
    rw [hparts]
    simp [hlast]
  rw [locateFile, locate, hreversed, hparts]
  simp [List.foldlM_append]

theorem origin_ne_empty {path : String} {origin : Place} (h : disk.origin path = .ok origin) :
    path ≠ "" := by
  rintro rfl
  cases h

/-- A file is looked for where its path leads. -/
theorem locate_of_locateFile {path : String} {found : Place} (h : disk.locateFile path = .ok found) :
    disk.locate path = .ok found := by
  have hparts : Path.parts path ≠ [] := by
    simp [Path.parts, Path.splitChars_ne_nil]
  obtain ⟨before, last, hsplit⟩ : ∃ before last, Path.parts path = before ++ [last] :=
    ⟨_, _, (List.dropLast_concat_getLast hparts).symm⟩
  by_cases hlast : last = ""
  · -- Such a path ends with a slash, and leads to no file.
    subst hlast
    unfold locateFile at h
    obtain ⟨origin, horigin, hfollowed⟩ := bind_eq_ok.mp h
    have hslash := Path.endsWith_slash (origin_ne_empty horigin) hsplit
    split at hfollowed
    · cases hfollowed
    · obtain ⟨around, -, hrest⟩ := bind_eq_ok.mp hfollowed
      obtain ⟨next, -, hfile⟩ := bind_eq_ok.mp hrest
      rw [if_pos (Or.inl hslash)] at hfile
      cases hfile
  · rw [locateFile_eq hsplit hlast] at h
    obtain ⟨place, hplace, hfile⟩ := bind_eq_ok.mp h
    split at hfile
    · cases hfile
    · rw [hplace]
      exact hfile

theorem locateFile_put (hfree : disk.Free place) (entry : DiskEntry) {path : String} {found : Place}
    (h : disk.locateFile path = .ok found) : (disk.put place entry).locateFile path = .ok found := by
  unfold locateFile at h ⊢
  obtain ⟨origin, horigin, hfollowed⟩ := bind_eq_ok.mp h
  refine bind_eq_ok.mpr ⟨origin, horigin, ?_⟩
  split at hfollowed
  · cases hfollowed
  · obtain ⟨around, haround, hlast⟩ := bind_eq_ok.mp hfollowed
    obtain ⟨next, hnext, hfile⟩ := bind_eq_ok.mp hlast
    exact bind_eq_ok.mpr ⟨around, follow_put hfree entry haround,
      bind_eq_ok.mpr ⟨next, child_put hfree entry hnext, hfile⟩⟩

/-! ## Files -/

/-- A file with this content lies at the end of a path, and can be written there. -/
structure Stores (disk : Disk) (path : String) (place : Place) (content : ByteArray) : Prop where
  writable : disk.locateFile path = .ok place
  readable : disk.locate path = .ok place
  content : disk.entry? place = some (.file content)

namespace Stores

variable {path : String} {content : ByteArray}

theorem free (h : disk.Stores path place content) : disk.Free place := by
  rw [Free, h.content]
  exact nofun

theorem read (h : disk.Stores path place content) : disk.read path = .ok content := by
  rw [Disk.read, find_eq h.readable, h.content]
  rfl

/-- A file is changed where it lies. -/
theorem modify (h : disk.Stores path place content) (change : ByteArray → ByteArray) :
    disk.modify path change = .ok (disk.put place (.file (change content))) := by
  refine bind_eq_ok.mpr ⟨place, h.writable, ?_⟩
  rw [h.content]

theorem write (h : disk.Stores path place content) (more : ByteArray) :
    disk.write path more = .ok (disk.put place (.file more)) := h.modify _

theorem put (h : disk.Stores path place content) (more : ByteArray) :
    (disk.put place (.file more)).Stores path place more :=
  ⟨locateFile_put h.free _ h.writable, locate_put h.free _ h.readable, entry?_put_self h.free.ne_nil⟩

/-- What is put elsewhere is not seen. -/
theorem put_of_ne (h : disk.Stores path place content) {other : Place} (hfree : disk.Free other)
    (hne : place ≠ other) (entry : DiskEntry) : (disk.put other entry).Stores path place content :=
  ⟨locateFile_put hfree entry h.writable, locate_put hfree entry h.readable,
    (entry?_put_of_ne hne).trans h.content⟩

end Stores

/-- A file that has been changed was there, or has been made. -/
theorem modify_ok {path : String} {change : ByteArray → ByteArray} {after : Disk}
    (h : disk.modify path change = .ok after) :
    ∃ found old, disk.locateFile path = .ok found ∧ after = disk.put found (.file (change old)) ∧
      (disk.entry? found = some (.file old) ∨ disk.entry? found = none ∧ old = .empty) := by
  obtain ⟨found, hfile, hmodified⟩ := bind_eq_ok.mp h
  cases hentry : disk.entry? found with
  | none =>
    rw [hentry] at hmodified
    exact ⟨found, .empty, hfile, (Except.ok.inj hmodified).symm, Or.inr ⟨hentry, rfl⟩⟩
  | some entry =>
    rw [hentry] at hmodified
    cases entry with
    | directory => cases hmodified
    | file old => exact ⟨found, old, hfile, (Except.ok.inj hmodified).symm, Or.inl hentry⟩

theorem modify_of_free {path : String} {found : Place} (hfile : disk.locateFile path = .ok found)
    (hfree : disk.Free found) (change : ByteArray → ByteArray) :
    ∃ content, disk.modify path change = .ok (disk.put found (.file content)) := by
  cases hentry : disk.entry? found with
  | none => exact ⟨change .empty, bind_eq_ok.mpr ⟨found, hfile, by rw [hentry]⟩⟩
  | some entry =>
    cases entry with
    | directory => exact absurd hentry hfree
    | file old => exact ⟨change old, bind_eq_ok.mpr ⟨found, hfile, by rw [hentry]⟩⟩

theorem free_of_file_or_none {old : ByteArray}
    (h : disk.entry? place = some (.file old) ∨ disk.entry? place = none ∧ old = .empty) :
    disk.Free place := by
  rcases h with hentry | ⟨hentry, -⟩ <;> simp [Free, hentry]

/-- Making sure that a file is there changes no files. -/
theorem Stores.of_modify_same {path other : String} {content : ByteArray} {change : ByteArray → ByteArray}
    {after : Disk} (h : disk.Stores path place content) (hmodify : disk.modify other change = .ok after)
    (hchange : ∀ content, change content = content) : after.Stores path place content := by
  obtain ⟨found, old, -, rfl, hentry⟩ := modify_ok hmodify
  by_cases hplace : place = found
  · subst hplace
    rcases hentry with hentry | ⟨hentry, -⟩
    · obtain rfl : content = old := by simpa using h.content.symm.trans hentry
      rw [hchange]
      exact h.put content
    · rw [h.content] at hentry
      cases hentry
  · exact h.put_of_ne (free_of_file_or_none hentry) hplace _

/-- A file that has been changed lies at the end of its path with its new content.  What it held before is
what could be read there, or nothing if it had to be made. -/
theorem stores_of_modify {path : String} {change : ByteArray → ByteArray} {after : Disk}
    (h : disk.modify path change = .ok after) :
    ∃ found old, disk.Free found ∧ after = disk.put found (.file (change old)) ∧
      after.Stores path found (change old) ∧
      (disk.read path = .ok old ∨ disk.read path = .error .noEntry ∧ old = .empty) := by
  obtain ⟨found, old, hfile, rfl, hentry⟩ := modify_ok h
  have hlocate := locate_of_locateFile hfile
  have hfree := free_of_file_or_none hentry
  refine ⟨found, old, hfree, rfl, ⟨locateFile_put hfree _ hfile, locate_put hfree _ hlocate,
    entry?_put_self hfree.ne_nil⟩, ?_⟩
  rw [Disk.read, find_eq hlocate]
  rcases hentry with hentry | ⟨hentry, rfl⟩
  · rw [hentry]
    exact Or.inl rfl
  · rw [hentry]
    exact Or.inr ⟨rfl, rfl⟩

/-- What is written to a path that is made of names lies there afterwards. -/
theorem stores_of_write {names : List String} (hne : names ≠ [])
    (hnames : ∀ name ∈ names, Path.IsName name) {content : ByteArray} {after : Disk}
    (h : disk.write (Path.ofSteps true names) content = .ok after) :
    disk.Free names.reverse ∧ after = disk.put names.reverse (.file content) ∧
      after.Stores (Path.ofSteps true names) names.reverse content := by
  obtain ⟨found, old, hfree, hafter, hstores, -⟩ := stores_of_modify h
  have hplace := locate_names hne hnames hstores.readable
  subst hplace
  exact ⟨hfree, hafter, hstores⟩

/-! ## Directories -/

theorem makeDirectory_eq_ok {path : String} {after : Disk} (h : disk.makeDirectory path = .ok after) :
    after.isDirectory path = true ∧ after.current = disk.current := by
  obtain ⟨found, hfound, hmade⟩ := bind_eq_ok.mp h
  split at hmade
  · cases hmade
  · rename_i hnone
    have hfree : disk.Free found := by
      rw [Free, hnone]
      exact nofun
    rw [← Except.ok.inj hmade]
    exact ⟨isDirectory_iff.mpr ⟨found, locate_put hfree _ hfound, entry?_put_self hfree.ne_nil⟩, rfl⟩

theorem makeDirectory_of_isDirectory {path : String} (h : disk.isDirectory path = true) :
    disk.makeDirectory path = .error .alreadyExists := by
  obtain ⟨found, hfound, hentry⟩ := isDirectory_iff.mp h
  rw [makeDirectory, hfound]
  change (match disk.entry? found with
    | some _ => Except.error FileFailure.alreadyExists
    | none => .ok (disk.put found .directory)) = _
  rw [hentry]

end Disk

end ServiceRegistry
