import ServiceRegistry.Proofs.Files.Disk
import ServiceRegistry.Settings
import ServiceRegistry.Storage.Opening

/-!
# Settings that go together and the database that they describe

A database that is opened looks at its path once more.  Both looks ask the same of a text
(`checkPath_eq_ok_iff`), but `Settings.check` shows it the path without the blanks around it and
opening shows it the path as it is.  Nor is there a bound on how long to wait for a lock, which the
engine has.

* `Settings.readiness`: what the check leaves for opening to refuse.  Without blanks around the path
  and with a wait that the engine can keep, only a directory in the file's place is left.
* `Settings.check_misses_padding`: blanks before a short name, and a wait that is too long, pass the
  check.
-/

namespace ServiceRegistry

open DatabaseSettings

/-! ## Two looks at one path -/

theorem requireSetting_eq_ok_iff {condition : Prop} [Decidable condition] {detail : String} :
    requireSetting condition detail = .ok () ↔ condition := by
  unfold requireSetting
  split <;> simp [*]

theorem DatabaseSettings.pathFault?_eq_none_iff {path : String} :
    pathFault? path = none ↔ path ≠ "" ∧ ¬Path.isLong path ∧ ¬Path.hasLongPart path := by
  unfold pathFault?
  split
  · simp [*]
  · split
    · simp [*]
    · split <;> simp [*]

/-- The check of settings finds a fault with a path when opening would with its trimmed text. -/
theorem checkPath_eq_ok_iff {setting path : String} :
    checkPath setting path = .ok () ↔ pathFault? (Text.trim path) = none := by
  rw [pathFault?_eq_none_iff]
  constructor
  · intro h
    obtain ⟨_, hsome, h⟩ := bind_eq_ok.mp h
    obtain ⟨_, hshort, hparts⟩ := bind_eq_ok.mp h
    exact ⟨requireSetting_eq_ok_iff.mp hsome, requireSetting_eq_ok_iff.mp hshort,
      requireSetting_eq_ok_iff.mp hparts⟩
  · intro ⟨hsome, hshort, hparts⟩
    exact bind_eq_ok.mpr ⟨(), requireSetting_eq_ok_iff.mpr hsome,
      bind_eq_ok.mpr ⟨(), requireSetting_eq_ok_iff.mpr hshort,
        requireSetting_eq_ok_iff.mpr hparts⟩⟩

namespace StoreSettings

/-- What is asked of the settings of a store: nothing, unless it is a database. -/
theorem check_eq_ok_iff {s : StoreSettings} :
    s.check = .ok () ↔ ∀ d, s.database? = some d →
      pathFault? (Text.trim d.path) = none ∧ 0 < d.busyTimeout := by
  unfold check database?
  cases s.kind with
  | memory => simp
  | database =>
    simp only [Option.some.injEq, forall_eq']
    rw [bind_eq_ok, ← checkPath_eq_ok_iff]
    exact ⟨fun ⟨_, hpath, htime⟩ => ⟨hpath, requireSetting_eq_ok_iff.mp htime⟩,
      fun ⟨hpath, htime⟩ => ⟨(), hpath, requireSetting_eq_ok_iff.mpr htime⟩⟩

end StoreSettings

/-- Where nothing but the store is set, only the store is in question. -/
theorem Settings.check_store_alone {store : StoreSettings} (h : store.check = .ok ()) :
    ({ store := store } : Settings).check = .ok () :=
  bind_eq_ok.mpr ⟨(), h, rfl⟩

theorem Settings.check_store {s : Settings} (h : s.check = .ok ()) : s.store.check = .ok () :=
  (bind_eq_ok.mp h).choose_spec.1

/-! ## What opening refuses -/

namespace Database

/-- Refused where a directory lies at the path. -/
def directoryFault : DatabaseFault := ⟨.invalid, "store path must be a file, not a directory"⟩

/-- How opening goes on once nothing speaks against the path. -/
def openCleared {m : Type → Type} [Monad m] (host : Host m) (settings : DatabaseSettings) :
    m (Except OpeningFault OpenDatabase) := do
  match ← host.makeDirectories (Path.isAbsolute settings.path)
      (Path.steps settings.path).reverse.tail with
  | .error failure => return .error (.database ⟨.io, failure.message⟩)
  | .ok () =>
    if settings.path = transientPath then return (start settings {}).map (⟨none, ·⟩)
    else if settings.path.toList.contains '\x00' then
      return .error (engineFault "nul byte found in provided data")
    else openFile host settings

variable {m : Type → Type} [Monad m] (host : Host m) {settings : DatabaseSettings}

/-- Of a path whose text is in order, only a directory in its place is refused. -/
theorem openAt_of_no_pathFault (h : pathFault? settings.path = none) :
    openAt host settings = (do
      if ← host.isDirectory settings.path then return .error (.database directoryFault)
      else openCleared host settings) := by
  simp only [openAt, h]
  rfl

theorem start_too_long_iff {tables : Database} :
    start settings tables = .error .timeoutTooLong ↔ maxBusyTimeout < settings.busyTimeout := by
  unfold start
  split
  · simp [*]
  · split <;> simp [*]

end Database

namespace Settings

/-- Settings that go together name a path and a wait.  The path's trimmed text is in order, so opening
can find fault with the path as it is only for its length or the length of a part, and only if there
are blanks around it.  Without them opening refuses nothing but a directory in the file's place, and
the settings are sound if and only if the wait is one that the engine can keep; the engine refuses
all others whatever the file holds. -/
theorem readiness {s : Settings} {d : DatabaseSettings} (hcheck : s.check = .ok ())
    (hdatabase : s.store.database? = some d) :
    d.path ≠ "" ∧ 0 < d.busyTimeout ∧ pathFault? (Text.trim d.path) = none ∧
      (∀ fault, pathFault? d.path = some fault → Text.trim d.path ≠ d.path ∧
        (Path.isLong d.path ∨ Path.hasLongPart d.path)) ∧
      (Text.trim d.path = d.path →
        (d.Sound ↔ d.busyTimeout ≤ maxBusyTimeout) ∧
        ∀ (m : Type → Type) [Monad m] (host : Host m),
          Database.openAt host d = (do
            if ← host.isDirectory d.path then return .error (.database Database.directoryFault)
            else Database.openCleared host d)) ∧
      (∀ tables, Database.start d tables = .error .timeoutTooLong ↔
        maxBusyTimeout < d.busyTimeout) := by
  obtain ⟨htrimmed, htime⟩ := StoreSettings.check_eq_ok_iff.mp (check_store hcheck) d hdatabase
  have hpath : d.path ≠ "" := by
    intro hempty
    rw [hempty] at htrimmed
    exact (pathFault?_eq_none_iff.mp htrimmed).1 rfl
  refine ⟨hpath, htime, htrimmed, ?_, ?_, fun _ => Database.start_too_long_iff⟩
  · intro fault hfault
    refine ⟨fun hplain => ?_, ?_⟩
    · rw [hplain, hfault] at htrimmed
      cases htrimmed
    · by_cases hshort : Path.isLong d.path ∨ Path.hasLongPart d.path
      · exact hshort
      · rw [pathFault?_eq_none_iff.mpr ⟨hpath, not_or.mp hshort⟩] at hfault
        cases hfault
  · intro hplain
    rw [hplain] at htrimmed
    exact ⟨and_iff_right htrimmed, fun _ _ host => Database.openAt_of_no_pathFault host htrimmed⟩

/-- With the defaults nothing but a directory in the file's place is refused. -/
theorem readiness_of_defaults : ({} : Settings).check = .ok () ∧
    ({} : Settings).store.database? = some { path := "service-catalog.db" } ∧
    ({ path := "service-catalog.db" } : DatabaseSettings).Sound := by
  have hcheck : ({} : Settings).check = .ok () := by rfl
  have h := readiness hcheck rfl
  have hplain : Text.trim "service-catalog.db" = "service-catalog.db" := by decide +kernel
  exact ⟨hcheck, rfl, (h.2.2.2.2.1 hplain).1.mpr (by decide)⟩

/-! ## What the check does not see -/

/-- A name of one letter behind some blanks. -/
def padded (blanks : Nat) : String := String.ofList (List.replicate blanks ' ' ++ ['x'])

theorem trim_padded (blanks : Nat) : Text.trim (padded blanks) = "x" := by
  have hdrop : (List.replicate blanks ' ' ++ ['x']).dropWhile Text.isBlank = ['x'] := by
    induction blanks with
    | zero => rfl
    | succ blanks ih => exact ih
  rw [Text.trim, padded, String.toList_ofList, Text.trimChars, hdrop]
  rfl

theorem utf8ByteSize_padded (blanks : Nat) : (padded blanks).utf8ByteSize = blanks + 1 := by
  induction blanks with
  | zero => rfl
  | succ blanks ih =>
    have hpadded : padded (blanks + 1) = String.singleton ' ' ++ padded blanks := String.ofList_cons
    rw [hpadded, String.utf8ByteSize_append, ih, Nat.add_comm]
    rfl

/-- Blanks are part of a path as it is, so enough of them make a part of it too long. -/
theorem hasLongPart_padded {blanks : Nat} (h : Path.maxPartLength ≤ blanks) :
    Path.hasLongPart (padded blanks) := by
  have hslash : '/' ∉ (padded blanks).toList := by simp [padded]
  rw [Path.hasLongPart, Path.parts, Path.splitChars_of_no_slash hslash]
  simpa [utf8ByteSize_padded] using Nat.lt_succ_of_le h

/-- As many blanks before a name as a part of a path may have bytes. -/
def behindBlanks : DatabaseSettings := { path := padded Path.maxPartLength }

/-- A wait one millisecond longer than the engine can keep. -/
def tooPatient : DatabaseSettings := { path := "x", busyTimeout := maxBusyTimeout + 1 }

/-- Settings that go together, with a path that is refused as it is, and others with a wait that no
engine keeps. -/
theorem check_misses_padding :
    ({ store := { database := behindBlanks } } : Settings).check = .ok () ∧
      pathFault? behindBlanks.path =
        some ⟨.invalid, "store path contains an overlong component"⟩ ∧
      ¬behindBlanks.Sound ∧
      ({ store := { database := tooPatient } } : Settings).check = .ok () ∧
      Database.start tooPatient {} = .error .timeoutTooLong ∧ ¬tooPatient.Sound := by
  have hfault : pathFault? behindBlanks.path =
      some ⟨.invalid, "store path contains an overlong component"⟩ := by
    have hshort : Path.isLong behindBlanks.path = false := by
      rw [Path.isLong, behindBlanks, utf8ByteSize_padded]
      rfl
    have hsome : behindBlanks.path ≠ "" := by simp [behindBlanks, padded]
    have hlong : Path.hasLongPart behindBlanks.path := hasLongPart_padded (Nat.le_refl _)
    rw [pathFault?, if_neg hsome, if_neg (Bool.eq_false_iff.mp hshort), if_pos hlong]
  refine ⟨check_store_alone (StoreSettings.check_eq_ok_iff.mpr ?_), hfault, fun h => ?_, by rfl,
    Database.start_too_long_iff.mpr (Nat.lt_succ_self _), fun h => ?_⟩
  · intro d hd
    have hd : behindBlanks = d := Option.some.inj hd
    rw [← hd, behindBlanks, trim_padded]
    decide
  · rw [h.1] at hfault
    cases hfault
  · exact Nat.not_succ_le_self _ h.2

end Settings

end ServiceRegistry
