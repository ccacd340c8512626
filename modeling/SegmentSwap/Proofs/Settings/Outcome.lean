import SegmentSwap.Failure
import SegmentSwap.Json.Reader
import SegmentSwap.Proofs.Protocol.Checks
import SegmentSwap.Proofs.Text.Utf8

/-!
# What the loading of settings comes to

Whatever bytes a settings file consists of, and whatever loader reads it, there are modes or a fault.
Callers are told to expect faults of the configuration; the others come from bytes that are no text,
from texts that the loader gives up otherwise than as malformed, and from a value that is refused
but cannot be shown. A file that is missing and a directory in its place are always reported as
faults of the configuration.
-/

namespace SegmentSwap

namespace Settings

variable {y : Loader} {path : String} {bytes : List UInt8} {f : SettingsFault} {v : y.Value}
  {part : SettingsPart} {name : Text} {root : List (Text × y.Value)}

/-- A value that names no mode. -/
def NoMode (y : Loader) (v : y.Value) : Prop :=
  ∀ text, y.look v = .text text → Mode.ofText? text = none

/-- The value in a settings file that is refused first: the version, or else the mode of the first
table whose mode is none. -/
inductive Refused (y : Loader) (file : y.Value) : y.Value → Prop where
  | version {root : List (Text × y.Value)} {v : y.Value} (hroot : fields y .root file = .ok root)
      (hversion : field? "version" root = some v) (hother : y.isNumber settingsVersion v = false) :
    Refused y file v
  | mode {root : List (Text × y.Value)} {tables part m : y.Value}
      {before after fs : List (Text × y.Value)} {name : Text}
      (hroot : fields y .root file = .ok root) (hversion : checkVersion y "" root = .ok ())
      (htables : field? "tables" root = some tables)
      (hnames : fields y .tables tables = .ok (before ++ (name, part) :: after))
      (hbefore : ∀ t ∈ before, ∃ r, table y t.1 t.2 = .ok r)
      (hfields : fields y (.table name) part = .ok fs)
      (hmode : field? "ingestion_mode" fs = some m) (hnone : NoMode y m) :
    Refused y file m

/-- A text holds a value. -/
def Holds (y : Loader) (bytes : List UInt8) (v : y.Value) : Prop :=
  ∃ text, Text.Utf8.decode bytes = .ok text ∧
    y.load (.ofList (Text.normalizeNewlines text.toList)) = .ok v ∧ y.look v ≠ .nothing

/-- A cause that callers are not told to expect. -/
def Undeclared (cause : LoadFault) : Prop := cause.kind ≠ .declared .configuration

/-- The faults of bytes that callers are not told to expect. -/
inductive Escapes (y : Loader) (bytes : List UInt8) : SettingsFault → Prop where
  /-- The bytes are no text. -/
  | undecodable {e : Text.Utf8.DecodeError} (h : Text.Utf8.decode bytes = .error e) :
    Escapes y bytes (.undecodable e)
  /-- The loader meets something else than malformed text. -/
  | unloaded {text : String} {cause : LoadFault} (htext : Text.Utf8.decode bytes = .ok text)
      (h : y.load (.ofList (Text.normalizeNewlines text.toList)) = .error cause)
      (hcause : Undeclared cause) : Escapes y bytes (.loader cause)
  /-- The value that is refused cannot be shown. -/
  | unshown {file v : y.Value} {cause : LoadFault} (hfile : Holds y bytes file)
      (hrefused : Refused y file v) (h : y.shown v = .error cause) (hcause : Undeclared cause) :
    Escapes y bytes (.loader cause)

/-- A fault that callers are told to expect. -/
def Declared (f : SettingsFault) : Prop := (Failure.settings f).kind = .declared .configuration

/-- The faults that a documented loader leaves possible. -/
inductive Foreseen (y : Loader) (source : SettingsSource) (f : SettingsFault) : Prop where
  | declared (h : Declared f)
  | undecodable (h : (Failure.settings f).kind = .undecodable)
  /-- The text spells a value that does not exist. -/
  | impossible (h : (Failure.settings f).kind = .invalidValue)
  /-- The value that is refused cannot be shown. -/
  | unshown {path : String} {bytes : List UInt8} {file v : y.Value} {cause : LoadFault}
      (hsource : source = .file path bytes) (hfile : Holds y bytes file)
      (hrefused : Refused y file v) (h : y.shown v = .error cause) (hfault : f = .loader cause)

section Parts

theorem declared_of_keyName {key : y.Value} (h : keyName y part key = .error f) : Declared f := by
  unfold keyName at h
  split at h
  · cases h
  · obtain rfl := Except.error.inj h
    rfl

theorem declared_of_fields (h : fields y part v = .error f) : Declared f := by
  unfold fields names at h
  split at h
  · obtain ⟨_, p, _, -, -, hp⟩ := mapM_eq_error_iff.mp h
    exact declared_of_keyName (map_eq_error_iff.mp hp)
  · obtain rfl := Except.error.inj h
    rfl

/-- A value is refused with a wording that shows it. -/
theorem refuse_escapes_iff {α : Type} {fault : Text → SettingsFault}
    (hfault : ∀ t, Declared (fault t)) :
    (do throw (fault (← shown y v)) : Except SettingsFault α) = .error f ∧ ¬Declared f ↔
      ∃ cause, y.shown v = .error cause ∧ Undeclared cause ∧ f = .loader cause := by
  unfold shown
  rw [bind_eq_error_iff]
  constructor
  · rintro ⟨hshown | ⟨text, -, hthrow⟩, hdeclared⟩
    · obtain ⟨cause, hcause, rfl⟩ := mapError_eq_error_iff.mp hshown
      exact ⟨cause, hcause, hdeclared, rfl⟩
    · obtain rfl := Except.error.inj hthrow
      exact absurd (hfault text) hdeclared
  · rintro ⟨cause, hcause, hundeclared, rfl⟩
    exact ⟨.inl (mapError_eq_error_iff.mpr ⟨cause, hcause, rfl⟩), hundeclared⟩

/-- A value names a mode, or it is refused. -/
theorem mode_cases (y : Loader) (name : Text) (v : y.Value) :
    (∃ text m, y.look v = .text text ∧ Mode.ofText? text = some m ∧ mode y name v = .ok m) ∨
      NoMode y v ∧ mode y name v = (do throw (.mode (.unknown (← shown y v) name))) := by
  unfold mode NoMode
  split
  · rename_i text hlook
    cases hmode : Mode.ofText? text with
    | some m => exact .inl ⟨text, m, hlook, hmode, rfl⟩
    | none =>
      refine .inr ⟨fun other h => ?_, rfl⟩
      obtain rfl := Look.text.inj (hlook.symm.trans h)
      exact hmode
  · rename_i hother
    exact .inr ⟨fun text h => absurd h (hother text), rfl⟩

theorem mode_escapes_iff : mode y name v = .error f ∧ ¬Declared f ↔
    NoMode y v ∧ ∃ cause, y.shown v = .error cause ∧ Undeclared cause ∧ f = .loader cause := by
  rcases mode_cases y name v with ⟨text, m, hlook, hm, hmode⟩ | ⟨hnone, hmode⟩
  · rw [hmode]
    constructor
    · rintro ⟨h, -⟩
      cases h
    · rintro ⟨hnone, -⟩
      rw [hnone text hlook] at hm
      cases hm
  · have hdeclared : ∀ t, Declared (.mode (.unknown t name)) := fun _ => rfl
    rw [hmode, refuse_escapes_iff hdeclared]
    exact (and_iff_right hnone).symm

theorem table_escapes_iff {part : y.Value} : table y name part = .error f ∧ ¬Declared f ↔
    ∃ fs m, fields y (.table name) part = .ok fs ∧ field? "ingestion_mode" fs = some m ∧
      NoMode y m ∧ ∃ cause, y.shown m = .error cause ∧ Undeclared cause ∧ f = .loader cause := by
  unfold table
  rw [bind_eq_error_iff]
  constructor
  · rintro ⟨hfields | ⟨fs, hfields, hmode⟩, hdeclared⟩
    · exact absurd (declared_of_fields hfields) hdeclared
    · split at hmode
      · rename_i m hm
        rcases bind_eq_error_iff.mp hmode with hmode | ⟨_, -, hpure⟩
        · exact ⟨fs, m, hfields, hm, mode_escapes_iff.mp ⟨hmode, hdeclared⟩⟩
        · cases hpure
      · cases hmode
  · rintro ⟨fs, m, hfields, hm, hescapes⟩
    obtain ⟨hmode, hdeclared⟩ := mode_escapes_iff.mpr hescapes
    refine ⟨.inr ⟨fs, hfields, ?_⟩, hdeclared⟩
    rw [hm]
    dsimp only
    rw [hmode]
    rfl

end Parts

section Root

/-- Whether the version is right does not depend on the file. -/
theorem checkVersion_eq_ok (h : checkVersion y path root = .ok ()) (other : String) :
    checkVersion y other root = .ok () := by
  unfold checkVersion at h ⊢
  split at h
  · split at h
    · obtain ⟨_, -, hthrow⟩ := bind_eq_ok_iff.mp h
      cases hthrow
    · rename_i hversion
      rw [if_neg hversion]
      rfl
  · cases h

theorem checkVersion_escapes_iff : checkVersion y path root = .error f ∧ ¬Declared f ↔
    ∃ v, field? "version" root = some v ∧ y.isNumber settingsVersion v = false ∧
      ∃ cause, y.shown v = .error cause ∧ Undeclared cause ∧ f = .loader cause := by
  unfold checkVersion
  cases hversion : field? "version" root with
  | none =>
    constructor
    · rintro ⟨h, hdeclared⟩
      obtain rfl := Except.error.inj h
      exact absurd rfl hdeclared
    · rintro ⟨_, h, -⟩
      cases h
  | some v =>
    dsimp only
    cases hnumber : y.isNumber settingsVersion v with
    | true =>
      constructor
      · rintro ⟨h, -⟩
        cases h
      · rintro ⟨_, h, hother, -⟩
        obtain rfl := Option.some.inj h
        rw [hnumber] at hother
        cases hother
    | false =>
      have hdeclared : ∀ t, Declared (.version t path) := fun _ => rfl
      rw [Bool.not_false, if_pos rfl, refuse_escapes_iff hdeclared]
      constructor
      · exact fun h => ⟨v, rfl, hnumber, h⟩
      · rintro ⟨_, h, -, hshown⟩
        obtain rfl := Option.some.inj h
        exact hshown

theorem given_escapes_iff : given y root = .error f ∧ ¬Declared f ↔
    ∃ tables before name part after, field? "tables" root = some tables ∧
      fields y .tables tables = .ok (before ++ (name, part) :: after) ∧
      (∀ t ∈ before, ∃ r, table y t.1 t.2 = .ok r) ∧ table y name part = .error f ∧
      ¬Declared f := by
  unfold given
  constructor
  · rintro ⟨h, hdeclared⟩
    split at h
    · rename_i tables htables
      rcases bind_eq_error_iff.mp h with hnames | ⟨names, hnames, h⟩
      · exact absurd (declared_of_fields hnames) hdeclared
      · rcases bind_eq_error_iff.mp h with h | ⟨_, -, hpure⟩
        · obtain ⟨before, ⟨name, part⟩, after, rfl, hbefore, htable⟩ := mapM_eq_error_iff.mp h
          exact ⟨tables, before, name, part, after, htables, hnames, hbefore, htable, hdeclared⟩
        · cases hpure
    · cases h
  · rintro ⟨tables, before, name, part, after, htables, hnames, hbefore, htable, hdeclared⟩
    refine ⟨?_, hdeclared⟩
    have hmap := mapM_eq_error_iff.mpr ⟨before, (name, part), after, rfl, hbefore, htable⟩
    rw [htables]
    exact bind_eq_error_iff.mpr (.inr ⟨_, hnames, bind_eq_error_iff.mpr (.inl hmap)⟩)

end Root

/-- Settings escape for the value in them that is refused, if it cannot be shown. -/
theorem modes_escapes_iff {file : y.Value} : modes y path file = .error f ∧ ¬Declared f ↔
    ∃ v cause, Refused y file v ∧ y.shown v = .error cause ∧ Undeclared cause ∧
      f = .loader cause := by
  unfold modes
  constructor
  · rintro ⟨h, hdeclared⟩
    rcases bind_eq_error_iff.mp h with hfields | ⟨root, hroot, h⟩
    · exact absurd (declared_of_fields hfields) hdeclared
    rcases bind_eq_error_iff.mp h with hversion | ⟨⟨⟩, hversion, hgiven⟩
    · obtain ⟨v, hv, hother, cause, hshown⟩ := checkVersion_escapes_iff.mp ⟨hversion, hdeclared⟩
      exact ⟨v, cause, .version hroot hv hother, hshown⟩
    · obtain ⟨tables, before, name, part, after, htables, hnames, hbefore, htable⟩ :=
        given_escapes_iff.mp ⟨hgiven, hdeclared⟩
      obtain ⟨fs, m, hfields, hm, hnone, cause, hshown⟩ := table_escapes_iff.mp htable
      exact ⟨m, cause, .mode hroot (checkVersion_eq_ok hversion "") htables hnames hbefore hfields hm
        hnone, hshown⟩
  · rintro ⟨v, cause, hrefused, hshown⟩
    cases hrefused with
    | version hroot hv hother =>
      obtain ⟨hversion, hdeclared⟩ : checkVersion y path _ = .error f ∧ _ :=
        checkVersion_escapes_iff.mpr ⟨v, hv, hother, cause, hshown⟩
      exact ⟨bind_eq_error_iff.mpr (.inr ⟨_, hroot, bind_eq_error_iff.mpr (.inl hversion)⟩),
        hdeclared⟩
    | mode hroot hversion htables hnames hbefore hfields hm hnone =>
      have htable := table_escapes_iff.mpr ⟨_, _, hfields, hm, hnone, cause, hshown⟩
      obtain ⟨hgiven, hdeclared⟩ :=
        given_escapes_iff.mpr ⟨_, _, _, _, _, htables, hnames, hbefore, htable⟩
      exact ⟨bind_eq_error_iff.mpr (.inr ⟨_, hroot, bind_eq_error_iff.mpr
        (.inr ⟨(), checkVersion_eq_ok hversion path, hgiven⟩)⟩), hdeclared⟩

/-- What a file holds escapes if the bytes are no text or the loader gives the text up otherwise than
as malformed. -/
theorem data_escapes_iff : data y path bytes = .error f ∧ ¬Declared f ↔
    (∃ e, Text.Utf8.decode bytes = .error e ∧ f = .undecodable e) ∨
      ∃ text cause, Text.Utf8.decode bytes = .ok text ∧
        y.load (.ofList (Text.normalizeNewlines text.toList)) = .error cause ∧ Undeclared cause ∧
        f = .loader cause := by
  unfold data
  rw [bind_eq_error_iff]
  constructor
  · rintro ⟨htext | ⟨text, htext, h⟩, hdeclared⟩
    · obtain ⟨e, he, rfl⟩ := mapError_eq_error_iff.mp htext
      exact .inl ⟨e, he, rfl⟩
    · rw [mapError_eq_ok_iff] at htext
      rcases bind_eq_error_iff.mp h with hload | ⟨v, -, h⟩
      · obtain ⟨cause, hcause, rfl⟩ := mapError_eq_error_iff.mp hload
        exact .inr ⟨text, cause, htext, hcause, hdeclared, rfl⟩
      · split at h
        · obtain rfl := Except.error.inj h
          exact absurd rfl hdeclared
        · cases h
  · rintro (⟨e, he, rfl⟩ | ⟨text, cause, htext, hcause, hundeclared, rfl⟩)
    · exact ⟨.inl (mapError_eq_error_iff.mpr ⟨e, he, rfl⟩), nofun⟩
    · exact ⟨.inr ⟨text, mapError_eq_ok_iff.mpr htext,
        bind_eq_error_iff.mpr (.inl (mapError_eq_error_iff.mpr ⟨cause, hcause, rfl⟩))⟩,
        hundeclared⟩

theorem data_eq_ok_iff : data y path bytes = .ok v ↔ Holds y bytes v := by
  unfold data Holds
  simp only [bind_eq_ok_iff, mapError_eq_ok_iff]
  refine exists_congr fun text => and_congr_right fun _ => ?_
  constructor
  · rintro ⟨w, hload, h⟩
    split at h
    · cases h
    · rename_i hlook
      obtain rfl := Except.ok.inj h
      exact ⟨hload, hlook⟩
  · rintro ⟨hload, hlook⟩
    refine ⟨v, hload, ?_⟩
    split
    · rename_i hnothing
      exact absurd hnothing hlook
    · rfl

/-- The bytes of a file escape on their way to a value or else on that to modes. -/
theorem load_file_escapes_iff :
    load y (.file path bytes) = .error f ∧ ¬Declared f ↔ Escapes y bytes f := by
  have hload : load y (.file path bytes) = (data y path bytes >>= modes y path) := rfl
  rw [hload, bind_eq_error_iff]
  constructor
  · rintro ⟨hdata | ⟨file, hdata, hmodes⟩, hdeclared⟩
    · rcases data_escapes_iff.mp ⟨hdata, hdeclared⟩ with
        ⟨e, he, rfl⟩ | ⟨text, cause, htext, hread, hcause, rfl⟩
      · exact .undecodable he
      · exact .unloaded htext hread hcause
    · obtain ⟨v, cause, hrefused, hshown, hcause, rfl⟩ := modes_escapes_iff.mp ⟨hmodes, hdeclared⟩
      exact .unshown (data_eq_ok_iff.mp hdata) hrefused hshown hcause
  · intro hescapes
    cases hescapes with
    | undecodable he =>
      have hdata : data y path bytes = .error _ ∧ _ := data_escapes_iff.mpr (.inl ⟨_, he, rfl⟩)
      exact ⟨.inl hdata.1, hdata.2⟩
    | unloaded htext hread hcause =>
      have hdata : data y path bytes = .error _ ∧ _ :=
        data_escapes_iff.mpr (.inr ⟨_, _, htext, hread, hcause, rfl⟩)
      exact ⟨.inl hdata.1, hdata.2⟩
    | unshown hfile hrefused hshown hcause =>
      have hmodes : modes y path _ = .error _ ∧ _ :=
        modes_escapes_iff.mpr ⟨_, _, hrefused, hshown, hcause, rfl⟩
      exact ⟨.inr ⟨_, data_eq_ok_iff.mpr hfile, hmodes.1⟩, hmodes.2⟩

/-- Loading settings gives every table one of the two modes, or else a fault of the configuration,
but for the bytes that escape. -/
theorem load_outcome (y : Loader) (source : SettingsSource) :
    (∀ modes, load y source = .ok modes →
      ∀ table, (modes.of table).text = "APPEND" ∨ (modes.of table).text = "REFRESH") ∧
    (∀ f, load y source = .error f ∧ ¬Declared f ↔
      ∃ path bytes, source = .file path bytes ∧ Escapes y bytes f) ∧
    (y.Documented → ∀ f, load y source = .error f → Foreseen y source f) := by
  have hiff : ∀ f, load y source = .error f ∧ ¬Declared f ↔
      ∃ path bytes, source = .file path bytes ∧ Escapes y bytes f := by
    intro f
    cases source with
    | file path bytes =>
      rw [load_file_escapes_iff]
      constructor
      · exact fun h => ⟨path, bytes, rfl, h⟩
      · rintro ⟨_, _, heq, hescapes⟩
        cases heq
        exact hescapes
    | none =>
      constructor
      · rintro ⟨h, -⟩
        cases h
      · rintro ⟨_, _, heq, -⟩
        cases heq
    | _ =>
      constructor
      · rintro ⟨h, hdeclared⟩
        obtain rfl := Except.error.inj h
        exact absurd rfl hdeclared
      · rintro ⟨_, _, heq, -⟩
        cases heq
  refine ⟨fun modes _ table => ?_, hiff, fun hdoc f h => ?_⟩
  · cases modes.of table with
    | append => exact .inl rfl
    | refresh => exact .inr rfl
  · by_cases hdeclared : Declared f
    · exact .declared hdeclared
    obtain ⟨path, bytes, hsource, hescapes⟩ := (hiff f).mp ⟨h, hdeclared⟩
    cases hescapes with
    | undecodable he => exact .undecodable rfl
    | unloaded htext hload hcause =>
      rcases hdoc _ _ hload with rfl | ⟨message, rfl⟩
      · exact absurd rfl hcause
      · exact .impossible rfl
    | unshown hfile hrefused hshown hcause =>
      exact .unshown hsource hfile hrefused hshown rfl

/-- Settings with a date that does not exist. -/
def dateText : String := "version: 2020-02-30"

/-- Loads the text with the date and texts of which YAML makes the same as JSON does. -/
def sampleLoad (text : String) : Except LoadFault Json.Value :=
  if text = dateText then .error (.raised .invalidValue "day is out of range for month")
  else (Json.read text).mapError fun _ => .malformed

/-- The loader of these texts. -/
def sampleLoader : Loader where
  Value := Json.Value
  load := sampleLoad
  look
    | .null => .nothing
    | .str t => .text t
    | .obj fields => .mapping (fields.map fun f => (.str f.1, f.2))
    | _ => .other
  isNumber := Json.Value.isNumber
  typeName
    | .null => "NoneType"
    | .bool _ => "bool"
    | .int _ => "int"
    | .real _ => "float"
    | .str _ => "str"
    | .arr _ => "list"
    | .obj _ => "dict"
  shown v := v.shown?.elim (.error (.raised .invalidValue shownLimitMessage)) .ok

theorem sampleLoader_documented : sampleLoader.Documented := by
  intro text f h
  have hload : sampleLoad text = .error f := h
  unfold sampleLoad at hload
  split at hload
  · cases hload
    exact .inr ⟨_, rfl⟩
  · obtain ⟨_, -, rfl⟩ := mapError_eq_error_iff.mp hload
    exact .inl rfl

/-- Settings by which one table is reloaded as a whole. -/
def refreshText : String :=
  "\x7b\"version\": 1, \"tables\": \x7b\"t\": \x7b\"ingestion_mode\": \"refresh\"\x7d\x7d\x7d"

/-- A settings file with a text. -/
def settingsOf (text : String) : SettingsSource := .file "tables.yaml" (Text.Utf8.encode text)

/-- Settings that are in order give a mode, and those with the date escape. -/
theorem load_outcome_sampled :
    sampleLoader.Documented ∧
      (∃ modes, load sampleLoader (settingsOf refreshText) = .ok modes ∧
        modes = ⟨[("t", Mode.refresh)]⟩ ∧
        ((modes.of "t").text = "APPEND" ∨ (modes.of "t").text = "REFRESH")) ∧
      ∃ f, load sampleLoader (settingsOf dateText) = .error f ∧ ¬Declared f ∧
        Foreseen sampleLoader (settingsOf dateText) f := by
  have hdate := load_outcome sampleLoader (settingsOf dateText)
  have htext : String.ofList (Text.normalizeNewlines dateText.toList) = dateText := by
    decide +kernel
  have hload : sampleLoad (.ofList (Text.normalizeNewlines dateText.toList)) =
      .error (.raised .invalidValue "day is out of range for month") := by
    unfold sampleLoad
    exact if_pos htext
  have hescapes : Escapes sampleLoader (Text.Utf8.encode dateText) _ :=
    .unloaded (Text.Utf8.decode_encode dateText) hload (by unfold Undeclared; decide)
  obtain ⟨hfault, hundeclared⟩ := (hdate.2.1 _).mpr ⟨_, _, rfl, hescapes⟩
  have hmodes : load sampleLoader (settingsOf refreshText) = .ok ⟨[("t", .refresh)]⟩ := by
    decide +kernel
  exact ⟨sampleLoader_documented,
    ⟨_, hmodes, rfl, (load_outcome sampleLoader _).1 _ hmodes "t"⟩, _, hfault, hundeclared,
    hdate.2.2 sampleLoader_documented _ hfault⟩

/-- A settings file of one byte that begins no character. -/
def spoiledSettings : SettingsSource := .file "tables.yaml" [0xFF]

/-- With any loader the spoiled file leads to a fault that callers are not told to expect. -/
theorem spoiled_settings_escape :
    ∃ f, (∀ y, load y spoiledSettings = .error f) ∧ (Failure.settings f).kind = .undecodable ∧
      (Failure.settings f).kind ≠ .declared .configuration :=
  ⟨.undecodable ⟨.start, 0, 1, 0xFF⟩, fun _ => rfl, rfl, by decide⟩

end Settings

end SegmentSwap
