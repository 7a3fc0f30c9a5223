import ServiceWatch.Proofs.Basic
import ServiceWatch.Proofs.Toml.Entries
import ServiceWatch.Settings.File

/-!
# Layers of settings

A layer *describes* the entries of a document when it has a value exactly where the entries have an
item under the name of the setting, and that item is the value (`Layer.Describes`).  A document is
read as the layer that describes its entries, and refused if there is none (`ofToml_eq_ok_iff`): an
entry fits its setting exactly if some layer has its item there, and taking it in changes nothing
but that setting (`shown_of_takeEntry`).

Settings are layered if each field is that of the command line, of the file or of the defaults, in
this order (`IsLayered`).  What is resolved from two layers are the settings that are layered so,
and they are taken exactly if the probe can run with them (`resolve_eq_ok_iff`).
-/

namespace ServiceWatch.Settings

open Toml (Entry Item item? names AreSound)

variable {layer next other : Layer} {item : Item} {entry : Entry} {entries : List Entry}

/-- The settings by the names that they have in a document, each with the item that a layer has
there. -/
def shown : List (String × (Layer → Option Item)) :=
  [("service", fun layer => layer.service.map .text),
    ("health_url", fun layer => layer.healthUrl.map .text),
    ("metrics_url", fun layer => layer.metricsUrl.map .text),
    ("auth_token", fun layer => layer.authToken.map .text),
    ("state_path", fun layer => layer.statePath.map .text),
    ("stall_minutes", fun layer => layer.stallMinutes.map fun n => .integer n.toNat),
    ("alert_command", fun layer => layer.alertCommand.map .text),
    ("alert_title", fun layer => layer.alertTitle.map .text),
    ("timeout_secs", fun layer => layer.timeoutSeconds.map fun n => .integer n.toNat)]

/-- The layer is what the entries say of the settings. -/
def Layer.Describes (layer : Layer) (entries : List Entry) : Prop :=
  ∀ setting ∈ shown, item? setting.1 entries = setting.2 layer

/-! ### Single entries -/

/-- A setting of this form takes an item into a layer: the item is that of a value, and the value is
what the next layer has there. -/
def Form.Takes : Form → Layer → Item → Layer → Prop
  | .text _ set, layer, item, next => ∃ value, Item.text value = item ∧ set layer value = next
  | .optionalText set, layer, item, next =>
    ∃ value, Item.text value = item ∧ set layer (some value) = next
  | .count set, layer, item, next =>
    ∃ n : UInt64, Item.integer n.toNat = item ∧ set layer n = next

theorem toNat_ofNat_of_fits {n : Int} (hfits : Toml.fits n = true) (hpos : 0 ≤ n) :
    ((UInt64.ofNat n.toNat).toNat : Int) = n := by
  have hlt : n < 0x8000000000000000 := by
    simp only [Toml.fits, Bool.and_eq_true, decide_eq_true_eq] at hfits
    exact hfits.2
  rw [UInt64.toNat_ofNat_of_lt' (by simp only [UInt64.size]; omega)]
  omega

theorem take_eq_ok_iff {form : Form} (hfits : item.Fits) :
    form.take layer item = .ok next ↔ form.Takes layer item next := by
  constructor
  · intro htake
    unfold Form.take at htake
    split at htake
    · exact ⟨_, rfl, Except.ok.inj htake⟩
    · cases htake
    · exact ⟨_, rfl, Except.ok.inj htake⟩
    · cases htake
    next set value =>
      split_ifs at htake with hpos
      exact ⟨_, congrArg Item.integer (toNat_ofNat_of_fits (hfits value rfl) hpos),
        Except.ok.inj htake⟩
    · cases htake
  · intro htakes
    cases form with
    | text | optionalText =>
        obtain ⟨value, rfl, rfl⟩ := htakes
        rfl
    | count set =>
        obtain ⟨n, rfl, rfl⟩ := htakes
        simp [Form.take]

/-- The form takes in the items that a layer can have under the name of a setting, gives them to
that setting and leaves the others as they are. -/
structure Form.Serves (form : Form) (setting : String × (Layer → Option Item)) : Prop where
  gives : ∀ {layer item next}, form.Takes layer item next → setting.2 next = some item
  leaves : ∀ {layer item next}, form.Takes layer item next →
    ∀ different ∈ shown, different.1 ≠ setting.1 → different.2 next = different.2 layer
  takes : ∀ layer {other item}, setting.2 other = some item → ∃ next, form.Takes layer item next

/-- A form serves a setting if it puts values into it and leaves the other settings. -/
theorem Form.serves_of_takes {α : Type} {form : Form} {name : String} (get : Layer → Option α)
    {toItem : α → Item} {put : Layer → α → Layer}
    (htakes : ∀ {layer item next}, form.Takes layer item next ↔
      ∃ value, toItem value = item ∧ put layer value = next)
    (hget : ∀ layer value, get (put layer value) = some value)
    (hleaves : ∀ layer value, ∀ different ∈ shown, different.1 ≠ name →
      different.2 (put layer value) = different.2 layer) :
    form.Serves (name, fun layer => (get layer).map toItem) where
  gives := by
    intro layer item next htake
    obtain ⟨value, rfl, rfl⟩ := htakes.mp htake
    change (get (put layer value)).map toItem = some (toItem value)
    rw [hget, Option.map_some]
  leaves := by
    intro layer item next htake
    obtain ⟨value, rfl, rfl⟩ := htakes.mp htake
    exact hleaves layer value
  takes layer other item hitem := by
    obtain ⟨value, -, rfl⟩ := Option.map_eq_some_iff.mp hitem
    exact ⟨_, htakes.mpr ⟨value, rfl, rfl⟩⟩

/-- Every setting is served by the form that its name has. -/
theorem exists_serves : ∀ setting ∈ shown, ∃ form, forms.lookup setting.1 = some form ∧
    form.Serves setting := by
  simp only [shown, List.forall_mem_cons, List.not_mem_nil, false_implies, implies_true, and_true]
  exact ⟨⟨_, rfl, Form.serves_of_takes Layer.service Iff.rfl (by simp) (by simp [shown])⟩,
    ⟨_, rfl, Form.serves_of_takes Layer.healthUrl Iff.rfl (by simp) (by simp [shown])⟩,
    ⟨_, rfl, Form.serves_of_takes Layer.metricsUrl Iff.rfl (by simp) (by simp [shown])⟩,
    ⟨_, rfl, Form.serves_of_takes Layer.authToken Iff.rfl (by simp) (by simp [shown])⟩,
    ⟨_, rfl, Form.serves_of_takes Layer.statePath Iff.rfl (by simp) (by simp [shown])⟩,
    ⟨_, rfl, Form.serves_of_takes Layer.stallMinutes Iff.rfl (by simp) (by simp [shown])⟩,
    ⟨_, rfl, Form.serves_of_takes Layer.alertCommand Iff.rfl (by simp) (by simp [shown])⟩,
    ⟨_, rfl, Form.serves_of_takes Layer.alertTitle Iff.rfl (by simp) (by simp [shown])⟩,
    ⟨_, rfl, Form.serves_of_takes Layer.timeoutSeconds Iff.rfl (by simp) (by simp [shown])⟩⟩

theorem exists_serves_of_lookup {name : String} {form : Form}
    (hlookup : forms.lookup name = some form) :
    ∃ setting ∈ shown, setting.1 = name ∧ form.Serves setting := by
  obtain ⟨_, hmem⟩ := (isSome_lookup_iff forms).mp (by rw [hlookup]; rfl)
  have hnames : forms.map (·.1) = shown.map (·.1) := rfl
  have hname : name ∈ shown.map (·.1) := hnames ▸ List.mem_map_of_mem hmem
  obtain ⟨setting, hsetting, rfl⟩ := List.mem_map.mp hname
  obtain ⟨_, hserved, hserves⟩ := exists_serves setting hsetting
  obtain rfl := Option.some.inj (hserved.symm.trans hlookup)
  exact ⟨setting, hsetting, rfl, hserves⟩

theorem shown_of_takeEntry (hfits : entry.2.2.Fits) (htake : takeEntry layer entry = .ok next) :
    ∀ setting ∈ shown, setting.2 next =
      if entry.1.name = setting.1 then some entry.2.2 else setting.2 layer := by
  intro setting hsetting
  unfold takeEntry at htake
  split at htake
  next hnone =>
    obtain rfl := Except.ok.inj htake
    obtain ⟨_, hserved, -⟩ := exists_serves setting hsetting
    rw [if_neg fun hname => by simp [hname, hserved] at hnone]
  next form hlookup =>
    split at htake
    next taken htaken =>
      obtain rfl := Except.ok.inj htake
      have htakes := (take_eq_ok_iff hfits).mp htaken
      obtain ⟨served, hmem, hname, hserves⟩ := exists_serves_of_lookup hlookup
      split_ifs with hsame
      · obtain ⟨_, hserved, hsetting⟩ := exists_serves setting hsetting
        obtain rfl := Option.some.inj (hserved.symm.trans (hsame ▸ hlookup))
        exact hsetting.gives htakes
      · exact hserves.leaves htakes setting hsetting fun heq => hsame (hname.symm.trans heq.symm)
    next => cases htake

/-- An entry is taken in if some layer has its item under its name. -/
theorem exists_takeEntry (hfits : entry.2.2.Fits)
    (hshown : ∀ setting ∈ shown, entry.1.name = setting.1 → setting.2 other = some entry.2.2) :
    ∃ next, takeEntry layer entry = .ok next := by
  cases hlookup : forms.lookup entry.1.name with
  | none => exact ⟨layer, by rw [takeEntry, hlookup]⟩
  | some form =>
      obtain ⟨setting, hsetting, hname, hserves⟩ := exists_serves_of_lookup hlookup
      obtain ⟨next, htakes⟩ := hserves.takes layer (hshown setting hsetting hname.symm)
      exact ⟨next, by simp only [takeEntry, hlookup, (take_eq_ok_iff hfits).mpr htakes]⟩

/-! ### Whole documents -/

/-- A layer is known by the items that it has. -/
theorem eq_of_shown (hshown : ∀ setting ∈ shown, setting.2 layer = setting.2 other) :
    layer = other := by
  have htext := Option.map_injective fun _ _ => Item.text.inj
  have hcount : (fun n : UInt64 => Item.integer n.toNat).Injective := fun _ _ heq =>
    UInt64.toNat.inj (Int.ofNat_inj.mp (Item.integer.inj heq))
  simp only [shown, List.forall_mem_cons, List.not_mem_nil, false_implies, implies_true,
    and_true, htext.eq_iff, (Option.map_injective hcount).eq_iff] at hshown
  cases layer
  cases other
  simp_all

/-- The entries are taken in one by one, and each is the only one of its name: so a setting that
they have an item for gets this item, and the others stay as they are. -/
theorem foldlM_takeEntry_eq_ok_iff (hsound : AreSound entries) :
    entries.foldlM takeEntry layer = .ok next ↔
      ∀ setting ∈ shown, setting.2 next = (item? setting.1 entries).or (setting.2 layer) := by
  induction entries generalizing layer with
  | nil =>
      constructor
      · rintro ⟨⟩ setting -
        rfl
      · intro hshown
        rw [eq_of_shown hshown]
        rfl
  | cons entry rest ih =>
      have hfits := hsound.fits entry List.mem_cons_self
      -- what the next layer has, read off the layer between the first entry and the others
      have hitems : ∀ {between : Layer}, takeEntry layer entry = .ok between →
          ∀ setting ∈ shown, (item? setting.1 (entry :: rest)).or (setting.2 layer) =
            (item? setting.1 rest).or (setting.2 between) := by
        intro between htake setting hsetting
        rw [Toml.item?_cons, shown_of_takeEntry hfits htake setting hsetting]
        split_ifs with hname
        · rw [← hname, hsound.item?_tail]
          rfl
        · rfl
      rw [List.foldlM_cons, bind_eq_ok_iff]
      constructor
      · rintro ⟨between, htake, hrest⟩ setting hsetting
        rw [hitems htake setting hsetting]
        exact (ih hsound.tail).mp hrest setting hsetting
      · intro hshown
        obtain ⟨between, htake⟩ : ∃ between, takeEntry layer entry = .ok between := by
          have hnext : ∀ setting ∈ shown, entry.1.name = setting.1 →
              setting.2 next = some entry.2.2 := by
            intro setting hsetting hname
            rw [hshown setting hsetting, Toml.item?_cons, if_pos hname, Option.some_or]
          exact exists_takeEntry hfits hnext
        refine ⟨between, htake, (ih hsound.tail).mpr fun setting hsetting => ?_⟩
        rw [hshown setting hsetting, hitems htake setting hsetting]

/-- A document is read as the layer that describes its entries. -/
theorem ofToml_eq_ok_iff {document : Toml.Input} :
    ofToml document = .ok layer ↔
      ∃ entries, Toml.entries? document = some entries ∧ layer.Describes entries := by
  unfold ofToml
  cases hentries : Toml.entries? document with
  | none => simp
  | some entries =>
      have hblank : ∀ setting ∈ shown, setting.2 {} = none := by simp [shown]
      rw [foldlM_takeEntry_eq_ok_iff (Toml.areSound_of_entries? hentries)]
      constructor
      · intro hshown
        refine ⟨entries, rfl, fun setting hsetting => ?_⟩
        rw [hshown setting hsetting, hblank setting hsetting, Option.or_none]
      · rintro ⟨_, ⟨⟩, hdescribes⟩ setting hsetting
        rw [hblank setting hsetting, Option.or_none, hdescribes setting hsetting]

/-! ### Layers over each other -/

/-- The layer with the values of another where it has none itself. -/
def Layer.or (own file : Layer) : Layer where
  service := own.service.or file.service
  healthUrl := own.healthUrl.or file.healthUrl
  metricsUrl := own.metricsUrl.or file.metricsUrl
  authToken := own.authToken.or file.authToken
  statePath := own.statePath.or file.statePath
  stallMinutes := own.stallMinutes.or file.stallMinutes
  alertCommand := own.alertCommand.or file.alertCommand
  alertTitle := own.alertTitle.or file.alertTitle
  timeoutSeconds := own.timeoutSeconds.or file.timeoutSeconds

theorem Layer.over_over (own file : Layer) (settings : Settings) :
    own.over (file.over settings) = (own.or file).over settings := by
  simp [Layer.over, Layer.or, Option.getD_or, Option.or_assoc]

/-- The settings have in each field what the command line says of it, or else what the file says, or
else the default. -/
structure IsLayered (own file : Layer) (settings : Settings) : Prop where
  service : settings.service = own.service.getD (file.service.getD defaults.service)
  healthUrl : settings.healthUrl = own.healthUrl.getD (file.healthUrl.getD defaults.healthUrl)
  metricsUrl : settings.metricsUrl =
    own.metricsUrl.getD (file.metricsUrl.getD defaults.metricsUrl)
  authToken : settings.authToken = own.authToken.or (file.authToken.or defaults.authToken)
  statePath : settings.statePath = own.statePath.getD (file.statePath.getD defaults.statePath)
  stallMinutes : settings.stallMinutes =
    own.stallMinutes.getD (file.stallMinutes.getD defaults.stallMinutes)
  alertCommand : settings.alertCommand =
    own.alertCommand.getD (file.alertCommand.getD defaults.alertCommand)
  alertTitle : settings.alertTitle =
    own.alertTitle.getD (file.alertTitle.getD defaults.alertTitle)
  timeoutSeconds : settings.timeoutSeconds =
    own.timeoutSeconds.getD (file.timeoutSeconds.getD defaults.timeoutSeconds)

theorem isLayered_iff {own file : Layer} {settings : Settings} :
    IsLayered own file settings ↔ settings = own.over (file.over .defaults) := by
  constructor
  · intro hlayered
    obtain ⟨service, healthUrl, metricsUrl, authToken, statePath, stallMinutes, alertCommand,
      alertTitle, timeoutSeconds⟩ := settings
    obtain ⟨rfl, rfl, rfl, rfl, rfl, rfl, rfl, rfl, rfl⟩ := hlayered
    rfl
  · rintro rfl
    exact ⟨rfl, rfl, rfl, rfl, rfl, rfl, rfl, rfl, rfl⟩

theorem token?_eq_some_iff {settings : Settings} {token : String} :
    settings.token? = some token ↔ settings.authToken = some token ∧ token ≠ "" := by
  rw [token?, Option.filter_eq_some_iff, decide_eq_true_eq]

/-- The token to send is that of the command line, or else that of the file, unless it is empty. -/
theorem IsLayered.token?_eq_some_iff {own file : Layer} {settings : Settings} {token : String}
    (hlayered : IsLayered own file settings) :
    settings.token? = some token ↔
      (own.authToken = some token ∨ own.authToken = none ∧ file.authToken = some token) ∧
        token ≠ "" := by
  have hdefault : defaults.authToken = none := rfl
  rw [Settings.token?_eq_some_iff, hlayered.authToken, hdefault, Option.or_none,
    Option.or_eq_some_iff]

/-! ### Settings to run with -/

/-- The probe can run with the settings. -/
structure IsRunnable (settings : Settings) : Prop where
  service : ∃ c ∈ settings.service.toList, Text.isBlank c = false
  healthUrl : "http://".toList <+: settings.healthUrl.toList
  metricsUrl : "http://".toList <+: settings.metricsUrl.toList
  timeout : 0 < settings.timeoutSeconds

theorem isBlankText_eq_false_iff {text : String} :
    Text.isBlankText text = false ↔ ∃ c ∈ text.toList, Text.isBlank c = false := by
  simp [Text.isBlankText]

theorem isHttp_iff {url : String} : isHttp url = true ↔ "http://".toList <+: url.toList :=
  List.isPrefixOf_iff_prefix

theorem defect?_eq_none_iff {settings : Settings} :
    settings.defect? = none ↔ settings.IsRunnable := by
  constructor
  · intro hnone
    unfold defect? at hnone
    split_ifs at hnone with hservice hhealth hmetrics htimeout
    simp only [Bool.not_eq_true, Bool.not_eq_false'] at hservice hhealth hmetrics
    exact ⟨isBlankText_eq_false_iff.mp hservice, isHttp_iff.mp hhealth, isHttp_iff.mp hmetrics,
      UInt64.pos_iff_ne_zero.mpr htimeout⟩
  · rintro ⟨hservice, hhealth, hmetrics, htimeout⟩
    simp [defect?, isBlankText_eq_false_iff.mpr hservice, isHttp_iff.mpr hhealth,
      isHttp_iff.mpr hmetrics, UInt64.pos_iff_ne_zero.mp htimeout]

/-- **What is resolved is layered field by field, and taken if the probe can run with it.** -/
theorem resolve_eq_ok_iff {own file : Layer} {settings : Settings} :
    resolve own file = .ok settings ↔ IsLayered own file settings ∧ settings.IsRunnable := by
  rw [isLayered_iff]
  unfold resolve
  dsimp only
  split
  next defect hdefect =>
    refine ⟨nofun, ?_⟩
    rintro ⟨rfl, hrunnable⟩
    rw [defect?_eq_none_iff.mpr hrunnable] at hdefect
    cases hdefect
  next hnone =>
    constructor
    · rintro ⟨⟩
      exact ⟨rfl, defect?_eq_none_iff.mp hnone⟩
    · rintro ⟨rfl, -⟩
      rfl

theorem resolve_congr {own file different : Layer} (heq : own.or file = own.or different) :
    resolve own file = resolve own different := by
  unfold resolve
  rw [Layer.over_over, Layer.over_over, heq]

/-- The probe can run with every value that the layer has. -/
structure Layer.IsSound (layer : Layer) : Prop where
  service : ∀ text ∈ layer.service, ∃ c ∈ text.toList, Text.isBlank c = false
  healthUrl : ∀ url ∈ layer.healthUrl, "http://".toList <+: url.toList
  metricsUrl : ∀ url ∈ layer.metricsUrl, "http://".toList <+: url.toList
  timeout : ∀ seconds ∈ layer.timeoutSeconds, 0 < seconds

/-- What holds of a field holds of the value that is laid over the others. -/
theorem forall_mem_of_getD {α : Type} {P : α → Prop} {own : Option α} {below field : α}
    (hfield : field = own.getD below) (hholds : P field) : ∀ value ∈ own, P value := by
  intro value hvalue
  rw [Option.mem_def] at hvalue
  rw [hfield, hvalue] at hholds
  exact hholds

/-- A bad value on the command line is not hidden by what the file says. -/
theorem IsLayered.isSound {own file : Layer} {settings : Settings}
    (hlayered : IsLayered own file settings) (hrunnable : settings.IsRunnable) : own.IsSound where
  service := forall_mem_of_getD hlayered.service hrunnable.service
  healthUrl := forall_mem_of_getD hlayered.healthUrl hrunnable.healthUrl
  metricsUrl := forall_mem_of_getD hlayered.metricsUrl hrunnable.metricsUrl
  timeout := forall_mem_of_getD hlayered.timeoutSeconds hrunnable.timeout

end ServiceWatch.Settings
