import ServiceWatch.Proofs.CommandLine.Check
import ServiceWatch.Proofs.Settings.Layer

/-!
# The settings of a run

The program reads its settings file once, if one is named, and settles on its settings from what it
found and what the command line says (`run_of_read`, `ends_run_iff`).  Nothing is checked before the
layers are in place: each field of the settings is that of the command line, of the file or of the
defaults, and they are taken exactly if the probe can run with them (`settings_of_layers`).
-/

namespace ServiceWatch.CommandLine

open Settings (Layer)

variable {σ : Type} {allows : Plan.Behaviour system σ} {before after : σ}

/-- What was found of the settings file: its path with the reply to reading it, if one is named. -/
abbrev Found : Type := Option (String × Except SystemError (List UInt8))

/-- What was found gives a layer: the empty one where no file is named, and the one that describes
the entries of a document otherwise. -/
inductive Gives : Found → Layer → Prop where
  | nothing : Gives none {}
  | document {path : String} {content : List UInt8} {document : Toml.Input}
      {entries : List Toml.Entry} {layer : Layer}
      (htext : Text.Utf8.decode? content = some document)
      (hentries : Toml.entries? document = some entries) (hdescribes : layer.Describes entries) :
      Gives (some (path, .ok content)) layer

/-- The settings for what the command line says and what was found of the settings file. -/
def settle (own : Layer) : Found → Except Settings.Fault Settings
  | none => Settings.resolve own {}
  | some (path, reply) =>
    match Settings.ofContent path reply with
    | .error fault => .error fault
    | .ok file => Settings.resolve own file

/-- The settings file is read if it is named, and nothing else is asked. -/
def IsFound (allows : Plan.Behaviour system σ) (before : σ) : Option String → Found → σ → Prop
  | none, found, after => found = none ∧ after = before
  | some path, found, after =>
    ∃ reply, allows before (.file (.read path)) reply after ∧ found = some (path, reply)

/-- What the program does with its settings: what it is told, or it fails if there are none. -/
def obeyWith (process : ℕ) (order : Order) : Except Settings.Fault Settings → Plan system Ending
  | .error fault => .done (.failed (settingsMessages fault))
  | .ok settings => obey settings process order

theorem run_of_read {process : ℕ} {arguments : List String} {environment : String → Option String}
    {wish : Wish} (hread : read arguments environment = .ok wish) :
    run process arguments environment =
      match wish.settingsFile with
      | none => obeyWith process wish.order (settle wish.layer none)
      | some path =>
        .ask (I := system) (.file (.read path)) fun reply =>
          obeyWith process wish.order (settle wish.layer (some (path, reply))) := by
  unfold run
  rw [hread]
  rcases wish with ⟨order, _ | path, own⟩
  · change (match Settings.resolve own {} with
      | .error fault => .done (.failed (settingsMessages fault))
      | .ok settings => obey settings process order) =
        obeyWith process order (Settings.resolve own {})
    cases Settings.resolve own {} with
    | error fault => rfl
    | ok settings => rfl
  · refine congrArg (Plan.ask (I := system) (.file (.read path))) (funext fun reply => ?_)
    dsimp only [Plan.andThen, settle]
    cases Settings.ofContent path reply with
    | error fault => rfl
    | ok file =>
        dsimp only
        cases Settings.resolve own file with
        | error fault => rfl
        | ok settings => rfl

theorem ends_run_iff {process : ℕ} {arguments : List String}
    {environment : String → Option String} {wish : Wish} {ending : Ending}
    (hread : read arguments environment = .ok wish) :
    (run process arguments environment).Ends allows before ending after ↔
      ∃ found between, IsFound allows before wish.settingsFile found between ∧
        (obeyWith process wish.order (settle wish.layer found)).Ends allows between ending
          after := by
  rw [run_of_read hread]
  cases wish.settingsFile with
  | none =>
      constructor
      · intro hends
        exact ⟨none, before, ⟨rfl, rfl⟩, hends⟩
      · rintro ⟨_, _, ⟨rfl, rfl⟩, hends⟩
        exact hends
  | some path =>
      constructor
      · rintro ⟨reply, between, hreply, hends⟩
        exact ⟨_, between, ⟨reply, hreply, rfl⟩, hends⟩
      · rintro ⟨_, between, ⟨reply, hreply, rfl⟩, hends⟩
        exact ⟨reply, between, hreply, hends⟩

/-- What the settings file gives is what goes into the settings. -/
theorem settle_eq_of_gives {own file : Layer} {found : Found} (hgives : Gives found file) :
    settle own found = Settings.resolve own file := by
  cases hgives with
  | nothing => rfl
  | document htext hentries hdescribes =>
      have hlayer := Settings.ofToml_eq_ok_iff.mpr ⟨_, hentries, hdescribes⟩
      simp only [settle, Settings.ofContent, htext, Settings.layerOf, hlayer]

theorem exists_gives {own : Layer} {found : Found} {settings : Settings}
    (hsettle : settle own found = .ok settings) : ∃ file, Gives found file := by
  unfold settle at hsettle
  split at hsettle
  · exact ⟨{}, .nothing⟩
  next path reply =>
    split at hsettle
    · cases hsettle
    next file hcontent =>
      unfold Settings.ofContent at hcontent
      split at hcontent
      · cases hcontent
      · split at hcontent
        · cases hcontent
        next document htext =>
          unfold Settings.layerOf at hcontent
          split at hcontent
          next layer hlayer =>
            obtain ⟨entries, hentries, hdescribes⟩ := Settings.ofToml_eq_ok_iff.mp hlayer
            exact ⟨layer, .document htext hentries hdescribes⟩
          · cases hcontent

theorem settle_eq_ok_iff {own : Layer} {found : Found} {settings : Settings} :
    settle own found = .ok settings ↔
      ∃ file, Gives found file ∧ Settings.IsLayered own file settings ∧ settings.IsRunnable := by
  constructor
  · intro hsettle
    obtain ⟨file, hgives⟩ := exists_gives hsettle
    rw [settle_eq_of_gives hgives] at hsettle
    exact ⟨file, hgives, Settings.resolve_eq_ok_iff.mp hsettle⟩
  · rintro ⟨file, hgives, hsettings⟩
    rw [settle_eq_of_gives hgives]
    exact Settings.resolve_eq_ok_iff.mpr hsettings

/-- **Settings are layered field by field, and checked once the layers are in place.**  The settings
that come of the command line and of what is found of the settings file are, in each field, what the
command line says, or else what the file says, or else the default.  They are taken if the probe can
run with them; there are none otherwise, and none if the file gives no layer.

So it makes no difference what the file says of a field that the command line sets, while a bad
value on the command line is refused whatever the file says.  The token to send is that of the
command line, or else that of the file, and an empty one is not sent.  The program reads the file if
one is named, and goes on with these settings. -/
theorem settings_of_layers :
    (∀ (own : Layer) (found : Found) (settings : Settings), settle own found = .ok settings ↔
      ∃ file, Gives found file ∧ Settings.IsLayered own file settings ∧ settings.IsRunnable) ∧
    (∀ {own file different : Layer} {found other : Found}, Gives found file →
      Gives other different → own.or file = own.or different →
        settle own other = settle own found) ∧
    (∀ {own : Layer} {found : Found} {settings : Settings}, settle own found = .ok settings →
      own.IsSound ∧ (own.authToken = some "" → settings.token? = none) ∧
        ∀ {file : Layer}, Gives found file → ∀ token, settings.token? = some token ↔
          (own.authToken = some token ∨ own.authToken = none ∧ file.authToken = some token) ∧
            token ≠ "") ∧
    ∀ {σ : Type} {allows : Plan.Behaviour system σ} {before after : σ} {process : ℕ}
      {arguments : List String} {environment : String → Option String} {wish : Wish}
      {ending : Ending}, read arguments environment = .ok wish →
        ((run process arguments environment).Ends allows before ending after ↔
          ∃ found between, IsFound allows before wish.settingsFile found between ∧
            (obeyWith process wish.order (settle wish.layer found)).Ends allows between ending
              after) := by
  refine ⟨fun _ _ _ => settle_eq_ok_iff, ?_, ?_, ends_run_iff⟩
  · intro own file different found other hfile hdifferent heq
    rw [settle_eq_of_gives hfile, settle_eq_of_gives hdifferent]
    exact Settings.resolve_congr heq.symm
  · intro own found settings hsettle
    obtain ⟨file, -, hlayered, hrunnable⟩ := settle_eq_ok_iff.mp hsettle
    refine ⟨hlayered.isSound hrunnable, ?_, ?_⟩
    · intro htoken
      rw [Settings.token?, hlayered.authToken, htoken]
      rfl
    · intro file hgives token
      rw [settle_eq_of_gives hgives] at hsettle
      exact (Settings.resolve_eq_ok_iff.mp hsettle).1.token?_eq_some_iff

/-- A command line with an empty token and a time limit. -/
def hasty : List String :=
  ["state", "show", "--config", "vigil.toml", "--auth-token", "", "--timeout-secs", "9"]

/-- What it asks for. -/
def hastyWish : Wish where
  order := .showMemory
  settingsFile := some "vigil.toml"
  layer := { authToken := some "", timeoutSeconds := some 9 }

/-- A settings file with a token, and a time limit that would be refused. -/
def rashDocument : Toml.Input :=
  "service = \"node-a\"\nauth_token = \"s3cret\"\ntimeout_secs = 0\ncolour = \"red\"\n".toList

/-- What that file gives. -/
def rashLayer : Layer where
  service := some "node-a"
  authToken := some "s3cret"
  timeoutSeconds := some 0

/-- A settings file without them. -/
def mildDocument : Toml.Input :=
  "service = \"node-a\"\n".toList

/-- A settings file that was found to hold a document. -/
def holding (document : Toml.Input) : Found :=
  some ("vigil.toml", .ok (Text.Utf8.encode document))

/-- A disk with the first of them. -/
def rashDisk : Disk :=
  ⟨[(["vigil.toml"], .file (Text.Utf8.encode rashDocument) false)], []⟩

/-- The settings that come of either file. -/
def hastySettings : Settings :=
  { Settings.defaults with service := "node-a", authToken := some "", timeoutSeconds := 9 }

theorem gives_holding {document : Toml.Input} {layer : Layer}
    (hlayer : Settings.ofToml document = .ok layer) : Gives (holding document) layer := by
  obtain ⟨entries, hentries, hdescribes⟩ := Settings.ofToml_eq_ok_iff.mp hlayer
  exact .document (Text.Utf8.decode?_encode document) hentries hdescribes

/-- The bad time limit in the file does no harm, and the token in it is not sent. -/
theorem settings_of_hasty :
    Gives (holding rashDocument) rashLayer ∧ ¬rashLayer.IsSound ∧
      settle hastyWish.layer (holding rashDocument) = .ok hastySettings ∧
      settle hastyWish.layer (holding mildDocument) = .ok hastySettings ∧
      hastySettings.token? = none ∧
      ∃ ending after, (run 1 hasty fun _ => none).Ends Silent rashDisk ending after ∧
        ending = .finished 0 (nothingAt Settings.defaults.statePath) := by
  obtain ⟨hlayers, hsame, hgood, hrun⟩ := settings_of_layers
  have hrash : Gives (holding rashDocument) rashLayer := gives_holding (by decide +kernel)
  have hmild : Gives (holding mildDocument) { service := some "node-a" } :=
    gives_holding (by decide +kernel)
  have hsettle : settle hastyWish.layer (holding rashDocument) = .ok hastySettings :=
    (hlayers _ _ _).mpr ⟨rashLayer, hrash, ⟨rfl, rfl, rfl, rfl, rfl, rfl, rfl, rfl, rfl⟩,
      Settings.defect?_eq_none_iff.mp (by decide +kernel)⟩
  refine ⟨hrash, ?_, hsettle, ?_, (hgood hsettle).2.1 rfl, ?_⟩
  · exact fun hsound => absurd (hsound.timeout 0 rfl) (by decide)
  · rw [hsame hrash hmild (by decide +kernel), hsettle]
  · have hread : read hasty (fun _ => none) = .ok hastyWish := by decide +kernel
    have hfile : rashDisk.read "vigil.toml" = .ok (Text.Utf8.encode rashDocument) := by
      decide +kernel
    have hfound : IsFound Silent rashDisk (some "vigil.toml") (holding rashDocument) rashDisk :=
      ⟨_, ⟨hfile.symm, rfl⟩, rfl⟩
    have hending : ((showMemory hastySettings).run silence rashDisk).1 =
        .finished 0 (nothingAt Settings.defaults.statePath) := by decide +kernel
    obtain ⟨after, hshow⟩ : ∃ after, (showMemory hastySettings).Ends Silent rashDisk
        (.finished 0 (nothingAt Settings.defaults.statePath)) after :=
      ⟨_, hending ▸ Plan.ends_run silent_silence _ _⟩
    refine ⟨_, after, (hrun hread).mpr ⟨_, _, hfound, ?_⟩, rfl⟩
    rw [hsettle]
    exact hshow

end ServiceWatch.CommandLine
