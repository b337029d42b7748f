import SequencerHub.Proofs.Extraction

/-! Which of several sources of settings counts. A setting comes from the command if it is given there, else from the
environment, else from the file, else from the defaults. -/
namespace SequencerHub

namespace Setting

/-- What stands at the end of a way through mappings. -/
def at? : List String → Setting → Option Setting
  | [], v => some v
  | key :: way, v => (find? key v.members).bind (at? way)

/-- Whether a layer has nothing at the end of a way, and nothing on the way that would hide what others have there. -/
def Silent : List String → Setting → Prop
  | key :: way, .dict members _ => ∀ w, find? key members = some w → Silent way w
  | _, _ => False

theorem Silent.atop {way : List String} {v : Setting} {lower : Option Setting} (hv : v.Silent way) (ho : v.Ordered)
    (hl : ∀ w, lower = some w → w.Silent way) : (v.atop lower).Silent way := by
  induction way generalizing v lower with
  | nil => exact hv.elim
  | cons key way ih =>
    cases ho with
    | scalar value layer => exact hv.elim
    | list layer _ => exact hv.elim
    | @dict later layer hs hm =>
      cases lower with
      | none => exact hv
      | some below =>
        cases below with
        | scalar value layer => exact (hl _ rfl).elim
        | list items layer => exact (hl _ rfl).elim
        | dict earlier layer =>
          intro w hw
          rw [find?_mergeMembers hs.nodup] at hw
          cases hlater : find? key later with
          | none =>
            rw [hlater] at hw
            exact hl _ rfl w hw
          | some u =>
            rw [hlater] at hw
            obtain rfl := Option.some.inj hw
            exact ih (hv u hlater) (hm _ (mem_of_lookup hlater)) (hl _ rfl)

end Setting

namespace Layers

/-- What is said of the member at the end of a way. -/
def along (way : List String) (layers : Layers) : Layers := way.foldl (fun layers key => member key layers) layers

/-- A layer that is silent about a setting changes nothing about it. -/
theorem along_silent {way : List String} {v : Setting} (h : v.Silent way) (lower : Layers) :
    along way (v :: lower) = along way lower := by
  induction way generalizing v lower with
  | nil => exact h.elim
  | cons key way ih =>
    cases v with
    | scalar value layer => exact h.elim
    | list items layer => exact h.elim
    | dict members layer =>
      rw [along, along, List.foldl_cons, List.foldl_cons, member]
      cases hfind : Setting.find? key members with
      | none => rfl
      | some w => exact ih (h w hfind) (member key lower)

theorem along_at? {way : List String} {v w : Setting} (h : v.at? way = some w) (lower : Layers) :
    ∃ hidden, along way (v :: lower) = w :: hidden := by
  induction way generalizing v lower with
  | nil =>
    obtain rfl := Option.some.inj h
    exact ⟨lower, rfl⟩
  | cons key way ih =>
    obtain ⟨u, hu, hw⟩ := Option.bind_eq_some_iff.mp h
    cases v with
    | scalar value layer => cases hu
    | list items layer => cases hu
    | dict members layer =>
      have hmember : member key (.dict members layer :: lower) = u :: member key lower := by
        rw [member, show Setting.find? key members = some u from hu]
        rfl
      rw [along, List.foldl_cons, hmember]
      exact ih hw (member key lower)

/-- At the end of a way the layers together have what they say there. -/
theorem at?_merged {layers : Layers} (ho : layers.Ordered) (way : List String) :
    layers.merged.bind (Setting.at? way) = (along way layers).merged := by
  induction way generalizing layers with
  | nil =>
    show layers.merged.bind (Setting.at? []) = layers.merged
    cases layers.merged <;> rfl
  | cons key way ih =>
    rw [along, List.foldl_cons, ← along, ← ih (ho.member key), ← find?_merged ho]
    cases layers.merged <;> rfl

theorem at?_single {v : Setting} (h : v.Ordered) (way : List String) : v.at? way = (along way [v]).merged :=
  at?_merged (List.forall_mem_singleton.mpr h) way

theorem at?_merge {v w : Setting} (hv : v.Ordered) (hw : w.Ordered) (way : List String) :
    (w.merge v).at? way = (along way [v, w]).merged :=
  at?_merged (List.forall_mem_cons.mpr ⟨hv, List.forall_mem_singleton.mpr hw⟩) way

end Layers

namespace Environment

/-- Ways neither of which goes on from the end of the other. -/
def Apart (w way : List String) : Prop := ¬ w <+: way ∧ ¬ way <+: w

section Nest

variable {v : Setting} {lower : Layers} {w way : List String}

theorem along_nest_self (v : Setting) (way : List String) (lower : Layers) :
    Layers.along way (nest v way :: lower) = v :: Layers.along way lower := by
  induction way generalizing lower with
  | nil => rfl
  | cons key way ih =>
    have hmember : Layers.member key (nest v (key :: way) :: lower) = nest v way :: Layers.member key lower := by
      simp [nest, Layers.member, Setting.find?]
    rw [Layers.along, List.foldl_cons, hmember]
    exact ih _

theorem nest_silent (h : Apart w way) (v : Setting) : (nest v w).Silent way := by
  induction w generalizing way with
  | nil => exact absurd List.nil_prefix h.1
  | cons k w ih =>
    cases way with
    | nil => exact absurd List.nil_prefix h.2
    | cons key way =>
      intro u hu
      rw [Setting.find?_eq_lookup, lookup_cons] at hu
      split_ifs at hu with hk
      · subst hk
        obtain rfl := Option.some.inj hu
        exact ih ⟨fun hp => h.1 (List.cons_prefix_cons.mpr ⟨rfl, hp⟩), fun hp => h.2 (List.cons_prefix_cons.mpr ⟨rfl, hp⟩)⟩
      · cases hu

end Nest

section Layer

variable {env before after : List (String × String)} {name text : String} {way : List String}

theorem layer_concat (env : List (String × String)) (name text : String) : layer (env ++ [(name, text)]) =
    (way? name).elim (layer env) fun way => (layer env).merge (nest (Text.read text) way) := by
  rw [layer, List.foldl_concat]
  dsimp only
  cases way? name <;> rfl

theorem at?_layer_self (h : way? name = some way) : (layer (before ++ [(name, text)])).at? way =
    some ((Text.read text).atop ((layer before).at? way)) := by
  rw [layer_concat, h, Layers.at?_single (ordered_layer before), ← Layers.merged, ← along_nest_self]
  exact Layers.at?_merge (ordered_nest (Text.ordered_read text) way) (ordered_layer before) way

/-- A variable that has nothing to do with a setting changes nothing about it. -/
theorem at?_layer_apart (h : ∀ w, way? name = some w → Apart w way) :
    (layer (before ++ [(name, text)])).at? way = (layer before).at? way := by
  rw [layer_concat]
  cases hname : way? name with
  | none => rfl
  | some w =>
    rw [Layers.at?_single (ordered_layer before), ← Layers.along_silent (nest_silent (h w hname) (Text.read text))]
    exact Layers.at?_merge (ordered_nest (Text.ordered_read text) w) (ordered_layer before) way

/-- Of several variables for one thing the last counts; a mapping goes over what was there before. -/
theorem at?_layer_last (hway : way? name = some way) (hafter : ∀ x ∈ after, ∀ w, way? x.1 = some w → Apart w way) :
    (layer (before ++ (name, text) :: after)).at? way = some ((Text.read text).atop ((layer before).at? way)) := by
  induction after using List.reverseRecOn with
  | nil => exact at?_layer_self hway
  | append_singleton after x ih =>
    rw [← List.cons_append, ← List.append_assoc, at?_layer_apart (hafter x (by simp)),
      ih fun y hy => hafter y (List.mem_append_left _ hy)]

theorem layer_silent (hway : way ≠ []) (h : ∀ x ∈ env, ∀ w, way? x.1 = some w → Apart w way) :
    (layer env).Silent way := by
  obtain ⟨key, way, rfl⟩ := List.exists_cons_of_ne_nil hway
  induction env using List.reverseRecOn with
  | nil => exact fun w hw => by cases hw
  | append_singleton env x ih =>
    have ih := ih fun y hy => h y (List.mem_append_left _ hy)
    rw [layer_concat]
    cases hname : way? x.1 with
    | none => exact ih
    | some w =>
      have hnest := nest_silent (h x (by simp) w hname) (Text.read x.2)
      exact hnest.atop (ordered_nest (Text.ordered_read x.2) w) fun u hu => Option.some.inj hu ▸ ih

end Layer
end Environment
namespace Settings

def defaults : Setting := Setting.ofJson .defaults base.toJson

/-- The layer of a file; a missing one sets nothing. -/
def document (path : String) : Option String → Except LoadError Setting
  | some text => fileLayer path text
  | none => .ok (.dict [] .file)

/-- The layers, from the environment down. -/
def layers (env : List (String × String)) (file : Setting) : Layers := [Environment.layer env, file, defaults]

section Extract

variable {path : String} {text : Option String} {env : List (String × String)} {file : Setting} {s : Settings}

theorem ordered_document (h : document path text = .ok file) : file.Ordered := by
  have hempty : (Setting.dict [] .file).Ordered := .dict .file .nil (List.forall_mem_nil _)
  cases text with
  | none => exact Except.ok.inj h ▸ hempty
  | some text =>
    simp only [document, fileLayer] at h
    split at h
    · cases h
    · split at h
      · exact Except.ok.inj h ▸ hempty
      · split at h
        · split at h
          · rename_i v hv
            split_ifs at h
            exact Except.ok.inj h ▸ Setting.ordered_ofNode hv
          · cases h
        · cases h
        · cases h

theorem ordered_layers (env : List (String × String)) (h : file.Ordered) : Layers.Ordered (layers env file) :=
  List.forall_mem_cons.mpr ⟨Environment.ordered_layer env, List.forall_mem_cons.mpr ⟨h, List.forall_mem_cons.mpr
    ⟨Setting.ordered_ofJson .defaults _, List.forall_mem_nil _⟩⟩⟩

theorem extract_eq_ok : extract path text env = .ok s ↔ ∃ file, document path text = .ok file ∧ Drawn (layers env file) s := by
  have hextract : extract path text env = document path text >>= fun file =>
      (read .layers ((defaults.merge file).merge (Environment.layer env)).toNode).mapError (.extraction path) := by
    cases text <;>
    · refine bind_congr fun file => ?_
      dsimp only [defaults]
      split <;> rename_i hread <;> rw [hread] <;> rfl
  rw [hextract]
  cases hdoc : document path text with
  | error e => simp [bind, Except.bind]
  | ok file =>
    have hmerged : (layers env file).merged = some ((defaults.merge file).merge (Environment.layer env)) := rfl
    rw [ok_bind]
    simp only [Except.ok.injEq, exists_eq_left']
    rw [← read_eq_ok (ordered_layers env (ordered_document hdoc)) hmerged]
    cases read .layers ((defaults.merge file).merge (Environment.layer env)).toNode <;> simp [Except.mapError]

end Extract

/-- What it means that settings are those given with their home directory settled. -/
def Settles (home : Option String) (files : FileTree) (given s : Settings) : Prop :=
  ∃ dir, HomeDir.locate home given.homeGiven? ".mobject" = .ok dir ∧ (files.createAll dir).2 = .ok () ∧
    s = { given with server := { given.server with homeDir := dir } }

theorem settleHome_eq_ok {home : Option String} {files : FileTree} {given s : Settings} :
    (settleHome home given files).2 = .ok s ↔ given.Settles home files s := by
  unfold Settles settleHome HomeDir.resolve
  cases HomeDir.locate home given.homeGiven? ".mobject" with
  | error e => simp
  | ok dir =>
    simp only [if_true, Except.ok.injEq, exists_eq_left']
    cases hmade : files.createAll dir with
    | mk files' made => cases made <;> simp [eq_comm]

/-- Loading from a file succeeds if and only if the layers give settings, their home directory can be made and their
providers have ids of their own. -/
theorem loadFile_eq_ok {path : String} {env : List (String × String)} {files : FileTree} {s : Settings} :
    (loadFile path env files).2 = .ok s ↔ ∃ (file : Setting) (given : Settings),
      document path (files.read? path).toOption = .ok file ∧ given.Drawn (layers env file) ∧
        given.Settles (valueOf? env HomeDir.homeVariable) files s ∧ given.validate = .ok () := by
  have hextract : (∃ (file : Setting) (given : Settings),
      document path (files.read? path).toOption = .ok file ∧ given.Drawn (layers env file) ∧
        given.Settles (valueOf? env HomeDir.homeVariable) files s ∧ given.validate = .ok ()) ↔
      ∃ given : Settings, extract path (files.read? path).toOption env = .ok given ∧
        given.Settles (valueOf? env HomeDir.homeVariable) files s ∧ given.validate = .ok () := by
    simp only [extract_eq_ok]
    constructor
    · rintro ⟨file, given, hdoc, hdrawn, h⟩
      exact ⟨given, ⟨file, hdoc, hdrawn⟩, h⟩
    · rintro ⟨given, ⟨file, hdoc, hdrawn⟩, h⟩
      exact ⟨file, given, hdoc, hdrawn, h⟩
  rw [hextract, loadFile]
  cases extract path (files.read? path).toOption env with
  | error e => simp
  | ok given =>
    simp only [Except.ok.injEq, exists_eq_left', ← settleHome_eq_ok]
    have hvalid : ∀ s', (settleHome (valueOf? env HomeDir.homeVariable) given files).2 = .ok s' →
        s'.validate = given.validate := by
      intro s' hs'
      obtain ⟨dir, -, -, rfl⟩ := settleHome_eq_ok.mp hs'
      rfl
    cases hsettle : settleHome (valueOf? env HomeDir.homeVariable) given files with
    | mk files' settled =>
      cases settled with
      | error e => simp
      | ok s' =>
        have hsame := hvalid s' (congrArg Prod.snd hsettle)
        dsimp only
        rw [← hsame]
        cases s'.validate <;> simp

theorem load_none_eq_ok {env : List (String × String)} {files : FileTree} {s : Settings} :
    (load none env files).2 = .ok s ↔ fallback.Settles (valueOf? env HomeDir.homeVariable) files s := by
  rw [← settleHome_eq_ok, load]
  split <;> rename_i h <;> simp [h]

end Settings

def Overrides.consoleLevel? (o : Overrides) : Option String :=
  match o.verbosity with
  | 0 => none
  | 1 => some "debug"
  | _ => some "trace"

/-- What it means that settings are those given but for what comes with the command. -/
structure Overridden (o : Overrides) (given s : Settings) : Prop where
  server : s.server = { given.server with port := o.port.getD given.server.port }
  providers : s.providers = given.providers
  /-- Logging that was left out is filled in as a whole. -/
  sections : ∀ name sec, (given.logging.getD .fallback).find? name = some sec →
    (s.logging.bind fun sections => sections.find? name) = some (if name = "default" then
      { sec with consoleLevel := o.consoleLevel?.getD sec.consoleLevel } else sec)
  others : ∀ name, name ≠ "default" → (given.logging.getD .fallback).find? name = none →
    (s.logging.bind fun sections => sections.find? name) = none
  unchanged : o = {} → given.logging ≠ none → s = given

section Override

variable (o : Overrides) (given : Settings)

def Overrides.onSection (name : String) (sec : LogSection) : LogSection :=
  if name = "default" then { sec with consoleLevel := o.consoleLevel?.getD sec.consoleLevel } else sec

theorem override_logging : (given.override o).logging =
    some ((given.logging.getD .fallback).map fun x => (x.1, o.onSection x.1 x.2)) := by
  obtain ⟨port, _ | _ | n⟩ := o <;> rfl

theorem find?_override (name : String) :
    ((given.override o).logging.bind fun sections => sections.find? name) =
      ((given.logging.getD .fallback).find? name).map (o.onSection name) := by
  rw [override_logging, Option.bind_some]
  show lookup name _ = (lookup name _).map _
  induction given.logging.getD .fallback with
  | nil => rfl
  | cons x sections ih =>
    obtain ⟨n, sec⟩ := x
    rw [List.map_cons, lookup_cons, lookup_cons, ih]
    split_ifs with hn
    · rw [hn, Option.map_some]
    · rfl

theorem override_overridden : Overridden o given (given.override o) where
  server := by obtain ⟨_ | port, n⟩ := o <;> rfl
  providers := rfl
  sections name sec h := by rw [find?_override, h, Option.map_some]; rfl
  others name _ h := by rw [find?_override, h, Option.map_none]
  unchanged := by
    rintro rfl hlogging
    obtain ⟨server, _ | sections, providers⟩ := given
    · exact absurd rfl hlogging
    · have hsame : ∀ x : String × LogSection, (x.1, ({} : Overrides).onSection x.1 x.2) = x := by
        intro x
        unfold Overrides.onSection
        split_ifs <;> rfl
      have hlogging := override_logging {} ⟨server, some sections, providers⟩
      simp only [Option.getD_some, hsame, List.map_id'] at hlogging
      exact congrArg (fun logging => (⟨server, logging, providers⟩ : Settings)) hlogging

end Override

/-- The command fills in logging even if it asks for nothing, and without a file a variable does not count. -/
theorem sources_not_layered :
    (∃ given : Settings, (Settings.load (some "/missing.yaml") [("HOME", "/home")] {}).2 = .ok given ∧
      given.override {} ≠ given) ∧
    Environment.way? "MOBJECT__SERVER__PORT" = some ["server", "port"] ∧
    ∃ given : Settings, (Settings.load none [("HOME", "/home"), ("MOBJECT__SERVER__PORT", "5")] {}).2 = .ok given ∧
      given.server.port ≠ 5 := by
  refine ⟨⟨⟨⟨"/home/.mobject", "127.0.0.1", 8087⟩, none, [{}]⟩, toOption_eq_some.mp ?_, fun h => by cases h⟩, by decide,
    ⟨⟨"/home/.mobject", "127.0.0.1", 8087⟩, some .fallback, [{}]⟩, toOption_eq_some.mp ?_, by decide⟩ <;>
  decide +kernel

/-- What it means that of all sources of settings the highest that has something to say about a setting counts: the
command, the environment, the file and the defaults. -/
structure Precedence (env : List (String × String)) (files : FileTree) (o : Overrides) : Prop where
  /-- Whatever is loaded from a file and the environment is what the highest layer says, and everything that the layers
  say in the right types loads. -/
  layered : ∀ path s, (Settings.load (some path) env files).2 = .ok s ↔ ∃ (file : Setting) (given : Settings),
    Settings.document path (files.read? path).toOption = .ok file ∧ given.Drawn (Settings.layers env file) ∧
      given.Settles (Settings.valueOf? env HomeDir.homeVariable) files s ∧ given.validate = .ok ()
  /-- A variable is over the file and the variables before it. -/
  named : ∀ before name text after way, env = before ++ (name, text) :: after → Environment.way? name = some way →
    (∀ x ∈ after, ∀ w, Environment.way? x.1 = some w → Environment.Apart w way) → ∀ file, ∃ hidden,
      Layers.along way (Settings.layers env file) =
        (Environment.Text.read text).atop ((Environment.layer before).at? way) :: hidden
  /-- What no variable names is as if there were none. -/
  unnamed : ∀ way, way ≠ [] → (∀ x ∈ env, ∀ w, Environment.way? x.1 = some w → Environment.Apart w way) → ∀ file,
    Layers.along way (Settings.layers env file) = Layers.along way [file, Settings.defaults]
  /-- What the file does not set is as in the defaults. -/
  omitted : ∀ (file : Setting) way, file.Silent way →
    Layers.along way [file, Settings.defaults] = Layers.along way [Settings.defaults]
  builtIn : (∀ x ∈ env, Environment.way? x.1 = none) → ∀ s, (Settings.load none env files).2 = .ok s ↔
    Settings.fallback.Settles (Settings.valueOf? env HomeDir.homeVariable) files s
  overridden : ∀ s, Overridden o s (s.override o)

theorem load_precedence (env : List (String × String)) (files : FileTree) (o : Overrides) : Precedence env files o where
  layered _ _ := Settings.loadFile_eq_ok
  named := by
    rintro before name text after way rfl hway hafter file
    exact Layers.along_at? (Environment.at?_layer_last hway hafter) [file, Settings.defaults]
  unnamed _ hway h _ := Layers.along_silent (Environment.layer_silent hway h) _
  omitted _ _ h := Layers.along_silent h _
  builtIn _ _ := Settings.load_none_eq_ok
  overridden s := override_overridden o s

def sampleFiles : FileTree := ⟨[(["mobject.yaml".toList], .file
  "server:\n  port: 9000\n  host: hub\nlogging:\n  default:\n    console_level: warn\n    file: hub.log\n")]⟩

def sampleVariables : List (String × String) := [("HOME", "/home"), ("MOBJECT__SERVER__PORT", "9100")]

/-- The port is the variable's, the console level the command's, and the providers are the defaults. -/
theorem load_precedence_sample : Precedence sampleVariables sampleFiles { verbosity := 1 } ∧
    (Settings.load (some "/mobject.yaml") sampleVariables sampleFiles).2.toOption.map (·.override { verbosity := 1 }) =
      some ⟨⟨"/home/.mobject", "hub", 9100⟩, some [("default", ⟨"debug", "hub.log", "", none, none, none⟩)], [{}]⟩ :=
  ⟨load_precedence sampleVariables sampleFiles { verbosity := 1 }, by decide +kernel⟩

end SequencerHub
