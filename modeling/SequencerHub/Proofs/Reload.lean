import SequencerHub.Config.Document
import SequencerHub.Proofs.Assembly
import SequencerHub.Proofs.Catalogue
import SequencerHub.Proofs.HomeDir
import SequencerHub.Proofs.Precedence
import SequencerHub.Proofs.Trees

/-! The settings as they are shown load again. In the layer of the file every field stands for what it was written
from, so that no default is left to count; only the sections of the logging come back in the order of their names. -/
namespace SequencerHub

namespace FileTree

variable {t t' : FileTree} {names other : List (List Char)} {e : FileEntry}

theorem entry?_put_other (t : FileTree) (e : FileEntry) (h : other ≠ names) :
    FileTree.entry? (t.put names e) other = t.entry? other := by
  have hlast : [(names, e)].find? (·.1 = other) = none := by simp [h.symm]
  have hkept : (t.entries.filter fun x => x.1 ≠ names).find? (·.1 = other) = t.entries.find? (·.1 = other) := by
    rw [List.find?_filter]
    congr 1
    funext x
    by_cases hx : x.1 = other <;> simp [hx, h]
  unfold FileTree.entry? put
  rw [List.find?_append, hlast, hkept, Option.or_none]

theorem entry?_put_file (t : FileTree) (text : String) (h : names ≠ []) :
    FileTree.entry? (t.put names (.file text)) names = some (.file text) := by
  have hnone : (t.entries.filter fun x => x.1 ≠ names).find? (·.1 = names) = none :=
    List.find?_eq_none.mpr fun x hx => by simpa using (List.mem_filter.mp hx).2
  unfold FileTree.entry? put
  rw [List.find?_append, hnone]
  simp [h]

theorem fileNames_eq_ok {path : String} (h : t.fileNames path = .ok names) : checkPath path.toList = .ok () ∧
    t.walk [] (Path.steps path.toList) = .ok names ∧ t.entry? names ≠ some .directory ∧
      path.toList.getLast? ≠ some '/' := by
  unfold fileNames at h
  cases hc : checkPath path.toList with
  | error e => simp [hc, bind, Except.bind] at h
  | ok u =>
    cases hw : t.walk [] (Path.steps path.toList) with
    | error e => simp [hc, hw, bind, Except.bind] at h
    | ok found =>
      simp only [hc, hw, ok_bind] at h
      split at h
      · cases h
      · rename_i _ hentry
        split_ifs at h with hslash
        obtain rfl := Except.ok.inj h
        exact ⟨rfl, rfl, fun heq => hentry heq, hslash⟩
      · cases h
      · cases h

/-- What is written to a file is read from it. -/
theorem read?_write {path text : String} (h : t.write path text = .ok t') : t'.read? path = .ok text := by
  unfold write at h
  cases hnames : t.fileNames path with
  | error e => simp [hnames, bind, Except.bind] at h
  | ok names =>
    rw [hnames, ok_bind] at h
    obtain rfl := Except.ok.inj h
    obtain ⟨hc, hw, hentry, hslash⟩ := fileNames_eq_ok hnames
    have hne : names ≠ [] := by
      rintro rfl
      exact hentry rfl
    have hwalk : (t.put names (.file text)).walk [] (Path.steps path.toList) = .ok names := by
      refine walk_of_directories (fun {other} hother => ?_) hw
      have hne : other ≠ names := by
        rintro rfl
        exact hentry hother
      rwa [entry?_put_other t _ hne]
    rw [read?, stat, hc, ok_bind, hwalk, ok_bind, entry?_put_file t text hne]
    simp [hslash]

end FileTree

section Counts

open Yaml

variable {n : Nat} (layer : Layer)

theorem integer_count {high : Int} (h : n < 2 ^ 64) (hn : (n : Int) ≤ high) (expected : String) :
    Node.integer 0 high expected (Setting.scalar (countScalar n) layer).toNode = .ok n := by
  rw [countScalar_of_lt h]
  exact if_pos ⟨Int.natCast_nonneg n, hn⟩

theorem uint16_count (n : UInt16) : Node.uint16 (Setting.scalar (countScalar n.toNat) layer).toNode = .ok n := by
  have hn := n.toNat_lt
  rw [Node.uint16, integer_count layer (by omega) (by omega)]
  simp

theorem uint32_count (n : UInt32) : Node.uint32 (Setting.scalar (countScalar n.toNat) layer).toNode = .ok n := by
  have hn := n.toNat_lt
  rw [Node.uint32, integer_count layer (by omega) (by omega)]
  simp

theorem uint64_count (expected : String) (n : UInt64) :
    Node.uint64 expected (Setting.scalar (countScalar n.toNat) layer).toNode = .ok n := by
  have hn := n.toNat_lt
  rw [Node.uint64, integer_count layer (by omega) (by omega)]
  simp

theorem option_count {α : Type} {read : Node Layer → Decoded Layer α} {a : α}
    (h : read (Setting.scalar (countScalar n) layer).toNode = .ok a) :
    Node.option read (Setting.scalar (countScalar n) layer).toNode = .ok (some a) := by
  have hnull := countScalar_ne_null n
  generalize countScalar n = v at h hnull ⊢
  have hsome : Node.option read (Setting.scalar v layer).toNode = some <$> read (Setting.scalar v layer).toNode := by
    cases v with
    | null => exact absurd rfl hnull
    | _ => rfl
  rw [hsome, h]
  rfl

end Counts

theorem Layers.mem_keys_of_member {layers : Layers} {name : String} (h : member name layers ≠ []) :
    name ∈ layers.flatMap fun v => v.members.map Prod.fst := by
  induction layers with
  | nil => exact absurd rfl h
  | cons v lower ih =>
    cases v with
    | dict members layer =>
      rw [List.flatMap_cons, List.mem_append]
      by_cases hlower : member name lower = []
      · left
        refine lookup_ne_none.mp fun hnone => h ?_
        have hfind : Setting.find? name members = none := hnone
        rw [member, hlower, hfind]
        rfl
      · exact .inr (ih hlower)
    | _ => exact absurd rfl h

open Yaml Layers

theorem ServerSettings.drawn_toYaml (s : ServerSettings) :
    Drawn [s.toYaml.toSetting, Setting.ofJson .defaults Settings.base.server.toJson] s where
  admits _ key hkey := by
    have hkeys : key ∈ ["home_dir", "host", "port", "home_dir", "host", "port"] := mem_keys_of_member hkey
    clear hkey
    revert key
    decide
  homeDir := ⟨.scalar (.string s.homeDir) .file, rfl, rfl⟩
  host := ⟨.scalar (.string s.host) .file, rfl, rfl⟩
  port := ⟨.scalar (countScalar s.port.toNat) .file, rfl, uint16_count .file s.port⟩

theorem LogSection.drawn_toYaml (s : LogSection) : Drawn [s.toYaml.toSetting] s where
  admits := nofun
  consoleLevel := ⟨.scalar (.string s.consoleLevel) .file, rfl, rfl⟩
  file := ⟨.scalar (.string s.file) .file, rfl, rfl⟩
  fileLevel := rfl
  maxAgeDays := by
    obtain ⟨_, _, _, _ | n, _, _⟩ := s
    · rfl
    · exact option_count .file (uint32_count .file n)
  maxBackups := by
    obtain ⟨_, _, _, _, _ | n, _⟩ := s
    · rfl
    · exact option_count .file (uint64_count .file "usize" n)
  maxSizeMb := by
    obtain ⟨_, _, _, _, _, _ | n⟩ := s
    · rfl
    · exact option_count .file (uint64_count .file "u64" n)

namespace ProviderOptions

def slots : List (Slot Layer Draft) := [
  ⟨(shape .layers).fields[0], Node.uint16, Draft.providerId, fun v d => { d with providerId := some v }⟩,
  ⟨(shape .layers).fields[1], Node.string, Draft.token, fun v d => { d with token := some v }⟩,
  ⟨(shape .layers).fields[2], TeardownPolicy.choice.read .layers, Draft.teardown,
    fun v d => { d with teardown := some v }⟩]

theorem slotted : (shape .layers).Slotted slots := by
  refine ⟨rfl, ?_, ?_⟩
  · simp only [slots, List.forall_mem_cons]
    refine ⟨?_, ?_, ?_, by simp⟩ <;> exact .of_read (fun _ _ => rfl) (fun _ => rfl) fun _ _ => rfl
  · simp only [slots, List.pairwise_cons, List.forall_mem_cons]
    refine ⟨⟨?_, ?_, by simp⟩, ⟨?_, by simp⟩, by simp, List.Pairwise.nil⟩ <;>
      exact ⟨by decide, fun _ _ _ => rfl, fun _ _ => rfl, fun _ _ => rfl⟩

theorem drafted : RecordShape.Drafted slots {} := by
  refine ⟨by simp [slots], fun d₁ d₂ h => ?_⟩
  simp only [slots, List.forall_mem_cons] at h
  obtain ⟨hid, htoken, hteardown, -⟩ := h
  cases d₁
  cases d₂
  cases hid
  cases htoken
  cases hteardown
  rfl

theorem read_toYaml (o : ProviderOptions) : read .layers o.toYaml.toSetting.toNode = .ok o := by
  have hteardown : TeardownPolicy.choice.read .layers (Setting.scalar (.string o.teardown.name) .file).toNode =
      .ok o.teardown := by cases o.teardown <;> rfl
  have hkeys : (Setting.toMembers .file o.toYaml.toSetting.members).keys = ["provider_id", "teardown", "token"] := rfl
  have hnodup : (Setting.toMembers .file o.toYaml.toSetting.members).keys.Nodup := by
    rw [hkeys]
    decide
  have hknown : ∀ key ∈ (Setting.toMembers .file o.toYaml.toSetting.members).keys,
      key ∈ (shape (μ := Layer) .layers).names := by
    rw [hkeys]
    decide
  refine (RecordShape.read_object_eq_ok slotted drafted .layers (Setting.isWhole_toMembers .file _) hnodup).mpr
    ⟨fun _ => hknown, ⟨some o.providerId, some o.token, some o.teardown⟩, ?_, rfl, rfl⟩
  simp only [slots, RecordShape.valuesOf, Slot.Holds, List.map_cons, List.forall_mem_cons]
  exact ⟨congrArg some (uint16_count .file o.providerId), rfl, congrArg some hteardown, List.forall_mem_nil _⟩

end ProviderOptions

section Lookup

variable {β : Type} {ms ns : List (String × β)}

theorem lookup_of_mem {m : String × β} (hn : (ms.map Prod.fst).Nodup) (hm : m ∈ ms) : lookup m.1 ms = some m.2 := by
  rw [lookup, Members.find?_of_mem hn hm]
  rfl

theorem lookup_perm (hp : ms.Perm ns) (hn : (ns.map Prod.fst).Nodup) (key : String) :
    lookup key ms = lookup key ns := by
  have hn' : (ms.map Prod.fst).Nodup := (hp.map Prod.fst).nodup_iff.mpr hn
  cases hkey : lookup key ns with
  | some b => exact lookup_of_mem hn' (hp.mem_iff.mpr (mem_of_lookup hkey))
  | none =>
    refine lookup_eq_none fun hmem => ?_
    exact lookup_ne_none.mpr ((hp.map Prod.fst).mem_iff.mp hmem) hkey

end Lookup

theorem find?_memberSettings {members : List (String × Value)} (hn : (members.map Prod.fst).Nodup)
    (sorted : List (String × Setting)) (key : String) : Setting.find? key (memberSettings sorted members) =
      (lookup key members).elim (Setting.find? key sorted) fun v => some v.toSetting := by
  induction members generalizing sorted with
  | nil => rfl
  | cons m members ih =>
    obtain ⟨k, v⟩ := m
    obtain ⟨hk, hn⟩ := List.nodup_cons.mp hn
    rw [memberSettings, ih hn, Setting.find?_put, lookup_cons]
    split_ifs with heq
    · obtain rfl := heq
      rw [lookup_eq_none hk]
      rfl
    · rfl

namespace LogSections

theorem lookup_map (sections : LogSections) (f : LogSection → Value) (name : String) :
    lookup name (sections.map fun x => (x.1, f x.2)) = (lookup name sections).map f := by
  rw [lookup, lookup, List.find?_map, Option.map_map, Option.map_map]
  rfl

/-- Sections with names of their own in the order of their names. -/
theorem exists_sorted {sections : LogSections} (hn : (sections.map Prod.fst).Nodup) :
    ∃ sorted : LogSections, sorted.Perm sections ∧ (sorted.map Prod.fst).Pairwise (· < ·) :=
  ⟨_, List.mergeSort_perm sections _, List.pairwise_map.mpr (pairwise_lt_mergeSort hn)⟩

theorem drawn_toYaml {sections sorted : LogSections} (hn : (sections.map Prod.fst).Nodup) (hp : sorted.Perm sections)
    (hs : (sorted.map Prod.fst).Pairwise (· < ·)) (value : Scalar) (layer : Layer) :
    Drawn [(Value.map (sections.map fun (name, s) => (name, s.toYaml))).toSetting, .scalar value layer] sorted := by
  have hmember : ∀ name, member name [(Value.map (sections.map fun (name, s) => (name, s.toYaml))).toSetting,
      .scalar value layer] = ((lookup name sorted).map fun s => s.toYaml.toSetting).toList := by
    intro name
    have hkeys : ((sections.map fun (name, s) => (name, s.toYaml)).map Prod.fst).Nodup := by
      rwa [List.map_map]
    have hfind := find?_memberSettings hkeys [] name
    rw [lookup_map, ← lookup_perm hp hn] at hfind
    show (Setting.find? name (memberSettings [] (sections.map fun (name, s) => (name, s.toYaml)))).toList ++ [] = _
    rw [List.append_nil, hfind]
    cases lookup name sorted <;> rfl
  refine ⟨⟨_, _, _, rfl⟩, hs, fun name s hfind => ?_, fun name hfind => ?_⟩
  · have hlookup : lookup name sorted = some s := hfind
    rw [hmember, hlookup]
    exact s.drawn_toYaml
  · have hlookup : lookup name sorted = none := hfind
    rw [hmember, hlookup]
    rfl

end LogSections

theorem Environment.layer_none {env : List (String × String)} (h : ∀ x ∈ env, way? x.1 = none) :
    layer env = .dict [] .environment := by
  induction env using List.reverseRecOn with
  | nil => rfl
  | append_singleton env x ih =>
    rw [layer_concat, h x (by simp), ih fun y hy => h y (List.mem_append_left _ hy)]
    rfl

namespace Yaml

theorem itemsNesting_le {items : List Value} {d : Nat} (h : ∀ v ∈ items, v.nesting ≤ d) : itemsNesting items ≤ d := by
  induction items with
  | nil => exact Nat.zero_le d
  | cons v more ih =>
    obtain ⟨hv, hmore⟩ := List.forall_mem_cons.mp h
    exact max_le hv (ih hmore)

theorem membersNesting_le {members : List (String × Value)} {d : Nat} (h : ∀ m ∈ members, m.2.nesting ≤ d) :
    membersNesting members ≤ d := by
  induction members with
  | nil => exact Nat.zero_le d
  | cons m more ih =>
    obtain ⟨hm, hmore⟩ := List.forall_mem_cons.mp h
    exact max_le hm (ih hmore)

end Yaml

namespace Settings

variable {s t : Settings}

/-- Settings that are the same but for the order of the sections of their logging. -/
structure Same (s t : Settings) : Prop where
  server : t.server = s.server
  logging : Option.Rel List.Perm t.logging s.logging
  providers : t.providers = s.providers

def loggingValue (logging : Option LogSections) : Value :=
  logging.elim .null fun sections => .map (sections.map fun (name, sec) => (name, sec.toYaml))

theorem toYaml_eq (s : Settings) : s.toYaml = .map [("server", s.server.toYaml), ("logging", loggingValue s.logging),
    ("providers", .list (s.providers.map ProviderOptions.toYaml))] := by
  obtain ⟨_, _ | _, _⟩ := s <;> rfl

theorem nesting_section (s : LogSection) : s.toYaml.nesting = 1 := by
  obtain ⟨_, _, _, _ | _, _ | _, _ | _⟩ := s <;> rfl

theorem nesting_toYaml (s : Settings) : s.toYaml.nesting ≤ 3 := by
  have hlogging : (loggingValue s.logging).nesting ≤ 2 := by
    cases s.logging with
    | none => exact Nat.zero_le 2
    | some sections =>
      exact Nat.succ_le_succ (membersNesting_le (List.forall_mem_map.mpr fun x _ => (nesting_section x.2).le))
  have hproviders : (Value.list (s.providers.map ProviderOptions.toYaml)).nesting ≤ 2 :=
    Nat.succ_le_succ (itemsNesting_le (List.forall_mem_map.mpr fun o _ => Nat.le_refl 1))
  rw [toYaml_eq]
  refine Nat.succ_le_succ (membersNesting_le ?_)
  simp only [List.forall_mem_cons]
  exact ⟨Nat.le_succ 1, hlogging, hproviders, List.forall_mem_nil _⟩

/-- A file with the settings as they are shown sets them. -/
theorem fileLayer_toYaml (path : String) (s : Settings) : fileLayer path s.render = .ok s.toYaml.toSetting := by
  have hdepth : s.toYaml.nesting ≤ depthLimit := s.nesting_toYaml.trans (by decide)
  rw [render]
  rw [toYaml_eq] at hdepth ⊢
  exact fileLayer_render path (List.cons_ne_nil _ _) hdepth

theorem eachItem_toYaml (providers : List ProviderOptions) (index : Nat) :
    Node.eachItem (ProviderOptions.read .layers) index
      (Setting.toItems .file (itemSettings (providers.map ProviderOptions.toYaml))) = .ok providers := by
  induction providers generalizing index with
  | nil => rfl
  | cons o more ih =>
    rw [List.map_cons, itemSettings, Setting.toItems, Node.eachItem, o.read_toYaml, ih]
    rfl

theorem drawn_toYaml {env : List (String × String)} (henv : ∀ x ∈ env, Environment.way? x.1 = none)
    (hnames : ∀ sections ∈ s.logging, (sections.map Prod.fst).Nodup) :
    ∃ t, t.Drawn (layers env s.toYaml.toSetting) ∧ s.Same t := by
  obtain ⟨logging, hdrawn, hlogging⟩ : ∃ logging : Option LogSections,
      Logging.Drawn [(loggingValue s.logging).toSetting, .scalar .null .defaults] logging ∧
        Option.Rel List.Perm logging s.logging := by
    cases hs : s.logging with
    | none => exact ⟨none, by simp [Logging.Drawn, loggingValue, Value.toSetting], .none⟩
    | some sections =>
      have hn := hnames sections hs
      obtain ⟨sorted, hp, hsorted⟩ := LogSections.exists_sorted hn
      exact ⟨some sorted, LogSections.drawn_toYaml hn hp hsorted .null .defaults, .some hp⟩
  refine ⟨⟨s.server, logging, s.providers⟩, ?_, ⟨rfl, hlogging, rfl⟩⟩
  rw [layers, Environment.layer_none henv, toYaml_eq]
  refine ⟨fun _ key hkey => ?_, s.server.drawn_toYaml, hdrawn, ?_⟩
  · have hkeys : key ∈ ["logging", "providers", "server", "logging", "providers", "server"] := mem_keys_of_member hkey
    clear hkey
    revert key
    decide
  · exact eachItem_toYaml s.providers 0

theorem homeGiven?_of_isAbsolute (h : Path.isAbsolute s.server.homeDir.toList = true) :
    s.homeGiven? = some s.server.homeDir := by
  obtain ⟨rest, hrest⟩ := Path.exists_of_isAbsolute h
  have htrim : (Environment.Text.trim ('/' :: rest)).isEmpty = false := by
    have hslash : Environment.Text.isSpace '/' = false := by decide
    have hne : (('/' :: rest).reverse.dropWhile Environment.Text.isSpace) ≠ [] := fun hnil => by
      have hall := List.dropWhile_eq_nil_iff.mp hnil '/' (by simp)
      rw [hslash] at hall
      cases hall
    rw [Environment.Text.trim, List.dropWhile_cons_of_neg (by rw [hslash]; decide)]
    simpa using hne
  rw [homeGiven?, hrest, htrim, if_neg Bool.false_ne_true]

/-- Settings that are written to a file as they are shown load from it as they are. -/
theorem loadFile_render {env : List (String × String)} {files files' : FileTree} {path : String}
    (hids : (s.providers.map (·.providerId)).Nodup) (hnames : ∀ sections ∈ s.logging, (sections.map Prod.fst).Nodup)
    (hhome : Path.isAbsolute s.server.homeDir.toList = true) (henv : ∀ x ∈ env, Environment.way? x.1 = none)
    (hwrite : files.write path s.render = .ok files') (hmade : (files'.createAll s.server.homeDir).2 = .ok ()) :
    ∃ t, (loadFile path env files').2 = .ok t ∧ s.Same t := by
  obtain ⟨t, hdrawn, hsame⟩ := drawn_toYaml henv hnames
  have hread : document path (files'.read? path).toOption = .ok s.toYaml.toSetting := by
    rw [FileTree.read?_write hwrite]
    exact fileLayer_toYaml path s
  have hgiven : t.homeGiven? = some s.server.homeDir := by
    rw [← hsame.server] at hhome ⊢
    exact homeGiven?_of_isAbsolute hhome
  have hsettles : t.Settles (valueOf? env HomeDir.homeVariable) files' t := by
    refine ⟨s.server.homeDir, ?_, hmade, ?_⟩
    · rw [hgiven]
      exact HomeDir.locate_of_isAbsolute hhome _ _
    · rw [← hsame.server]
  have hvalid : t.validate = .ok () := by
    rw [validate_eq_ok, hsame.providers]
    exact hids
  exact ⟨t, loadFile_eq_ok.mpr ⟨_, t, hread, hdrawn, hsettles, hvalid⟩, hsame⟩

/-- Settings with texts that stand for something else without quotes, and with sections out of order. -/
def outlandish : Settings where
  server := ⟨"/srv/hub", "null", 65535⟩
  logging := some [("yes", ⟨"1e3", "~", "", none, some 0, none⟩),
    ("a: b", ⟨"- x", "0x10\n", "#", some 7, none, some 0xffffffffffffffff⟩)]
  providers := [⟨65535, "'\x22\\", .destroy⟩, ⟨0, "", .detach⟩]

theorem loadFile_render_outlandish : ∃ files' t, FileTree.write {} "/hub.yaml" outlandish.render = .ok files' ∧
    (loadFile "/hub.yaml" [("HOME", "/home")] files').2 = .ok t ∧ outlandish.Same t := by
  have hnames : ∀ sections ∈ outlandish.logging, (sections.map Prod.fst).Nodup := by
    rintro _ ⟨⟩
    decide
  have hplace : FileTree.fileNames {} "/hub.yaml" = .ok ["hub.yaml".toList] := by decide +kernel
  have hwrite : FileTree.write {} "/hub.yaml" outlandish.render =
      .ok ⟨[(["hub.yaml".toList], .file outlandish.render)]⟩ := by
    rw [FileTree.write, hplace]
    rfl
  have henv : ∀ x ∈ [("HOME", "/home")], Environment.way? x.1 = none := by decide +kernel
  obtain ⟨t, hload, hsame⟩ := loadFile_render (by decide) hnames (by decide) henv hwrite (by decide +kernel)
  exact ⟨_, t, hwrite, hload, hsame⟩

end Settings
end SequencerHub
