import CarrierTape.Command.Run
import CarrierTape.Proofs.Except
import CarrierTape.Proofs.Job.LeftToRight
import CarrierTape.Proofs.Script.Lines
import CarrierTape.Proofs.Text.LowerCase

/-!
What valid settings are good for. Settings that were loaded are valid, whether they come from a
file or stand in for one that is missing, and valid settings are taken as they are: the decimals
are not cut down, no layer is zero, in the records as in the lines of a script, and the level is
one that has a name. For the last of these the letter case of every script counts
(`LogLevel.ofName?_eq_some_iff`), and nothing else is asked of settings (`Config.valid_settings`).
-/

namespace CarrierTape

namespace LogLevel

theorem name_injective :
    ∀ level level' : LogLevel, level.name.toList = level'.name.toList → level = level' := by
  rintro ⟨⟩ ⟨⟩ <;> decide

theorem ascii_of_mem_name (level : LogLevel) :
    ∀ d ∈ level.name.toList, d.toNat < 128 ∧ d ≠ 'k' := by
  have hall : level.name.toList.all fun d => d.toNat < 128 && d != 'k' := by
    cases level <;> decide +kernel
  simpa using hall

theorem mem_all (level : LogLevel) : level ∈ all := by
  cases level <;> decide

theorem ofName?_eq_some_iff (finalSigma : List Char → List Char → Bool) {text : String}
    {level : LogLevel} :
    ofName? text = some level ↔ level.name.toList = Text.lowerCase finalSigma text.toList := by
  rw [Text.eq_lowerCase_iff finalSigma level.ascii_of_mem_name]
  constructor
  · intro h
    simpa using List.find?_some h
  · intro h
    obtain ⟨found, hfound⟩ : ∃ found, ofName? text = some found := by
      rw [← Option.isSome_iff_exists, ofName?, List.find?_isSome]
      exact ⟨level, level.mem_all, by simpa using h⟩
    have hname : found.name.toList = text.toList.map Char.toLower := by
      simpa using List.find?_some hfound
    rw [hfound, name_injective found level (hname.trans h.symm)]

theorem isSome_ofName?_iff (finalSigma : List Char → List Char → Bool) {text : String} :
    (ofName? text).isSome ↔
      Text.lowerCase finalSigma text.toList ∈
        ["trace", "debug", "info", "warn", "error"].map String.toList := by
  have hnames : ["trace", "debug", "info", "warn", "error"].map String.toList =
      all.map (·.name.toList) := rfl
  rw [hnames, Option.isSome_iff_exists, List.mem_map]
  constructor
  · rintro ⟨level, h⟩
    exact ⟨level, level.mem_all, (ofName?_eq_some_iff finalSigma).1 h⟩
  · rintro ⟨level, -, h⟩
    exact ⟨level, (ofName?_eq_some_iff finalSigma).2 h⟩

end LogLevel

theorem layer_bounds {id : Layer} (h : id ≠ 0) : 1 ≤ id.toNat ∧ id.toNat ≤ 255 := by
  have hlt := id.toNat_lt
  have hne : id.toNat ≠ 0 := fun hzero => h (UInt8.toNat_inj.1 hzero)
  omega

theorem TapeSpec.layer_of_mem_records {layers : LayerMap} {s : TapeSpec} {r : Record}
    (h : r ∈ s.records layers) :
    r.layer = layers.tapeBody ∨ r.layer = layers.holes ∨ r.layer = layers.partLayer := by
  rw [records, List.mem_cons, List.mem_append, List.mem_map, List.mem_map] at h
  rcases h with rfl | ⟨i, -, rfl⟩ | ⟨i, -, rfl⟩
  · exact .inl rfl
  · exact .inr (.inl rfl)
  · exact .inr (.inr rfl)

namespace Config

variable {c : Config}

theorem valid_iff :
    c.Valid ↔ c.decimals.toNat ≤ 9 ∧
      (c.layers.tapeBody ≠ 0 ∧ c.layers.holes ≠ 0 ∧ c.layers.parts ≠ some 0) ∧
      (LogLevel.ofName? c.level).isSome := by
  have hlayers : c.layerSettings.find? (·.2 = some 0) = none ↔
      c.layers.tapeBody ≠ 0 ∧ c.layers.holes ≠ 0 ∧ c.layers.parts ≠ some 0 := by
    simp [layerSettings]
  rw [← hlayers, Valid, problem?]
  by_cases hdecimals : maxDecimals < c.decimals.toNat
  · rw [if_pos hdecimals]
    exact iff_of_false nofun fun h => absurd h.1 (Nat.not_le.2 hdecimals)
  · have hle : c.decimals.toNat ≤ 9 := Nat.not_lt.1 hdecimals
    rw [if_neg hdecimals]
    cases c.layerSettings.find? (·.2 = some 0) with
    | some found => simp
    | none => simp [hle, Option.isSome_iff_ne_none]

theorem Valid.layer_ne_zero (h : c.Valid) {id : Layer}
    (hid : id = c.layers.tapeBody ∨ id = c.layers.holes ∨ id = c.layers.partLayer) : id ≠ 0 := by
  obtain ⟨-, ⟨hbody, hholes, hparts⟩, -⟩ := valid_iff.1 h
  rcases hid with rfl | rfl | rfl
  · exact hbody
  · exact hholes
  · unfold LayerMap.partLayer
    cases hgiven : c.layers.parts with
    | none => exact hholes
    | some given =>
      rintro rfl
      exact hparts hgiven

theorem Valid.layer_bounds_of_layout (h : c.Valid) {job : Job} {tapes : List (List Record)}
    (hlayout : job.layout c.layers = .ok tapes) :
    ∀ records ∈ tapes, ∀ r ∈ records, 1 ≤ r.layer.toNat ∧ r.layer.toNat ≤ 255 := by
  obtain ⟨placed, -, rfl⟩ := Job.layout_eq_ok_iff.1 hlayout
  rw [List.forall_mem_map]
  intro t _ r hr
  exact layer_bounds (h.layer_ne_zero (TapeSpec.layer_of_mem_records hr))

theorem valid_of_ofFile {files : FileTree} {path : String} (h : ofFile files path = .ok c) :
    c.Valid := by
  obtain ⟨text, -, hparsed⟩ := bind_eq_ok_iff.1 h
  obtain ⟨read, -, hchecked⟩ := bind_eq_ok_iff.1 hparsed
  cases hproblem : read.problem? with
  | some problem => simp [hproblem, throw, throwThe, MonadExceptOf.throw] at hchecked
  | none =>
    simp only [hproblem] at hchecked
    obtain rfl := Except.ok.inj hchecked
    exact hproblem

/-- The settings that stand in for a missing file are valid too, although nothing checks them. -/
theorem valid_of_load {files : FileTree} {home path : Option String}
    (h : load files home path = .ok c) : c.Valid := by
  unfold load at h
  split at h
  · split_ifs at h
    exact valid_of_ofFile h
  · split at h
    · exact valid_of_ofFile h
    · obtain rfl := Except.ok.inj h
      decide +kernel

theorem Valid.decimals_numberFormat (h : c.Valid) :
    c.numberFormat.decimals = c.decimals.toNat :=
  Nat.min_eq_left (valid_iff.1 h).1

/-- Loaded settings are valid. Under valid settings numbers have the decimals that were asked for,
every record of a job and every layer line of its script has a layer from 1 to 255, and without
flags a run logs from the level that the settings name in some letter case. Settings are invalid
only for too many decimals, a layer zero, or a level whose lower case is no name. -/
theorem valid_settings (finalSigma : List Char → List Char → Bool) :
    (∀ files home path c, load files home path = .ok c → c.Valid) ∧
    (∀ c : Config, c.Valid →
      c.numberFormat.decimals = c.decimals.toNat ∧
      (∀ (job : Job) tapes, job.layout c.layers = .ok tapes →
        (∀ records ∈ tapes, ∀ r ∈ records, 1 ≤ r.layer.toNat ∧ r.layer.toNat ≤ 255) ∧
        ∀ line ∈ layerLines (Script.render c.numberFormat tapes), ∃ id : Layer,
          1 ≤ id.toNat ∧ id.toNat ≤ 255 ∧
          line = "LAYER ".toList ++ Nat.toDigits 10 id.toNat ++ [';']) ∧
      ∃ level : LogLevel, level.name.toList = Text.lowerCase finalSigma c.level.toList ∧
        LogLevel.ofName? c.level = some level ∧
        ∀ a : Command.Arguments, a.quiet = false → a.verbosity = 0 → a.logLevel c = level) ∧
    ∀ c : Config, ¬ c.Valid ↔
      9 < c.decimals.toNat ∨
      (c.layers.tapeBody = 0 ∨ c.layers.holes = 0 ∨ c.layers.parts = some 0) ∨
      Text.lowerCase finalSigma c.level.toList ∉
        ["trace", "debug", "info", "warn", "error"].map String.toList := by
  refine ⟨fun files home path c h => valid_of_load h, fun c h => ⟨h.decimals_numberFormat, ?_, ?_⟩,
    fun c => ?_⟩
  · intro job tapes hlayout
    have hrecords := h.layer_bounds_of_layout hlayout
    refine ⟨hrecords, fun line hline => ?_⟩
    obtain ⟨records, htape, r, hr, rfl⟩ := Script.exists_of_mem_layerLines hline
    obtain ⟨hlow, hhigh⟩ := hrecords records htape r hr
    exact ⟨r.layer, hlow, hhigh, rfl⟩
  · obtain ⟨-, -, hlevel⟩ := valid_iff.1 h
    obtain ⟨level, hlevel⟩ := Option.isSome_iff_exists.1 hlevel
    refine ⟨level, (LogLevel.ofName?_eq_some_iff finalSigma).1 hlevel, hlevel, fun a hq hv => ?_⟩
    simp [Command.Arguments.logLevel, hq, hv, logLevel, hlevel]
  · rw [valid_iff, LogLevel.isSome_ofName?_iff finalSigma]
    simp only [not_and_or, Nat.not_le, not_not, ne_eq]

/-- Without a file the settings that stand in are valid, and the greatest and the least that
settings can be are valid as well, with a level in mixed letters. -/
theorem valid_settings_extreme :
    let c : Config := ⟨9, ⟨255, 1, some 7⟩, "wARn"⟩
    load ⟨[]⟩ none none = .ok standard ∧ standard.Valid ∧ c.Valid ∧
      c.numberFormat.decimals = 9 ∧
      (∃ tapes, (Job.fourTapes none).layout c.layers = .ok tapes ∧
        ∀ records ∈ tapes, ∀ r ∈ records, 1 ≤ r.layer.toNat ∧ r.layer.toNat ≤ 255) ∧
      Command.Arguments.none.logLevel c = .warn := by
  intro c
  have hc : c.Valid := by decide +kernel
  have hload : load ⟨[]⟩ none none = .ok standard := rfl
  obtain ⟨tapes, hlayout⟩ : ∃ tapes, (Job.fourTapes none).layout c.layers = .ok tapes :=
    Job.exists_layout_of_isSome (by decide +kernel)
  obtain ⟨hloaded, hvalid, -⟩ := valid_settings fun _ _ => true
  obtain ⟨hdecimals, hscript, level, -, hlevel, hlog⟩ := hvalid c hc
  have hwarn : level = .warn := by
    have hname : LogLevel.ofName? c.level = some .warn := by decide +kernel
    exact Option.some.inj (hlevel.symm.trans hname)
  exact ⟨hload, hloaded _ _ _ _ hload, hc, hdecimals, ⟨tapes, hlayout, (hscript _ _ hlayout).1⟩,
    (hlog .none rfl rfl).trans hwarn⟩

end Config

end CarrierTape
