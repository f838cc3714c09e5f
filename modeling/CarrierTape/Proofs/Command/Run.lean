import CarrierTape.Command.Run
import CarrierTape.Proofs.FileTree
import CarrierTape.Proofs.Job.Placement

/-!
A run of the program either delivers the whole script of its job or changes nothing.
`Ready` says what the former takes. It says nothing about the log, so runs that differ
in no more than what they log deliver the same script, or both none.
-/

namespace CarrierTape.Command

def CanSave (files : FileTree) (destination : Option String) : Prop :=
  ∀ path, destination = some path → ∃ place, files.target path = .ok place

/-- What comes before the script goes well: the settings are valid, the job can be laid
out, and there is a place for the script. -/
structure Ready (s : Surroundings) (a : Arguments) (c : Config) (tapes : List (List Record)) :
    Prop where
  settings : Config.load s.files s.home a.config = .ok c
  layout : ∃ job, Job.load s.files s.input a.job = .ok job ∧ job.layout c.layers = .ok tapes
  canSave : CanSave s.files a.output

/-- The script is where it was asked for, and nowhere else has anything changed. -/
structure Outcome.Delivers (o : Outcome) (before : FileTree) (destination : Option String)
    (script : String) : Prop where
  exitCode : o.exitCode = 0
  printed : destination = none → o.output = script ∧ o.files = before
  saved : ∀ path, destination = some path →
    o.output = "" ∧ o.files.find path = .ok (.file script.toUTF8) ∧
      ∃ place, before.target path = .ok place ∧
        ∀ other, other ≠ place → o.files.lookup other = before.lookup other

/-- The run has failed, and there is nothing else to be seen of it. -/
structure Outcome.ChangesNothing (o : Outcome) (before : FileTree) : Prop where
  exitCode : o.exitCode = 1
  output : o.output = ""
  files : o.files = before

theorem failure_changesNothing (s : Surroundings) (report : List Report) :
    (failure s report).ChangesNothing s.files :=
  ⟨rfl, rfl, rfl⟩

variable {s s' : Surroundings} {a a' : Arguments} {c : Config} {tapes : List (List Record)}

/-! ### One run -/

theorem deliver_delivers (f : NumberFormat) (level : LogLevel) (report : List Report)
    (h : CanSave s.files a.output) :
    (deliver s a f level report tapes).Delivers s.files a.output (Script.render f tapes) := by
  unfold deliver
  cases hout : a.output with
  | none => exact ⟨rfl, fun _ => ⟨rfl, rfl⟩, nofun⟩
  | some path =>
    obtain ⟨place, htarget⟩ := h path hout
    have hwrite : s.files.write path (Script.render f tapes).toUTF8 =
        .ok (s.files.put place (.file (Script.render f tapes).toUTF8)) :=
      FileTree.write_eq_ok_iff.2 ⟨place, htarget, rfl⟩
    simp only [hwrite]
    refine ⟨rfl, nofun, ?_⟩
    rintro _ ⟨⟩
    exact ⟨rfl, FileTree.find_of_write hwrite, FileTree.lookup_of_write hwrite⟩

theorem deliver_changesNothing (f : NumberFormat) (level : LogLevel) (report : List Report)
    (h : ¬CanSave s.files a.output) :
    (deliver s a f level report tapes).ChangesNothing s.files := by
  obtain ⟨path, hout, hnone⟩ := not_forall₂.1 h
  unfold deliver
  simp only [hout]
  split
  · exact failure_changesNothing s _
  · rename_i hwrite
    obtain ⟨place, htarget, -⟩ := FileTree.write_eq_ok_iff.1 hwrite
    exact absurd ⟨place, htarget⟩ hnone

theorem runJob_changesNothing
    (h : ∀ job tapes, Job.load s.files s.input a.job = .ok job → job.layout c.layers = .ok tapes →
      ¬CanSave s.files a.output) :
    (runJob s a c).ChangesNothing s.files := by
  unfold runJob
  dsimp only
  split
  · exact failure_changesNothing s _
  · rename_i job hload
    split
    · exact failure_changesNothing s _
    · rename_i tapes hlayout
      exact deliver_changesNothing _ _ _ (h job tapes hload hlayout)

theorem runWith_delivers (h : Ready s a c tapes) :
    (runWith s a).Delivers s.files a.output (Script.render c.numberFormat tapes) := by
  obtain ⟨job, hload, hlayout⟩ := h.layout
  unfold runWith runJob
  simp only [h.settings, hload, hlayout]
  exact deliver_delivers _ _ _ h.canSave

theorem runWith_changesNothing (h : ¬∃ c tapes, Ready s a c tapes) :
    (runWith s a).ChangesNothing s.files := by
  unfold runWith
  split
  · exact failure_changesNothing s _
  · rename_i c hsettings
    refine runJob_changesNothing fun job tapes hload hlayout hsave => h ?_
    exact ⟨c, tapes, hsettings, ⟨job, hload, hlayout⟩, hsave⟩

theorem runWith_exitCode_eq_zero_iff :
    (runWith s a).exitCode = 0 ↔ ∃ c tapes, Ready s a c tapes := by
  constructor
  · intro hzero
    by_contra hready
    rw [(runWith_changesNothing hready).exitCode] at hzero
    exact absurd hzero (by decide)
  · rintro ⟨c, tapes, hready⟩
    exact (runWith_delivers hready).exitCode

/-! ### Two runs -/

/-- Two runs that differ in no more than what they log: in the flags, in the filter, and
in the level that the settings name. Apart from the settings and the job, all that they
share of their files is which of them are directories. -/
structure SameButLog (s s' : Surroundings) (a a' : Arguments) : Prop where
  directories : ∀ place,
    s.files.lookup place = some .directory ↔ s'.files.lookup place = some .directory
  settings : (Config.load s.files s.home a.config).toOption.map (fun c => (c.decimals, c.layers)) =
    (Config.load s'.files s'.home a'.config).toOption.map (fun c => (c.decimals, c.layers))
  job : (Job.load s.files s.input a.job).toOption = (Job.load s'.files s'.input a'.job).toOption
  output : a.output = a'.output

namespace SameButLog

theorem symm (h : SameButLog s s' a a') : SameButLog s' s a' a :=
  ⟨fun place => (h.directories place).symm, h.settings.symm, h.job.symm, h.output.symm⟩

theorem ready (h : SameButLog s s' a a') (hready : Ready s a c tapes) :
    ∃ c', Ready s' a' c' tapes ∧ c'.numberFormat = c.numberFormat := by
  obtain ⟨hsettings, ⟨job, hload, hlayout⟩, hsave⟩ := hready
  obtain ⟨c', hsettings', hsame⟩ : ∃ c', Config.load s'.files s'.home a'.config = .ok c' ∧
      (c'.decimals, c'.layers) = (c.decimals, c.layers) := by
    have hmap := h.settings.symm
    rw [hsettings] at hmap
    obtain ⟨c', hc', hsame⟩ := Option.map_eq_some_iff.1 hmap
    exact ⟨c', toOption_eq_some_iff.1 hc', hsame⟩
  obtain ⟨hdecimals, hlayers⟩ := Prod.mk.inj hsame
  have hload' : Job.load s'.files s'.input a'.job = .ok job :=
    toOption_eq_some_iff.1 (h.job ▸ toOption_eq_some_iff.2 hload)
  refine ⟨c', ⟨hsettings', ⟨job, hload', ?_⟩, ?_⟩, ?_⟩
  · rw [hlayers, hlayout]
  · intro path hpath
    obtain ⟨place, hplace⟩ := hsave path (h.output.trans hpath)
    exact ⟨place, FileTree.target_mono h.directories hplace⟩
  · rw [Config.numberFormat, Config.numberFormat, hdecimals]

theorem delivers_or_changesNothing (h : SameButLog s s' a a') :
    (∃ script, (runWith s a).Delivers s.files a.output script ∧
      (runWith s' a').Delivers s'.files a.output script) ∨
    (runWith s a).ChangesNothing s.files ∧ (runWith s' a').ChangesNothing s'.files := by
  by_cases hready : ∃ c tapes, Ready s a c tapes
  · obtain ⟨c, tapes, hone⟩ := hready
    obtain ⟨c', hother, hformat⟩ := h.ready hone
    refine .inl ⟨Script.render c.numberFormat tapes, runWith_delivers hone, ?_⟩
    rw [h.output, ← hformat]
    exact runWith_delivers hother
  · refine .inr ⟨runWith_changesNothing hready, runWith_changesNothing ?_⟩
    rintro ⟨c, tapes, hother⟩
    obtain ⟨c', hone, -⟩ := h.symm.ready hother
    exact hready ⟨c', tapes, hone⟩

end SameButLog

theorem Outcome.Delivers.output_eq {o o' : Outcome} {before before' : FileTree}
    {destination : Option String} {script : String} (h : o.Delivers before destination script)
    (h' : o'.Delivers before' destination script) : o'.output = o.output := by
  cases destination with
  | none => exact (h'.printed rfl).1.trans (h.printed rfl).1.symm
  | some path => exact (h'.saved path rfl).1.trans (h.saved path rfl).1.symm

/-- A run that has all it takes delivers the whole script and nothing else. Any other run
changes nothing, and what is logged is of no consequence for either. -/
theorem run_delivers_or_changes_nothing (s : Surroundings) {arguments : List String}
    {a : Arguments} (h : Request.ofArguments arguments = .run a) :
    ((run s arguments).exitCode = 0 ↔ ∃ c tapes, Ready s a c tapes) ∧
    (∀ c tapes, Ready s a c tapes →
      (run s arguments).Delivers s.files a.output (Script.render c.numberFormat tapes)) ∧
    ((¬∃ c tapes, Ready s a c tapes) → (run s arguments).ChangesNothing s.files) ∧
    ∀ (s' : Surroundings) (arguments' : List String) (a' : Arguments),
      Request.ofArguments arguments' = .run a' → SameButLog s s' a a' →
        (run s' arguments').exitCode = (run s arguments).exitCode ∧
        (run s' arguments').output = (run s arguments).output ∧
        ∀ path, a.output = some path → (run s arguments).exitCode = 0 →
          (run s' arguments').files.find path = (run s arguments).files.find path := by
  have hrun : run s arguments = runWith s a := by rw [run, h, answer]
  rw [hrun]
  refine ⟨runWith_exitCode_eq_zero_iff, fun _ _ => runWith_delivers, runWith_changesNothing, ?_⟩
  intro s' arguments' a' h' hsame
  have hrun' : run s' arguments' = runWith s' a' := by rw [run, h', answer]
  rw [hrun']
  rcases hsame.delivers_or_changesNothing with ⟨script, hone, hother⟩ | ⟨hone, hother⟩
  · refine ⟨hother.exitCode.trans hone.exitCode.symm, hone.output_eq hother, ?_⟩
    intro path hpath _
    exact (hother.saved path hpath).2.1.trans (hone.saved path hpath).2.1.symm
  · refine ⟨hother.exitCode.trans hone.exitCode.symm, hother.output.trans hone.output.symm, ?_⟩
    intro path _ hzero
    rw [hone.exitCode] at hzero
    exact absurd hzero (by decide)

def oneTape : String :=
  "\x7b\"tapes\": [\x7b\"tape_width\": 8, \"tape_pitch\": 4, \"part\": \"0805\", " ++
    "\"part_count\": 1\x7d]\x7d"

def desk : Surroundings :=
  ⟨⟨[(["j"], .file oneTape.toUTF8)]⟩, none, ByteArray.empty, .byLevel⟩

def overJob (verbosity : Nat) (quiet : Bool) : Arguments :=
  ⟨some "j", some "j", none, verbosity, quiet⟩

theorem ready_desk (verbosity : Nat) (quiet : Bool) :
    ∃ tapes, Ready desk (overJob verbosity quiet) .standard tapes := by
  have hsplit : "j".splitOn "/" = ["j"] := by
    rw [String.splitOn, if_neg (by decide), String.splitOnAux, if_neg (by decide +kernel),
      if_neg (by decide +kernel), String.splitOnAux, if_pos (by decide +kernel)]
    decide +kernel
  have hparts : FileTree.parts "j" = ["j"] := by simp [FileTree.parts, hsplit]
  have hlookup : desk.files.lookup ["j"] = some (.file oneTape.toUTF8) := by
    simp [desk, FileTree.lookup, Place.isBase, Place.root]
  have htarget : desk.files.target "j" = .ok ["j"] := by
    refine FileTree.target_eq_ok_iff.2
      ⟨[], "j", [], hparts, rfl, rfl, rfl, by decide, rfl, rfl, ?_⟩
    simp [hlookup]
  have hfind : desk.files.find "j" = .ok (.file oneTape.toUTF8) := by
    have hwalk : desk.files.walk [] ["j"] = .ok ["j"] := rfl
    have hsize : FileTree.checkSize FileTree.maxPathBytes "j" = .ok () := rfl
    simp only [FileTree.find, hparts, hsize, hwalk, hlookup, bind, Except.bind]
    rfl
  have hread : Job.readText desk.files desk.input (some "j") = .ok oneTape := by
    have hinput : Job.isStandardInput "j" = false := by
      rw [Job.isStandardInput, hsplit]
      rfl
    simp only [Job.readText, Option.filter, hinput, Bool.not_false, if_true]
    exact mapError_eq_ok_iff.2 (FileTree.readText_of_find hfind)
  obtain ⟨tapes, htapes⟩ :
      ∃ tapes, (Job.ofDocument oneTape).toOption.bind (fun j => (j.layout .standard).toOption) =
        some tapes := Option.isSome_iff_exists.1 (by decide +kernel)
  obtain ⟨job, hjob, hlayout⟩ := Option.bind_eq_some_iff.1 htapes
  refine ⟨tapes, rfl, ⟨job, ?_, toOption_eq_some_iff.1 hlayout⟩, ?_⟩
  · exact bind_eq_ok_iff.2 ⟨oneTape, hread, mapError_eq_ok_iff.2 (toOption_eq_some_iff.1 hjob)⟩
  · rintro _ ⟨⟩
    exact ⟨_, htarget⟩

/-- The script replaces the very job that it was made from, and is the same with all the
logging that there is. -/
theorem run_over_its_job :
    Request.ofArguments ["-qo", "j", "j"] = .run (overJob 0 true) ∧
    (run desk ["-qo", "j", "j"]).exitCode = 0 ∧ (run desk ["-qo", "j", "j"]).output = "" ∧
    ∃ script : String,
      (run desk ["-qo", "j", "j"]).files.find "j" = .ok (.file script.toUTF8) ∧
      (run desk ["-vvvo", "j", "j"]).files.find "j" = .ok (.file script.toUTF8) := by
  have hquiet : Request.ofArguments ["-qo", "j", "j"] = .run (overJob 0 true) := by decide +kernel
  have hloud : Request.ofArguments ["-vvvo", "j", "j"] = .run (overJob 3 false) := by
    decide +kernel
  obtain ⟨tapes, hready⟩ := ready_desk 0 true
  obtain ⟨-, hdelivers, -, hsame⟩ := run_delivers_or_changes_nothing desk hquiet
  have hscript := hdelivers _ _ hready
  obtain ⟨hprinted, hfind, -⟩ := hscript.saved "j" rfl
  obtain ⟨-, -, hagain⟩ := hsame desk _ _ hloud ⟨fun _ => Iff.rfl, rfl, rfl, rfl⟩
  exact ⟨hquiet, hscript.exitCode, hprinted, _, hfind,
    (hagain "j" rfl hscript.exitCode).trans hfind⟩

end CarrierTape.Command
