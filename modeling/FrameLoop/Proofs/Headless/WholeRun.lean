import FrameLoop.Proofs.Headless.Iterations
import FrameLoop.Proofs.Headless.Leaving

/-! Whole runs of a headless engine, from its construction to its end: as many frames as were asked
for, with as many updates, and what is left of them in the files. -/

namespace FrameLoop.Engine

open Headless

section

variable {σ φ ω : Type} {F : Facades σ FrameStats}

theorem prepare_world (settings : Settings) (s : Scene σ FrameStats) :
    (prepare settings s : (UpdateStrategy × Limiter × Telemetry ω) × _).2.world = s.world := by
  let opened := (Scene.now s).2.append .main (Overlay.addPhases [] settings.physicsWorkers).2
  exact (UpdateStrategy.new_alike (Nat.min_le_right _ 1) opened).2.world

end

/-- What could be written in a tree can be written still, at the same places. -/
def Spacious (tree t : FileTree) : Prop := ∀ path p, tree.writable path = .ok p → t.writable path = .ok p

theorem Spacious.put {tree t : FileTree} (h : Spacious tree t) (p : Trail) (content : ByteArray) :
    Spacious tree (t.put p content) :=
  fun path q hq => FileTree.writable_put (h path q hq)

theorem spacious_spares (tree : FileTree) : Spares OpenFile (Spacious tree) :=
  OpenFile.spares fun _ p content h => h.put p content

section

variable {σ : Type} {F : Facades σ FrameStats} {settings : Settings} {tree : FileTree}

/-- The report of an engine is written to a file of which nothing is left. -/
structure Opened (tree : FileTree) (path : String) (e : Engine σ FileTree OpenFile) : Prop where
  report : ∃ f, e.telemetry.report = some f ∧ OpenFile.Files path "" f e.storage ∧ f.buffer = ""
  collects : StatsSink.collects e.scene.sink engineStats = true

theorem collects_collectAll (stats : FrameStats) :
    StatsSink.collects (collectAll stats) engineStats = true := by
  simp [collectAll, FrameStats.setCollecting, StatsSink.collects]

theorem withStatsFile_eq {e : Engine σ FileTree OpenFile} (ht : e.telemetry.report = none)
    {path : String} {p : Trail} (h : e.storage.writable path = .ok p) :
    ∃ telemetry log, withStatsFile F path e = .ok (e.reporting telemetry (e.storage.put p .empty) log) ∧
      ∃ f, telemetry.report = some f ∧ OpenFile.Files path "" f (e.storage.put p .empty) ∧
        f.buffer = "" := by
  obtain ⟨f, hopen, hbuffer, hfiles⟩ := OpenFile.openReport_eq ht h
  have hok : withStatsFile F path e = .ok (e.reporting { e.telemetry with report := some f }
      (e.storage.put p .empty) [⟨.info, s!"Writing frame statistics to '{path}'"⟩]) := by
    rw [withStatsFile, hopen]
    rfl
  exact ⟨_, _, hok, f, rfl, hfiles, hbuffer⟩

/-- What is accepted can be built. -/
theorem build_ok (hvalid : settings.problem? = none) (world : σ) (clock : Clock)
    (schedule : Schedule) (patience : Nat) {statsFile : Option String}
    (hstats : ∀ path ∈ statsFile, ∃ p, tree.writable path = .ok p)
    (settingsPath userDirectory : Option String) (startup : StartupMode) (script : Option String) :
    ∃ e, build F settings world tree clock schedule statsFile patience
        [.told settingsPath userDirectory startup script] = .ok e ∧
      e.savings = (settings, settingsPath, userDirectory) ∧ e.startup = startup ∧
      e.started = false ∧ e.scene.world = world ∧ Spacious tree e.storage ∧
      ∀ path ∈ statsFile, Opened tree path e := by
  let base : Engine σ FileTree OpenFile :=
    assembled settings tree patience (prepare settings (opening settings world clock schedule))
  have hworld : base.scene.world = world :=
    prepare_world (ω := OpenFile) settings (opening settings world clock schedule)
  have hnew := new_eq F hvalid world tree clock schedule statsFile patience
  cases statsFile with
  | none =>
    refine ⟨{ base with settingsPath, userDirectory, startup, startupScript := script }, ?_, rfl, rfl,
      rfl, hworld, fun _ _ h => h, nofun⟩
    rw [build, hnew]
    rfl
  | some path =>
    obtain ⟨p, hp⟩ := hstats path rfl
    obtain ⟨telemetry, log, hreporting, f, hreport, hfiles, hbuffer⟩ :=
      withStatsFile_eq (F := F) (e := base) rfl hp
    refine ⟨{ base.reporting telemetry (tree.put p .empty) log with
      settingsPath, userDirectory, startup, startupScript := script }, ?_, rfl, rfl, rfl, hworld,
      fun other q hq => FileTree.writable_put hq, ?_⟩
    · rw [build, hnew]
      dsimp only
      rw [hreporting]
      rfl
    · intro other hmem
      obtain rfl : path = other := Option.some.inj hmem
      exact ⟨⟨f, hreport, hfiles, hbuffer⟩, collects_collectAll _⟩

end

variable {n : Nat} {settings : Settings} {tree : FileTree} {settingsPath userDirectory : Option String}
  {e : Engine World FileTree OpenFile}

/-- The engine after some iterations, before it is left. -/
def after (n : Nat) (e : Engine World FileTree OpenFile) : Engine World FileTree OpenFile :=
  (play facades (.start :: rounds n) e).2

theorem saves_settings {k : Nat} {menu : Bool}
    (h : Running menu n (Spacious tree) (settings, settingsPath, userDirectory) k e)
    (hsettings : ∀ path ∈ settingsPath, ∃ p, tree.writable path = .ok p) :
    ∀ path ∈ e.settingsPath, (Storage.save path e.settings.toJson e.storage).1 = .ok () := by
  have hpath : e.settingsPath = settingsPath := congrArg (fun s => s.2.1) h.savings
  intro path hmem
  rw [hpath] at hmem
  obtain ⟨p, hp⟩ := hsettings path hmem
  exact congrArg Prod.fst (FileTree.writeBytes_eq (h.storage path p hp) _)

/-- A file that is reported to keeps its text when the settings are saved to another one. -/
theorem files_settled {path text : String} {f : OpenFile} {k : Nat} {menu : Bool}
    (h : Running menu n (Spacious tree) (settings, settingsPath, userDirectory) k e)
    (hf : OpenFile.Files path text f e.storage) {p : Trail} (hp : tree.writable path = .ok p)
    (hsettings : ∀ other ∈ settingsPath, ∃ q, tree.writable other = .ok q ∧ q ≠ p) :
    OpenFile.Files path text f e.settled := by
  have hpath : e.settingsPath = settingsPath := congrArg (fun s => s.2.1) h.savings
  rcases Option.eq_none_or_eq_some settingsPath with hnone | ⟨other, hother⟩
  · have hsettled : e.settled = e.storage := by simp only [settled, hpath, hnone]
    rwa [hsettled]
  · obtain ⟨q, hq, hne⟩ := hsettings other hother
    have htrail : f.trail = p := by
      have hwritable := FileTree.writable_of_resolve (.inl hf.resolve)
      exact Except.ok.inj (hwritable.symm.trans (h.storage path p hp))
    have hsettled : e.settled = e.storage.put q e.settings.toJson.toUTF8 := by
      simp only [settled, hpath, hother]
      exact congrArg Prod.snd (FileTree.writeBytes_eq (h.storage other q hq) _)
    rw [hsettled]
    exact hf.put (fun heq => hne (heq.symm.trans htrail)) _

theorem after_eq (k : Nat) (e : Engine World FileTree OpenFile) :
    after k e = (turn facades)^[k] (start facades e).2 := by
  have hstart : (make facades .start e).2 = (start facades e).2 := rfl
  rw [after, play_cons, hstart, play_rounds]

/-- A run of exactly some iterations, each of them completed, with one update, and no update more
while the engine is left. -/
structure Exactly (n : Nat) (e : Engine World FileTree OpenFile) : Prop where
  starts : (start facades e).1 = .ok ()
  outcomes : (laps facades (.start :: rounds n) e).map Lap.outcome =
    List.replicate n (some .completed)
  lasts : ∀ k ≤ n, shouldContinue facades (after k e) = decide (k < n)
  updates : ∀ k ≤ n, (after k e).scene.world.updates = k
  run : ∀ fuel, n < fuel →
    run facades fuel e = (some (.ok ()), (leave facades (after n e)).2)
  updated : (leave facades (after n e)).2.scene.world.updates = n
  saved : ∀ directory ∈ e.userDirectory,
    storageSaved directory n ∈ (leave facades (after n e)).2.scene.log

variable {menu : Bool}

theorem exactly_of_running (hstart : (start facades e).1 = .ok ())
    (h : Running menu n (Spacious tree) (settings, settingsPath, userDirectory) 0
      (start facades e).2)
    (hsettings : ∀ path ∈ settingsPath, ∃ p, tree.writable path = .ok p)
    (hdirectory : e.userDirectory = userDirectory) : Exactly n e := by
  have hp := spacious_spares tree
  have hafter (k : Nat) :
      Running menu n (Spacious tree) (settings, settingsPath, userDirectory) k (after k e) := by
    have hrunning := h.iterate hp k
    rwa [Nat.zero_add, ← after_eq] at hrunning
  have hlast := hafter n
  obtain ⟨hok, hleft, hdown⟩ :=
    leave_headless hlast.resumable (saves_settings hlast hsettings) hlast.stage
  have hlasts (k : Nat) : shouldContinue facades (after k e) = decide (k < n) :=
    (hafter k).shouldContinue
  refine ⟨hstart, h.outcomes hp n, fun k _ => hlasts k, fun k _ => (hafter k).stage.updates,
    fun fuel hfuel => ?_, hdown.updates, fun directory hmem => ?_⟩
  · have hrun := run_eq (F := facades) hfuel hstart (fun k hk => ⟨?_, ((hafter k).step hp).1⟩) ?_
    · rw [hrun]
      exact congrArg (fun r => (some r, (leave facades (after n e)).2)) hok
    · exact (hlasts k).trans (decide_eq_true hk)
    · exact (hlasts n).trans (decide_eq_false (Nat.lt_irrefl n))
  · have hsame : (after n e).userDirectory = e.userDirectory :=
      (congrArg (fun s => s.2.2) hlast.savings).trans hdirectory.symm
    have hsaved := hleft.saved directory (hsame ▸ hmem)
    rwa [hlast.stage.updates] at hsaved

theorem exists_records {path : String} (hopened : Opened tree path e) (hfresh : Fresh e)
    (h : Running menu n (Spacious tree) (settings, settingsPath, userDirectory) n (after n e))
    (hsettings : ∀ path ∈ settingsPath, ∃ p, tree.writable path = .ok p)
    (houtcomes : (laps facades (.start :: rounds n) e).map Lap.outcome =
      List.replicate n (some .completed))
    {p : Trail} (hp : tree.writable path = .ok p)
    (hothers : ∀ other ∈ settingsPath, tree.writable other ≠ tree.writable path) :
    ∃ records : List Attributes, records.length = n ∧
      (leave facades (after n e)).2.storage.readText path =
        .ok (String.join (lines (records.take (n - reportLag)))) ∧
      ∀ k lap, (laps facades (.start :: rounds n) e)[k]? = some lap →
        Recorded OpenFile.received "" records k lap := by
  obtain ⟨⟨f, hf, hfiles, hbuffer⟩, hcollects⟩ := hopened
  have hstart : Reporting (fun f t => ∃ text, OpenFile.Files path text f t) OpenFile.received "" []
      e := by
    refine ⟨?_, hcollects, ⟨hfresh.history, hfresh.frames.trans List.drop_nil.symm⟩, hfresh.rested,
      f, hf, ⟨"", hfiles⟩, ?_⟩
    · rw [hfresh.counter]
      rfl
    · rw [hfiles.received_eq, hbuffer]
      rfl
  -- the reports of a run are known only while every iteration ends
  have hends : ∀ lap ∈ laps facades (.start :: rounds n) e, lap.outcome ≠ none := by
    intro lap hlap hnone
    have hmem := List.mem_map_of_mem (f := Lap.outcome) hlap
    rw [houtcomes, hnone] at hmem
    cases List.eq_of_mem_replicate hmem
  obtain ⟨records, hlength, hplay, hlaps⟩ :=
    hstart.play (OpenFile.accepting path) Headless.punctual (.start :: rounds n) hends
  change Reporting _ _ _ _ (after n e) at hplay
  have hn : records.length = n := by
    have hcount := congrArg List.length houtcomes
    rw [List.length_map, List.length_replicate] at hcount
    exact hlength.trans hcount
  obtain ⟨last, hlast, ⟨text, hwritten⟩, hreceived⟩ := hplay.report
  obtain ⟨-, hleft, -⟩ := leave_headless h.resumable (saves_settings h hsettings) h.stage
  have hsettled := files_settled h hwritten hp fun other hmem => by
    obtain ⟨q, hq⟩ := hsettings other hmem
    refine ⟨q, hq, fun heq => hothers other hmem ?_⟩
    rw [hq, hp, heq]
  refine ⟨records, hn, ?_, fun k lap hk => ?_⟩
  · rw [hleft.storage, hsettled.readText_ended hlast, ← hwritten.received_eq, hreceived,
      String.empty_append, reported, List.nil_append, hn]
  · have hlap := hlaps k lap hk
    rwa [List.length_nil, Nat.zero_add] at hlap

/-- The headless engine runs exactly the frames that were asked for, whatever it is told, with or
without a script worker, and whenever that runs. The report keeps all that is due in it unless the
settings are saved to the same file. -/
theorem headless_runs_exactly (n : Nat) {settings : Settings} (hvalid : settings.problem? = none)
    (saves : String → Bool) (physicsWorkers : Nat) (clock : Clock) (schedule : Schedule)
    (tree : FileTree) (patience : Nat) (statsFile settingsPath userDirectory : Option String)
    (startup : StartupMode) (hstartup : ∀ path, startup ≠ .loadSave path) (script : Option String)
    (hstats : ∀ path ∈ statsFile, ∃ p, tree.writable path = .ok p)
    (hsettings : ∀ path ∈ settingsPath, ∃ p, tree.writable path = .ok p) :
    ∃ e, build facades settings (.new saves physicsWorkers n) tree clock schedule statsFile patience
        [.told settingsPath userDirectory startup script] = .ok e ∧
      Exactly n e ∧
      (∀ path ∈ statsFile, (∀ other ∈ settingsPath, tree.writable other ≠ tree.writable path) →
        ∃ records : List Attributes, records.length = n ∧
          (leave facades (after n e)).2.storage.readText path =
            .ok (String.join (lines (records.take (n - reportLag)))) ∧
          ∀ k lap, (laps facades (.start :: rounds n) e)[k]? = some lap →
            Recorded OpenFile.received "" records k lap) ∧
      (startup = .mainMenu →
        (∀ glimpse ∈ (play facades (.start :: rounds n) e).1,
          glimpse.simulationTime = .zero false ∧ glimpse.world.gameHours = .zero false) ∧
        (leave facades (after n e)).2.simulationTime = .zero false ∧
        (leave facades (after n e)).2.scene.world.gameHours = .zero false) := by
  obtain ⟨e, hbuild, hsavings, hstartup', hstarted, hworld, hspacious, hopened⟩ :=
    build_ok (F := facades) hvalid (World.new saves physicsWorkers n) clock schedule patience hstats
      settingsPath userDirectory startup script
  have hfresh : Fresh e := .build hbuild
  have hready : Ready n (Spacious tree) e :=
    ⟨⟨saves, physicsWorkers, hworld⟩, hstarted, hstartup'.symm ▸ hstartup, hfresh.counter,
      prepared_timeless.build (fun _ => rfl) hbuild, hfresh.rested, hspacious⟩
  obtain ⟨hok, hrunning⟩ := hready.start
  rw [hsavings, hstartup'] at hrunning
  have hdirectory : e.userDirectory = userDirectory := congrArg (fun s => s.2.2) hsavings
  have hexactly := exactly_of_running hok hrunning hsettings hdirectory
  have hlast := hrunning.iterate (spacious_spares tree) n
  rw [Nat.zero_add, ← after_eq] at hlast
  refine ⟨e, hbuild, hexactly, fun path hmem hothers => ?_, fun hmenu => ?_⟩
  · obtain ⟨p, hp⟩ := hstats path hmem
    exact exists_records (hopened path hmem) hfresh hlast hsettings hexactly.outcomes hp hothers
  · subst hmenu
    obtain ⟨-, hleft, hdown⟩ :=
      leave_headless hlast.resumable (saves_settings hlast hsettings) hlast.stage
    have hrounds := hrunning.glimpses (spacious_spares tree) n
    rw [glimpses_cons, List.forall_mem_cons]
    exact ⟨⟨hrunning.still, hrounds⟩, hleft.simulationTime.trans hlast.still.1, hdown.hours rfl⟩

section Splitting

variable {s : String} {b i : String.Pos.Raw}

theorem splitOnAux_next (hend : i.atEnd s = false) (hslash : (i.get s == '/') = false) :
    s.splitOnAux "/" b i 0 [] = s.splitOnAux "/" b (i.next s) 0 [] := by
  have hget : String.Pos.Raw.get "/" 0 = '/' := by decide
  rw [String.splitOnAux, hget]
  simp only [hend, hslash, Bool.false_eq_true, if_false]
  rfl

theorem splitOnAux_end (hend : i.atEnd s = true) :
    s.splitOnAux "/" b i 0 [] = [String.Pos.Raw.extract s b i] := by
  rw [String.splitOnAux]
  simp [hend]

end Splitting

/-- Three frames at the main menu, with a script worker and a file for the statistics. -/
theorem headless_runs_three_frames :
    let settings := { Settings.defaults with scriptWorkerThreads := 1 }
    settings.problem? = none ∧ FileTree.empty.writable "out" = .ok ["out"] ∧
    FileTree.empty.writable "cfg" = .ok ["cfg"] ∧
    ∃ e, build facades settings (.new (fun _ => false) 2 3) FileTree.empty ⟨id, 0⟩ .lazy
        (some "out") 9 [.told (some "cfg") (some "user") .mainMenu (some "greet")] = .ok e ∧
      Exactly 3 e ∧
      (∃ records : List Attributes, records.length = 3 ∧
        (leave facades (after 3 e)).2.storage.readText "out" =
          .ok (String.join (lines (records.take 1)))) ∧
      (leave facades (after 3 e)).2.simulationTime = .zero false := by
  intro settings
  have hvalid : settings.problem? = none := by decide +kernel
  have hstats : FileTree.empty.writable "out" = .ok ["out"] := by
    have hsplit : "out".splitOn "/" = ["out"] := by
      rw [String.splitOn, if_neg (by decide), splitOnAux_next (by decide) (by decide),
        splitOnAux_next (by decide) (by decide), splitOnAux_next (by decide) (by decide),
        splitOnAux_end (by decide)]
      decide
    have hsize : "out".utf8ByteSize = 3 := by decide
    simp [FileTree.writable, FileTree.resolve, FileTree.follow, FileTree.empty, FileTree.isDirectory,
      FileTree.content?, FileTree.maxPath, FileTree.maxName, hsplit, hsize]
  have hsettings : FileTree.empty.writable "cfg" = .ok ["cfg"] := by
    have hsplit : "cfg".splitOn "/" = ["cfg"] := by
      rw [String.splitOn, if_neg (by decide), splitOnAux_next (by decide) (by decide),
        splitOnAux_next (by decide) (by decide), splitOnAux_next (by decide) (by decide),
        splitOnAux_end (by decide)]
      decide
    have hsize : "cfg".utf8ByteSize = 3 := by decide
    simp [FileTree.writable, FileTree.resolve, FileTree.follow, FileTree.empty, FileTree.isDirectory,
      FileTree.content?, FileTree.maxPath, FileTree.maxName, hsplit, hsize]
  have hdifferent : FileTree.empty.writable "cfg" ≠ FileTree.empty.writable "out" := by
    simp [hstats, hsettings]
  obtain ⟨e, hbuild, hexactly, hreport, hmenu⟩ :=
    headless_runs_exactly 3 hvalid (fun _ => false) 2 ⟨id, 0⟩ .lazy .empty 9 (some "out")
      (some "cfg") (some "user") .mainMenu (fun _ h => StartupMode.noConfusion h) (some "greet")
      (fun _ hmem => ⟨["out"], Option.some.inj hmem ▸ hstats⟩)
      (fun _ hmem => ⟨["cfg"], Option.some.inj hmem ▸ hsettings⟩)
  obtain ⟨records, hlength, hfile, -⟩ :=
    hreport "out" rfl fun _ hmem => Option.some.inj hmem ▸ hdifferent
  exact ⟨hvalid, hstats, hsettings, e, hbuild, hexactly, ⟨records, hlength, hfile⟩, (hmenu rfl).2.1⟩

end FrameLoop.Engine
