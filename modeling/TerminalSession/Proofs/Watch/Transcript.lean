import TerminalSession.Proofs.Files.Append
import TerminalSession.Proofs.Recorder.Transcript
import TerminalSession.Proofs.Settings.Checks
import TerminalSession.Proofs.Transcript.Joined
import TerminalSession.Proofs.Watch.Reading
import TerminalSession.Proofs.Watch.Teardown

/-!
# What a watch writes

A watch with a transcript file leaves there what was there before, followed by the lines of the
records that its recorder hands over. Four things have to fit together for that:

- each batch handed over becomes one act, which appends its lines (`bytes_steps`);
- acts that append to one file add to it what each of them appends, in order (`performAll_appends`);
- the recorder's share of a watch ends with the stop, by which it has handed over its transcript
  (`handedOver_watch`);
- what is added behind a line feed is read by itself (`Transcript.read_append`).

Which transcript that is depends on the pieces that the output is read in and on nothing else, so
every recorder who is told these pieces and drops no batch makes the same one of them, whenever it
is told of them and however it is flushed (`AnyTranscript`). The instants of the records do depend
on time. The log of a watch is not looked at.
-/

set_option autoImplicit false

namespace TerminalSession.Watch

open Monitor (component)

/-! ## What acts append -/

/-- The bytes that an act appends to a file. -/
def Act.bytes : Act → Bytes
  | .append _ batch => batch
  | .log _ => []

/-- An act that appends to no file but that of a path. -/
def Act.IsAt (path : String) : Act → Prop
  | .append other _ => other = path
  | .log _ => True

/-- **Acts on one file add to it what each of them appends.** -/
theorem performAll_appends {d : Directory} {path : String} (h : d.Appendable path)
    {acts : List Act} (only : ∀ act ∈ acts, act.IsAt path) :
    (performAll d acts).1.contentAt path = d.contentAt path ++ acts.flatMap Act.bytes := by
  induction acts generalizing d with
  | nil => exact (List.append_nil _).symm
  | cons act acts ih =>
    obtain ⟨hact, hacts⟩ := List.forall_mem_cons.mp only
    rw [List.flatMap_cons]
    cases act with
    | log line => exact ih h hacts
    | append other batch =>
      cases hact
      obtain ⟨after, happend, hcontent, hmore⟩ := Directory.append_of_appendable h batch
      have hperform : (perform d (.append path batch)).1 = after := by
        simp only [perform, Sink.append, happend]
      rw [performAll, hperform, ih hmore hacts, hcontent, List.append_assoc]
      rfl

theorem writeAll_append (clock : Nat → Int) (batch more : List Stamped) :
    Stamped.writeAll clock (batch ++ more) =
      Stamped.writeAll clock batch ++ Stamped.writeAll clock more := by
  rw [Stamped.writeAll, List.map_append, Entry.writeAll, List.flatMap_append]
  rfl

variable {options : Options} {path : String} (clock : Nat → Int)

/-- Of the worker's jobs those that keep a batch append its lines. -/
theorem bytes_jobs (file : options.transcript = some path) (jobs : List Job) :
    (jobs.map (act options clock)).flatMap Act.bytes =
      Utf8.encode (Stamped.writeAll clock (jobs.filterMap Job.batch?).flatten) := by
  induction jobs with
  | nil => rfl
  | cons job jobs ih =>
    rw [List.map_cons, List.flatMap_cons, ih]
    cases job with
    | notify change => rfl
    | persist batch =>
      have hfirst : (Job.persist batch :: jobs).filterMap Job.batch? =
          batch :: jobs.filterMap Job.batch? := rfl
      rw [hfirst, List.flatten_cons, writeAll_append, Utf8.encode_append]
      simp only [act, file, Act.bytes]

theorem isAt_act (file : options.transcript = some path) (job : Job) :
    (act options clock job).IsAt path := by
  cases job with
  | notify change => exact True.intro
  | persist batch =>
    simp only [act, file]
    rfl

theorem bytes_logs {α : Type} (events : List α) (line : α → Log.Line) :
    (events.map fun event => Act.log (line event)).flatMap Act.bytes = [] := by
  rw [List.flatMap_map]
  exact List.flatMap_eq_nil_iff.mpr fun _ _ => rfl

/-- The batches that the events of a monitor hand over. -/
def batches (events : List Monitor.Event) : List (List Stamped) :=
  (events.filterMap Monitor.Event.job?).filterMap Job.batch?

theorem batches_append (events more : List Monitor.Event) :
    batches (events ++ more) = batches events ++ batches more := by
  simp only [batches, List.filterMap_append]

/-- Every batch comes from the recorder. -/
theorem batches_eq (events : List Monitor.Event) :
    batches events =
      (events.filterMap Monitor.Event.transcript?).filterMap Recorder.Event.batch? := by
  rw [batches, List.filterMap_filterMap, List.filterMap_filterMap]
  congr 1
  funext event
  cases event with
  | activity event => cases event <;> rfl
  | transcript event => cases event <;> rfl
  | stopped status => rfl

/-! ## What steps append -/

/-- A step appends the lines of the batches that are handed over in it. -/
theorem bytes_step (file : options.transcript = some path) (cfg : Monitor.Config)
    {stage : Stage Monitor Job} (free : stage.worker.held = false) (idle : stage.worker.queue = [])
    {s : Stage.Step Monitor.Call} (never : s ≠ .hold) :
    (step cfg options clock stage s).2.flatMap Act.bytes =
      Utf8.encode (Stamped.writeAll clock
        (batches (stage.step (component cfg) s).2).flatten) := by
  have hjobs := Stage.step_worker_of_free (component cfg) free never idle
  rw [step, List.flatMap_append, bytes_logs, List.nil_append, bytes_jobs clock file, hjobs,
    Worker.doneSince, List.drop_left]
  rfl

/-- And so do any number of steps. -/
theorem bytes_steps (file : options.transcript = some path) (cfg : Monitor.Config)
    {stage : Stage Monitor Job} (free : stage.worker.held = false) (idle : stage.worker.queue = [])
    {l : List (Stage.Step Monitor.Call)} (never : .hold ∉ l) :
    (steps cfg options clock stage l).2.flatMap Act.bytes =
      Utf8.encode (Stamped.writeAll clock (batches (stage.run (component cfg) l).2).flatten) := by
  induction l generalizing stage with
  | nil => rfl
  | cons s l ih =>
    obtain ⟨hne, hrest⟩ := not_or.mp fun h => never (List.mem_cons.mpr h)
    have hworker := Stage.step_worker_of_free (component cfg) free (Ne.symm hne) idle
    have hothers : (steps cfg options clock (step cfg options clock stage s).1 l).2.flatMap
        Act.bytes = _ :=
      ih ((congrArg Worker.held hworker).trans free) ((congrArg Worker.queue hworker).trans idle)
        hrest
    rw [steps, List.flatMap_append, bytes_step clock file cfg free idle (Ne.symm hne), hothers,
      Stage.run, batches_append, List.flatten_append, writeAll_append, Utf8.encode_append]
    rfl

theorem isAt_steps (file : options.transcript = some path) (cfg : Monitor.Config)
    (stage : Stage Monitor Job) (l : List (Stage.Step Monitor.Call)) :
    ∀ act ∈ (steps cfg options clock stage l).2, act.IsAt path := by
  induction l generalizing stage with
  | nil => exact fun _ h => nomatch h
  | cons s l ih =>
    intro act hact
    rcases List.mem_append.mp hact with hfirst | hothers
    · rcases List.mem_append.mp hfirst with hlog | hjob
      · obtain ⟨event, -, rfl⟩ := List.mem_map.mp hlog
        exact True.intro
      · obtain ⟨job, -, rfl⟩ := List.mem_map.mp hjob
        exact isAt_act clock file job
    · exact ih _ act hothers

/-! ## What a whole watch appends -/

theorem steps_append (cfg : Monitor.Config) (options : Options) (clock : Nat → Int)
    (stage : Stage Monitor Job) (l more : List (Stage.Step Monitor.Call)) :
    (steps cfg options clock stage (l ++ more)).2 =
      (steps cfg options clock stage l).2 ++
        (steps cfg options clock (steps cfg options clock stage l).1 more).2 := by
  induction l generalizing stage with
  | nil => rfl
  | cons s l ih => rw [List.cons_append, steps, ih, steps, List.append_assoc]

/-- All steps of a watch without keystrokes. -/
def allSteps (cfg : Monitor.Config) (script : List Happening) : List (Stage.Step Monitor.Call) :=
  scriptSteps [] script ++ teardown cfg

theorem hold_not_mem_allSteps (cfg : Monitor.Config) (script : List Happening) :
    .hold ∉ allSteps cfg script := by
  intro hmem
  rcases List.mem_append.mp hmem with hmem | hmem
  · rcases mem_scriptSteps hmem with ⟨_, h⟩ | ⟨_, h⟩ | ⟨_, h⟩
    · cases h
    · cases h
    · cases h
  · simp only [teardown, List.mem_cons, reduceCtorEq, List.not_mem_nil, or_self] at hmem

/-- The file of a watch, in the words of what its recorder hands over. -/
theorem contentAt_play (e : Equipment) {d : Directory} (script : List Happening)
    (noInput : options.input = none) (file : options.transcript = some path)
    (room : d.Appendable path) (free : e.worker.held = false) (idle : e.worker.queue = []) :
    (play e options clock d script).directory.contentAt path =
      d.contentAt path ++ Utf8.encode (Stamped.writeAll clock
        (batches (e.begin.run (component e.cfg) (allSteps e.cfg script)).2).flatten) := by
  have hkeys : keystrokes options d script = ([], []) := by rw [keystrokes, noInput]
  have hbytes : (steps e.cfg options clock e.begin (allSteps e.cfg script)).2.flatMap
      Act.bytes = _ :=
    bytes_steps clock file e.cfg free idle (hold_not_mem_allSteps e.cfg script)
  have hat := isAt_steps clock file e.cfg
  simp only [play, hkeys, List.map_nil]
  rw [performAll_appends room]
  · rw [← hbytes, allSteps, steps_append]
    simp only [List.cons_append, List.append_assoc, List.flatMap_cons, List.flatMap_append,
      List.flatMap_nil, List.append_nil, Act.bytes, List.nil_append]
  · simp only [List.cons_append, List.nil_append, List.append_assoc, List.forall_mem_cons,
      List.forall_mem_append]
    exact ⟨True.intro, hat _ _, True.intro, hat _ _, True.intro, fun _ h => nomatch h⟩

/-- **A watch's recorder hands over the transcript** of the output in the pieces it is read in. -/
theorem handedOver_watch (e : Equipment) (script : List Happening) :
    (batches (e.begin.run (component e.cfg) (allSteps e.cfg script)).2).flatten.map (·.record) =
      Recorder.transcript ((readings script).map .output) := by
  have hsteps : recorderSteps (allSteps e.cfg script) =
      (recorderSteps (scriptSteps [] script) ++ [.sleep e.cfg.classifier.debounce]) ++
        [.call .stop] := by
    rw [allSteps, recorderSteps_append, List.append_assoc]
    rfl
  have hshows : Stage.Shows Monitor.recorder e.begin (Recorder.opening e.cfg.recorder 0 0) :=
    ⟨rfl, rfl⟩
  have hevents := ((Monitor.recorder_role e.cfg).run hshows (allSteps e.cfg script)).2
  have hrunning : .call .stop ∉
      recorderSteps (scriptSteps [] script) ++ [.sleep e.cfg.classifier.debounce] := by
    simpa only [List.mem_append, List.mem_singleton, reduceCtorEq, or_false] using
      stop_not_mem_recorderSteps [] script
  have hfeeds : Recorder.feeds
      (recorderSteps (scriptSteps [] script) ++ [.sleep e.cfg.classifier.debounce]) =
        (readings script).map .output := by
    rw [Recorder.feeds, List.filterMap_append, ← feeds_recorderSteps]
    exact List.append_nil _
  rw [batches_eq, ← hevents, ← hfeeds, ← Recorder.handedOver_to_stop e.cfg.recorder 0 0 hrunning,
    ← hsteps]
  rfl

/-! ## The law -/

/-- Records that any recorder makes of output in these pieces, who is told of them in this order,
with any waits, flushes and configuration, and stopped at last, if none of its batches is dropped.
-/
def AnyTranscript (pieces : List Bytes) (records : List Record) : Prop :=
  ∀ (cfg : Recorder.Config) (now capacity : Nat) (told : List (Stage.Step Recorder.Call)),
    .call .stop ∉ told → Recorder.feeds told = pieces.map .output →
    (Recorder.ending cfg now capacity told).worker.dropped = 0 →
    (Recorder.keptBatches (Recorder.ending cfg now capacity told)).flatten.map (·.record) = records

theorem anyTranscript (pieces : List Bytes) :
    AnyTranscript pieces (Recorder.transcript (pieces.map .output)) := by
  intro cfg now capacity told running hfeeds none_dropped
  rw [Recorder.keptBatches_records cfg now capacity none_dropped,
    Recorder.handedOver_to_end cfg now capacity running, hfeeds]

/-- A watch has copied the output of a script, and has added its transcript to a file: the lines of
some records, behind what was there. -/
structure Wrote (options : Options) (clock : Nat → Int) (d : Directory) (path : String)
    (script : List Happening) (o : Outcome) : Prop where
  copied : o.copied = if options.tee then outputOf script else []
  added : ∃ batch : List Stamped,
    o.directory.contentAt path =
        d.contentAt path ++ Utf8.encode (Stamped.writeAll clock batch) ∧
      batch.map (·.record) = Recorder.transcript ((readings script).map .output) ∧
      AnyTranscript (readings script) (batch.map (·.record)) ∧
      (Transcript.Ended (d.contentAt path) →
        Transcript.read (o.directory.contentAt path) =
          Transcript.read (d.contentAt path) ++ batch.map (Stamped.entry clock))

theorem wrote_play (e : Equipment) {d : Directory} (script : List Happening)
    (noInput : options.input = none) (file : options.transcript = some path)
    (room : d.Appendable path) (free : e.worker.held = false) (idle : e.worker.queue = [])
    (times : ∀ now, Decimal.isInt64 (clock now) = true) :
    Wrote options clock d path script (play e options clock d script) := by
  have hcontent := contentAt_play clock e script noInput file room free idle
  have hrecords := handedOver_watch e script
  refine ⟨copy_eq options _ script, _, hcontent, hrecords, ?_, fun hended => ?_⟩
  · rw [hrecords]
    exact anyTranscript (readings script)
  · rw [hcontent, Transcript.read_append hended]
    refine congrArg (Transcript.read (d.contentAt path) ++ ·) ?_
    refine Transcript.read_writeAll fun entry hentry => ?_
    obtain ⟨stamped, -, rfl⟩ := List.mem_map.mp hentry
    exact times stamped.time

/-! ## Settings -/

/-- A queue or a window is asked for that there can be no room for. -/
def AsksTooMuch (settings : Settings) : Prop :=
  Worker.longestQueue < settings.queue ∨
    Settings.largestWindow < settings.classifier.windowBytes

/-- With settings that pass their checks a watch begins, its worker free, unless they ask for more
than there can be room for. -/
theorem equip_of_check {settings : Settings} (h : settings.check = .ok ()) :
    (AsksTooMuch settings ∧ ∃ excess, equip settings = .error (.noRoom excess)) ∨
      (¬AsksTooMuch settings ∧
        ∃ e, equip settings = .ok e ∧ e.worker.held = false ∧ e.worker.queue = []) := by
  obtain ⟨cfg, hcfg⟩ := Settings.exists_monitor_of_check h
  have hwindow := (Settings.holds_of_checkMonitor hcfg).1.windowBytes
  by_cases hqueue : settings.queue ≤ Worker.longestQueue
  · have hworker : Worker.ofCapacity? (κ := Job) settings.queue =
        some { capacity := max settings.queue 1 } := if_pos hqueue
    by_cases hroom : settings.classifier.windowBytes ≤ Settings.largestWindow
    · refine .inr ⟨?_, ⟨cfg, { capacity := max settings.queue 1 }⟩, ?_, rfl, rfl⟩
      · rintro (hlong | hlarge)
        · exact absurd hqueue (Nat.not_le.mpr hlong)
        · exact absurd hroom (Nat.not_le.mpr hlarge)
      · have hfits : Settings.checkRoom cfg.classifier = .ok () := if_pos (hwindow ▸ hroom)
        simp only [equip, hworker, hcfg, Except.mapError, bind, Except.bind, hfits, pure,
          Except.pure]
    · refine .inl ⟨.inr (Nat.not_le.mp hroom), .window, ?_⟩
      have hlarge : Settings.checkRoom cfg.classifier = .error .window := if_neg (hwindow ▸ hroom)
      simp only [equip, hworker, hcfg, Except.mapError, bind, Except.bind, hlarge]
  · refine .inl ⟨.inl (Nat.not_le.mp hqueue), .queue, ?_⟩
    have hworker : Worker.ofCapacity? (κ := Job) settings.queue = none := if_neg hqueue
    rw [equip, hworker]

/-- **A watch writes its recorder's transcript and copies the output unchanged.** So it is of every
script without keystrokes, with a transcript file that can be appended to, a worker who is free and
any configuration that passes its checks: the copy is the output, and the file holds what it held
before, followed by the lines of the records that any recorder makes of the output in pieces of at
most `readSize` bytes. What was in the file is read as before, if it ended with a line feed, and
then the entries of these records.

Settings that pass their checks lead to such a watch, unless they ask for more than there can be
room for; then nothing begins. The times are those of a clock with 64 bits. -/
theorem writes_transcript (options : Options) (clock : Nat → Int) (d : Directory) (path : String)
    (script : List Happening) (noInput : options.input = none)
    (file : options.transcript = some path) (room : d.Appendable path)
    (times : ∀ now, Decimal.isInt64 (clock now) = true) :
    (readings script).flatten = outputOf script ∧
      (∀ piece ∈ readings script, 0 < piece.length ∧ piece.length ≤ readSize) ∧
      (∀ e : Equipment, e.worker.held = false → e.worker.queue = [] →
        Wrote options clock d path script (play e options clock d script)) ∧
      ∀ settings : Settings, settings.check = .ok () →
        (AsksTooMuch settings ∧
            ∃ excess, run settings options clock d script = .error (.noRoom excess)) ∨
          (¬AsksTooMuch settings ∧ ∃ o, run settings options clock d script = .ok o ∧
            Wrote options clock d path script o) := by
  have hplay (e : Equipment) (free : e.worker.held = false) (idle : e.worker.queue = []) :
      Wrote options clock d path script (play e options clock d script) :=
    wrote_play clock e script noInput file room free idle times
  refine ⟨flatten_readings script, fun _ => readings_bounds, hplay, fun settings hcheck => ?_⟩
  rcases equip_of_check hcheck with ⟨htoo, excess, hequip⟩ | ⟨hfits, e, hequip, free, idle⟩
  · refine .inl ⟨htoo, excess, ?_⟩
    rw [run, hequip]
    rfl
  · refine .inr ⟨hfits, _, ?_, hplay e free idle⟩
    rw [run, hequip]
    rfl

/-- A spinner that does not turn while the session waits. -/
def stalled : List Happening := [.output [0x7C], .wait 10, .output [0x7C]]

/-- A directory with a file that holds a damaged line. -/
def damaged : Directory := { files := [(["t"], [0x78, 0x0A])] }

/-- A path of one name has one part. -/
theorem split_name : Directory.split "t" = .ok ([], ["t"]) := by
  have hend : String.Pos.Raw.atEnd "t"
      (String.Pos.Raw.next "t" (String.Pos.Raw.unoffsetBy 0 0)) = true := by decide +kernel
  have hwhole : String.Pos.Raw.extract "t" 0
      (String.Pos.Raw.next "t" (String.Pos.Raw.unoffsetBy 0 0)) = "t" := by decide +kernel
  have hparts : "t".splitOn "/" = ["t"] := by
    rw [String.splitOn, if_neg (by decide), String.splitOnAux, if_neg (by decide +kernel),
      if_neg (by decide +kernel), String.splitOnAux, if_pos hend, hwhole]
    rfl
  rw [Directory.split, if_neg (by simp), if_neg (by decide), if_neg (by decide),
    if_neg (by decide +kernel), hparts]

theorem follow_damaged : damaged.follow [] ["t"] = .ok (.file ["t"] [0x78, 0x0A]) := rfl

theorem locateNew_damaged : damaged.locateNew "t" = .ok (.file ["t"] [0x78, 0x0A]) := by
  have hname : "t".endsWith "/" = false := by decide +kernel
  rw [Directory.locateNew, split_name]
  simp only [bind, Except.bind, hname, Bool.false_eq_true, if_false, follow_damaged]

theorem locate_damaged : damaged.locate "t" = .ok (.file ["t"] [0x78, 0x0A]) := by
  rw [Directory.locate, split_name]
  exact follow_damaged

theorem writes_transcript_stalled :
    damaged.Appendable "t" ∧ Settings.check {} = .ok () ∧
      ∃ o batch, run {} { transcript := some "t", tee := true } (fun _ => 0) damaged stalled =
          .ok o ∧
        o.copied = [0x7C, 0x7C] ∧
        o.directory.contentAt "t" =
          [0x78, 0x0A] ++ Utf8.encode (Stamped.writeAll (fun _ => 0) batch) ∧
        batch.map (·.record) = [.shown ['|'], .repeated 1] ∧
        Transcript.read (o.directory.contentAt "t") = batch.map (Stamped.entry fun _ => 0) := by
  have happend : damaged.append "t" [] = .ok damaged := Directory.append_eq locateNew_damaged rfl []
  have room : damaged.Appendable "t" := ⟨damaged, happend⟩
  have check : Settings.check {} = .ok () := rfl
  have hcontent : damaged.contentAt "t" = [0x78, 0x0A] :=
    Directory.contentAt_of_locate locate_damaged
  have hreadings : readings stalled = [[0x7C], [0x7C]] := by decide +kernel
  have hlaw := writes_transcript { transcript := some "t", tee := true } (fun _ => 0) damaged "t"
    stalled rfl rfl room fun _ => rfl
  rcases hlaw.2.2.2 {} check with ⟨htoo, -⟩ | ⟨-, o, hrun, hwrote⟩
  · rcases htoo with hlong | hlarge
    · exact absurd hlong (by decide)
    · exact absurd hlarge (by decide)
  · obtain ⟨batch, hfile, hrecords, -, hread⟩ := hwrote.added
    have hended : Transcript.Ended (damaged.contentAt "t") := .inr (by rw [hcontent]; rfl)
    have hbatch : batch.map (·.record) = [.shown ['|'], .repeated 1] := by
      rw [hrecords, hreadings]
      decide +kernel
    have hformer : Transcript.read (damaged.contentAt "t") = [] := by
      rw [hcontent]
      decide +kernel
    rw [hcontent] at hfile
    exact ⟨room, check, o, batch, hrun, hwrote.copied, hfile, hbatch,
      (hread hended).trans (by rw [hformer, List.nil_append])⟩

end TerminalSession.Watch
