import MetaCache.Command.Program
import MetaCache.Proofs.Cache.Steps
import MetaCache.Proofs.Json.Lines

/-!
# What a run writes

A run writes a line for every app that it resolves, in the order in which they were asked for, and
counts the others. The names of apps are up to the API, but whatever they are, the lines can be told
apart and read back (`run_framed`). A run that cannot begin its work, because something is not set
up, or not open, or not preloaded, writes nothing. The exit status tells which of all this it was.
-/

namespace MetaCache

open MetaCache.Json MetaCache.Remote MetaCache.Store MetaCache.Text

/-! ## Lines -/

/-- **An app reads back from its line.** -/
theorem App.decode_encode (a : App) : decode (bytesOf a.encode) = .ok a := by
  have hfits : schema.Nests Object.Fits nestingLimit a.toData :=
    ⟨True.intro, True.intro, True.intro, True.intro, True.intro, True.intro, True.intro, True.intro⟩
  rw [decode, encode, Json.decode_encode (by decide) hfits]
  rfl

theorem Json.bytesOf_eq (s : String) : bytesOf s = utf8 s.toList := by
  rw [← bytesOf_ofList, String.ofList_toList]

/-! ## Stores that are not open -/

namespace Store

/-- Whether nothing is open. -/
def Backend.isClosed : Backend → Bool
  | persistent p => !p.isOpen
  | _ => true

theorem Backend.isClosed_closeStore (b : Backend) : b.closeStore.isClosed := by
  cases b <;> rfl

theorem Persistent.isOpen_of_refused {p p' : Persistent} {e : Error}
    (h : p.openStore = (.error e, p')) : p'.isOpen = false := by
  rw [openStore] at h
  split at h
  · cases h
  · next hopen =>
    have hclosed : p.isOpen = false := (Bool.not_eq_true _).mp hopen
    split at h
    · cases h
      exact hclosed
    · split at h
      · cases h
        exact hclosed
      · dsimp only at h
        split at h
        · cases h
          exact hclosed
        · cases h

theorem Backend.isClosed_of_refused {b b' : Backend} {e : Error}
    (h : b.openStore = (.error e, b')) : b'.isClosed := by
  cases b with
  | persistent p =>
    rw [openStore_persistent] at h
    obtain ⟨hresult, rfl⟩ := Prod.mk.inj h
    exact (Bool.not_eq_true' _).mpr (Persistent.isOpen_of_refused (Prod.ext hresult rfl))
  | _ => cases h

end Store

namespace Command

/-- The lines that apps are written on, as bytes. -/
def linesOf (apps : List App) : List (List UInt8) := apps.map fun app => bytesOf app.encode

theorem bytesOf_output (r : Report) :
    bytesOf r.output = (linesOf r.apps).flatMap (· ++ [0x0a]) := by
  have hline (app : App) : utf8 (app.encode ++ "\n").toList = bytesOf app.encode ++ [0x0a] := by
    rw [String.toList_append, utf8_append, bytesOf_eq]
    rfl
  rw [bytesOf_eq, Report.output, String.toList_join, List.flatMap_map, linesOf, List.flatMap_map,
    utf8, List.flatMap_assoc]
  exact congrArg (fun line => r.apps.flatMap line) (funext hline)

/-- **Splitting the output at line breaks gives the lines**, and nothing stands behind the last. -/
theorem splitOn_output (r : Report) :
    (bytesOf r.output).splitOn 0x0a = linesOf r.apps ++ [[]] := by
  rw [bytesOf_output]
  refine splitOn_lines fun line hline => ?_
  obtain ⟨app, -, rfl⟩ := List.mem_map.1 hline
  exact newline_notMem_encode App.schema app.toData

theorem decode_linesOf (apps : List App) : (linesOf apps).map App.decode = apps.map .ok := by
  simp only [linesOf, List.map_map, Function.comp_def, App.decode_encode]

/-! ## The work -/

/-- What comes of resolving apps one after the other. -/
def outcomes (cache : Cache) (w : Cache.World) :
    Cache.State → List String → List (Except Error App)
  | _, [] => []
  | s, guid :: guids =>
    (cache.resolveApp guid w s).1 :: outcomes cache w (cache.resolveApp guid w s).2 guids

/-- The apps among some outcomes. -/
def appsOf (outcomes : List (Except Error App)) : List App := outcomes.filterMap Except.toOption

/-- The number of errors among some outcomes. -/
def failuresIn (outcomes : List (Except Error App)) : Nat :=
  outcomes.countP fun result => !result.isOk

theorem length_outcomes (cache : Cache) (w : Cache.World) (s : Cache.State) (guids : List String) :
    (outcomes cache w s guids).length = guids.length := by
  induction guids generalizing s with
  | nil => rfl
  | cons guid guids ih => rw [outcomes, List.length_cons, List.length_cons, ih]

/-- Each outcome is an app or a failure. -/
theorem length_appsOf_add_failuresIn (outcomes : List (Except Error App)) :
    (appsOf outcomes).length + failuresIn outcomes = outcomes.length := by
  induction outcomes with
  | nil => rfl
  | cons result outcomes ih =>
    rw [appsOf, failuresIn] at ih ⊢
    rw [List.filterMap_cons, List.countP_cons, List.length_cons, ← ih]
    cases result with
    | ok app => simp only [Except.toOption, List.length_cons]; exact Nat.succ_add ..
    | error e => exact (Nat.add_assoc ..).symm

/-- One more app never makes the work fail. -/
theorem resolveNext_apply (cache : Cache) (p : Progress) (guid : String) (w : Cache.World)
    (s : Cache.State) :
    resolveNext cache p guid w s =
      (.ok (match (cache.resolveApp guid w s).1 with
        | .ok app => { p with apps := p.apps ++ [app] }
        | .error e =>
          { p with failed := p.failed + 1, events := p.events ++ [.unresolved guid e] }),
        (cache.resolveApp guid w s).2) := by
  rw [resolveNext, Cache.Action.attempt_bind]
  cases (cache.resolveApp guid w s).1 <;> rfl

/-- **A failure in the middle disturbs nothing**: the apps that are resolved are written in order,
and the others are counted. -/
theorem resolveNext_foldlM (cache : Cache) (w : Cache.World) (p : Progress) (s : Cache.State)
    (guids : List String) : ∃ p', (guids.foldlM (resolveNext cache) p w s).1 = .ok p'
      ∧ p'.apps = p.apps ++ appsOf (outcomes cache w s guids)
      ∧ p'.failed = p.failed + failuresIn (outcomes cache w s guids) := by
  induction guids generalizing p s with
  | nil => exact ⟨p, rfl, (List.append_nil _).symm, rfl⟩
  | cons guid guids ih =>
    rw [List.foldlM_cons, Cache.Action.bind_ok (resolveNext_apply cache p guid w s), outcomes]
    cases (cache.resolveApp guid w s).1 with
    | ok app =>
      obtain ⟨p', hdone, happs, hfailed⟩ :=
        ih { p with apps := p.apps ++ [app] } (cache.resolveApp guid w s).2
      refine ⟨p', hdone, ?_, hfailed⟩
      rw [happs, List.append_assoc]
      rfl
    | error e =>
      obtain ⟨p', hdone, happs, hfailed⟩ := ih
        { p with failed := p.failed + 1, events := p.events ++ [.unresolved guid e] }
        (cache.resolveApp guid w s).2
      refine ⟨p', hdone, happs, ?_⟩
      rw [hfailed, failuresIn, failuresIn, List.countP_cons, Nat.add_assoc, Nat.add_comm 1]
      rfl

/-- The cache is open, and preloaded if that is asked for: apps can be resolved from here. -/
inductive Ready (a : Arguments) (cache : Cache) (w : Cache.World) (opened : Backend) :
    Cache.State → Prop
  | opened (plain : a.fill = false) : Ready a cache w opened (.ofBackend opened)
  | preloaded (asked : a.fill) {report : FillReport} {s : Cache.State}
      (filled : cache.fillAll w (.ofBackend opened) = (.ok report, s)) : Ready a cache w opened s

/-- The work fails if a preload does, and not after that. -/
theorem work_cases (cache : Cache) (a : Arguments) (w : Cache.World) (opened : Backend) :
    (∃ start p, Ready a cache w opened start ∧ (work cache a w (.ofBackend opened)).1 = .ok p
        ∧ p.apps = appsOf (outcomes cache w start a.guids)
        ∧ p.failed = failuresIn (outcomes cache w start a.guids))
      ∨ ∃ e, (work cache a w (.ofBackend opened)).1 = .error e
        ∧ ∀ start, ¬ Ready a cache w opened start := by
  cases hfill : a.fill with
  | false =>
    have hwork : work cache a w (.ofBackend opened)
        = a.guids.foldlM (resolveNext cache) Progress.start w (.ofBackend opened) := by
      simp only [work, hfill]
      rfl
    obtain ⟨p, hdone, happs, hfailed⟩ :=
      resolveNext_foldlM cache w .start (.ofBackend opened) a.guids
    rw [hwork]
    refine .inl ⟨_, p, .opened hfill, hdone, happs, ?_⟩
    rw [hfailed]
    exact Nat.zero_add _
  | true =>
    cases hdone : cache.fillAll w (.ofBackend opened) with
    | mk result s =>
      cases result with
      | ok report =>
        have hwork : work cache a w (.ofBackend opened) = a.guids.foldlM (resolveNext cache)
            { Progress.start with events := [.preloaded report] } w s := by
          simp only [work, hfill, if_true]
          exact Cache.Action.bind_ok hdone
        obtain ⟨p, hworked, happs, hfailed⟩ := resolveNext_foldlM cache w
          { Progress.start with events := [.preloaded report] } s a.guids
        rw [hwork]
        refine .inl ⟨s, p, .preloaded hfill hdone, hworked, happs, ?_⟩
        rw [hfailed]
        exact Nat.zero_add _
      | error e =>
        have hwork : work cache a w (.ofBackend opened) = (.error e, s) := by
          simp only [work, hfill, if_true]
          exact Cache.Action.bind_error hdone
        refine .inr ⟨e, by rw [hwork], fun start hready => ?_⟩
        cases hready with
        | opened plain => rw [hfill] at plain; cases plain
        | preloaded _ filled => rw [hdone] at filled; cases filled

/-! ## Runs -/

/-- The setup of a run is there, and apps can be resolved from here. -/
structure Prepared (c : Config) (a : Arguments) (disk : Disk) (outside : Nat → Outside) (s : Setup)
    (start : Cache.State) : Prop where
  isSetUp : setUp c disk = .ok s
  ready : ∃ opened, s.backend.openStore = (.ok (), opened)
    ∧ Ready a s.cache (Outside.world outside s.client) opened start

variable {c : Config} {a : Arguments} {disk : Disk} {outside : Nat → Outside} {s : Setup}

theorem finish_ok (c : Config) (disk : Disk) {worked : Except Error Progress × Cache.State}
    {p : Progress} (h : worked.1 = .ok p) : (finish c disk worked).apps = p.apps
      ∧ (finish c disk worked).result = .ok ⟨p.apps.length, p.failed⟩ := by
  obtain ⟨result, s⟩ := worked
  obtain rfl : result = .ok p := h
  exact ⟨rfl, rfl⟩

theorem finish_error (c : Config) (disk : Disk) {worked : Except Error Progress × Cache.State}
    {e : Error} (h : worked.1 = .error e) : (finish c disk worked).apps = []
      ∧ (finish c disk worked).result = .error (.cache e) := by
  obtain ⟨result, s⟩ := worked
  obtain rfl : result = .error e := h
  exact ⟨rfl, rfl⟩

/-- **The cache is closed whether the work has failed or not.** -/
theorem backend_finish (worked : Except Error Progress × Cache.State) :
    (finish c disk worked).backend = some worked.2.backend.closeStore := by
  rcases worked with ⟨e | p, s⟩ <;> rfl

theorem run_opened (hsetup : setUp c disk = .ok s) {opened : Backend}
    (hopen : s.backend.openStore = (.ok (), opened)) : run c a disk outside
      = finish c disk (work s.cache a (Outside.world outside s.client) (.ofBackend opened)) := by
  unfold run
  rw [hsetup]
  simp only [hopen]

theorem Prepared.ready_of_opened {s' : Setup} {start : Cache.State}
    (h : Prepared c a disk outside s' start) (hsetup : setUp c disk = .ok s) {opened : Backend}
    (hopen : s.backend.openStore = (.ok (), opened)) :
    Ready a s.cache (Outside.world outside s.client) opened start := by
  obtain ⟨opened', hopen', hready⟩ := h.ready
  obtain rfl := Except.ok.inj (hsetup.symm.trans h.isSetUp)
  obtain rfl := (Prod.mk.inj (hopen.symm.trans hopen')).2
  exact hready

/-- A run resolves apps if it is prepared to, and otherwise writes nothing. -/
theorem run_cases (c : Config) (a : Arguments) (disk : Disk) (outside : Nat → Outside) :
    (∃ s start, Prepared c a disk outside s start
        ∧ (let results := outcomes s.cache (Outside.world outside s.client) start a.guids
          (run c a disk outside).apps = appsOf results
            ∧ (run c a disk outside).result = .ok ⟨(appsOf results).length, failuresIn results⟩))
      ∨ ∃ failure, (run c a disk outside).result = .error failure
        ∧ (run c a disk outside).apps = [] ∧ ∀ s start, ¬ Prepared c a disk outside s start := by
  cases hsetup : setUp c disk with
  | error failure =>
    refine .inr ⟨failure, ?_, ?_, fun s start h => ?_⟩
    · rw [run, hsetup]; rfl
    · rw [run, hsetup]; rfl
    · rw [h.isSetUp] at hsetup; cases hsetup
  | ok s =>
    cases hopen : s.backend.openStore with
    | mk result opened =>
      cases result with
      | error e =>
        have hrun : run c a disk outside
            = .ofFailure (disk.settle c.cache opened) opened (.cache e) := by
          unfold run
          rw [hsetup]
          simp only [hopen]
        refine .inr ⟨.cache e, by rw [hrun]; rfl, by rw [hrun]; rfl, fun s' start h => ?_⟩
        obtain ⟨opened', hopen', -⟩ := h.ready
        obtain rfl := Except.ok.inj (hsetup.symm.trans h.isSetUp)
        rw [hopen] at hopen'
        cases hopen'
      | ok done =>
        rw [run_opened hsetup hopen]
        rcases work_cases s.cache a (Outside.world outside s.client) opened with
          ⟨start, p, hready, hdone, happs, hfailed⟩ | ⟨e, hdone, hready⟩
        · obtain ⟨hwritten, hresult⟩ := finish_ok c disk hdone
          refine .inl ⟨s, start, ⟨hsetup, opened, hopen, hready⟩, hwritten.trans happs, ?_⟩
          rw [hresult, happs, hfailed]
        · obtain ⟨hwritten, hresult⟩ := finish_error c disk hdone
          exact .inr ⟨.cache e, hresult, hwritten, fun s' start h =>
            hready start (h.ready_of_opened hsetup hopen)⟩

/-- What a run leaves is closed. -/
theorem isClosed_of_run {b : Backend} (h : (run c a disk outside).backend = some b) :
    b.isClosed := by
  unfold run at h
  split at h
  · cases h
  · split at h
    · next hopen =>
      cases h
      exact Backend.isClosed_of_refused hopen
    · rw [backend_finish] at h
      cases h
      exact Backend.isClosed_closeStore _

theorem output_of_error {failure : Failure} (h : (run c a disk outside).result = .error failure) :
    (run c a disk outside).output = "" := by
  rcases run_cases c a disk outside with ⟨_, _, _, _, hresult⟩ | ⟨_, _, happs, -⟩
  · rw [hresult] at h
    cases h
  · rw [Report.output, happs]
    rfl

/-! ## The program -/

/-- The program comes to run with these arguments and this configuration. -/
structure Starts (line : List String) (e : Environment) (disk : Disk) (a : Arguments) (c : Config) :
    Prop where
  arguments : Arguments.parse line = .ok a
  config : configFor a e disk = .ok c

variable {line : List String} {e : Environment}

theorem execute_starts (h : Starts line e disk a c) (outside : Nat → Outside) :
    execute line e disk outside
      = .ofReport (.ofEnvironment e.filter) c.jsonLog (run c a disk outside) := by
  unfold execute
  rw [h.arguments]
  simp only [h.config]

/-- The command line is no use, or the configuration, or the run fails. -/
def Refused (line : List String) (e : Environment) (disk : Disk) (outside : Nat → Outside) : Prop :=
  (∃ usage, Arguments.parse line = .error usage)
    ∨ (∃ a failure, Arguments.parse line = .ok a ∧ configFor a e disk = .error failure)
    ∨ ∃ a c failure, Starts line e disk a c ∧ (run c a disk outside).result = .error failure

theorem finished_or_refused (line : List String) (e : Environment) (disk : Disk)
    (outside : Nat → Outside) :
    (∃ a c summary, Starts line e disk a c ∧ (run c a disk outside).result = .ok summary)
      ∨ Refused line e disk outside := by
  cases hparse : Arguments.parse line with
  | error usage => exact .inr (.inl ⟨usage, hparse⟩)
  | ok a =>
    cases hconfig : configFor a e disk with
    | error failure => exact .inr (.inr (.inl ⟨a, failure, hparse, hconfig⟩))
    | ok c =>
      cases hresult : (run c a disk outside).result with
      | error failure => exact .inr (.inr (.inr ⟨a, c, failure, ⟨hparse, hconfig⟩, hresult⟩))
      | ok summary => exact .inl ⟨a, c, summary, ⟨hparse, hconfig⟩, hresult⟩

theorem exit_of_ok (h : Starts line e disk a c) {summary : Summary}
    (hresult : (run c a disk outside).result = .ok summary) :
    (execute line e disk outside).exit = if summary.failed = 0 then 0 else 1 := by
  rw [execute_starts h, Execution.ofReport, hresult]
  rfl

theorem output_of_starts (h : Starts line e disk a c) :
    (execute line e disk outside).output = (run c a disk outside).output := by
  rw [execute_starts h, Execution.ofReport]
  cases (run c a disk outside).result <;> rfl

theorem exit_of_refused (h : Refused line e disk outside) :
    (execute line e disk outside).exit = 2 ∧ (execute line e disk outside).output = "" := by
  rcases h with ⟨usage, hparse⟩ | ⟨a, failure, hparse, hconfig⟩ | ⟨a, c, failure, hstarts, hresult⟩
  · rw [execute, hparse]
    exact ⟨rfl, rfl⟩
  · rw [execute, hparse]
    simp only [hconfig]
    exact ⟨rfl, rfl⟩
  · refine ⟨by rw [execute_starts hstarts, Execution.ofReport, hresult]; rfl, ?_⟩
    rw [output_of_starts hstarts]
    exact output_of_error hresult

/-- Any status but that of a refusal tells what the run came to. -/
theorem exit_eq_iff {status : UInt8} (hstatus : status ≠ 2) :
    (execute line e disk outside).exit = status ↔
      ∃ a c summary, Starts line e disk a c ∧ (run c a disk outside).result = .ok summary
        ∧ (if summary.failed = 0 then 0 else 1) = status := by
  constructor
  · intro hexit
    rcases finished_or_refused line e disk outside with ⟨a, c, summary, hstarts, hresult⟩ | hrefused
    · exact ⟨a, c, summary, hstarts, hresult, (exit_of_ok hstarts hresult).symm.trans hexit⟩
    · exact absurd (hexit.symm.trans (exit_of_refused hrefused).1) hstatus
  · rintro ⟨a, c, summary, hstarts, hresult, hsummary⟩
    exact (exit_of_ok hstarts hresult).trans hsummary

theorem exit_eq_zero_iff : (execute line e disk outside).exit = 0 ↔
    ∃ a c summary, Starts line e disk a c ∧ (run c a disk outside).result = .ok summary
      ∧ summary.failed = 0 := by
  have hzero (n : Nat) : (if n = 0 then 0 else 1 : UInt8) = 0 ↔ n = 0 := by
    split <;> simp [*]
  simp only [exit_eq_iff (by decide : (0 : UInt8) ≠ 2), hzero]

theorem exit_eq_one_iff : (execute line e disk outside).exit = 1 ↔
    ∃ a c summary, Starts line e disk a c ∧ (run c a disk outside).result = .ok summary
      ∧ 0 < summary.failed := by
  have hone (n : Nat) : (if n = 0 then 0 else 1 : UInt8) = 1 ↔ 0 < n := by
    split <;> simp [*, Nat.pos_iff_ne_zero]
  simp only [exit_eq_iff (by decide : (1 : UInt8) ≠ 2), hone]

theorem exit_eq_two_iff :
    (execute line e disk outside).exit = 2 ↔ Refused line e disk outside := by
  refine ⟨fun hexit => ?_, fun hrefused => (exit_of_refused hrefused).1⟩
  rcases finished_or_refused line e disk outside with ⟨a, c, summary, hstarts, hresult⟩ | hrefused
  · rw [exit_of_ok hstarts hresult] at hexit
    split at hexit <;> cases hexit
  · exact hrefused

/-- **A run writes one line for each app that it resolves, and nothing else.** Whatever the names
and guids are, the lines are told apart and read back. A run that is not prepared writes nothing,
and what was opened is closed in any case. The exit status tells these cases apart. -/
theorem run_framed :
    (∀ (c : Config) (a : Arguments) (disk : Disk) (outside : Nat → Outside),
      let r := run c a disk outside
      (∀ summary, r.result = .ok summary → ∃ s start, Prepared c a disk outside s start
        ∧ (let results := outcomes s.cache (Outside.world outside s.client) start a.guids
          bytesOf r.output = (appsOf results).flatMap (fun app => bytesOf app.encode ++ [0x0a])
            ∧ (bytesOf r.output).splitOn 0x0a = linesOf (appsOf results) ++ [[]]
            ∧ (linesOf (appsOf results)).map App.decode = (appsOf results).map .ok
            ∧ summary.resolved = (appsOf results).length
            ∧ summary.failed = failuresIn results
            ∧ summary.resolved + summary.failed = a.guids.length))
      ∧ (∀ failure, r.result = .error failure →
        r.output = "" ∧ ∀ s start, ¬ Prepared c a disk outside s start)
      ∧ (∀ s opened, setUp c disk = .ok s → s.backend.openStore = (.ok (), opened) →
        r.backend = some (work s.cache a (Outside.world outside s.client)
          (.ofBackend opened)).2.backend.closeStore)
      ∧ ∀ b, r.backend = some b → b.isClosed)
    ∧ ∀ (line : List String) (e : Environment) (disk : Disk) (outside : Nat → Outside),
      let x := execute line e disk outside
      (x.exit = 0 ↔ ∃ a c summary, Starts line e disk a c
          ∧ (run c a disk outside).result = .ok summary ∧ summary.failed = 0)
      ∧ (x.exit = 1 ↔ ∃ a c summary, Starts line e disk a c
          ∧ (run c a disk outside).result = .ok summary ∧ 0 < summary.failed)
      ∧ (x.exit = 2 ↔ Refused line e disk outside)
      ∧ (∀ a c, Starts line e disk a c → x.output = (run c a disk outside).output)
      ∧ (x.exit = 2 → x.output = "") := by
  refine ⟨fun c a disk outside => ⟨fun summary hok => ?_, fun failure herror => ?_,
    fun s opened hsetup hopen => ?_, fun b => isClosed_of_run⟩, fun line e disk outside => ?_⟩
  · rcases run_cases c a disk outside with ⟨s, start, hprepared, happs, hresult⟩ | ⟨_, hresult, -⟩
    · refine ⟨s, start, hprepared, ?_⟩
      obtain rfl := Except.ok.inj (hok.symm.trans hresult)
      refine ⟨?_, ?_, decode_linesOf _, rfl, rfl, ?_⟩
      · rw [bytesOf_output, happs, linesOf, List.flatMap_map]
      · rw [splitOn_output, happs]
      · rw [length_appsOf_add_failuresIn, length_outcomes]
    · rw [hresult] at hok
      cases hok
  · rcases run_cases c a disk outside with ⟨_, _, _, _, hresult⟩ | ⟨_, _, _, hunprepared⟩
    · rw [hresult] at herror
      cases herror
    · exact ⟨output_of_error herror, hunprepared⟩
  · rw [run_opened hsetup hopen, backend_finish]
  · exact ⟨exit_eq_zero_iff, exit_eq_one_iff, exit_eq_two_iff, fun a c => output_of_starts,
      fun hexit => (exit_of_refused (exit_eq_two_iff.1 hexit)).2⟩

/-- An entity whose name has two lines. -/
def verse : Response :=
  ⟨200, bytesOf "\x7b\"entity\":\x7b\"name\":\"two\\nlines\"\x7d\x7d"⟩

/-- A web that answers every request in this way. -/
def verseWeb : Web where
  deliver _ := .answered verse
  responses := [verse]
  deliver_mem := fun h => List.mem_singleton.2 (Delivery.answered.inj h).symm

/-- A run for one app on this web, and for a text that spells no guid. -/
def verseRun : Report :=
  run ⟨⟨"http://[::1]", none, 0, false⟩,
    { CacheSettings.inMemory 60 with ignoreMissingApps := true }, false⟩
    ⟨none, false, ["6ba7b810-9dad-11d1-80b4-00c04fd430c8", "x"]⟩ .empty
    fun _ => ⟨.epoch, 0, verseWeb⟩

/-- The app is on the only line, and reads back. -/
theorem run_framed_verse :
    verseRun.result.toOption = some ⟨1, 1⟩ ∧ verseRun.apps.map App.name = ["two\nlines"]
      ∧ ∃ app, (bytesOf verseRun.output).splitOn 0x0a = [bytesOf app.encode, []]
        ∧ App.decode (bytesOf app.encode) = .ok app := by
  have hdone : verseRun.result.toOption = some ⟨1, 1⟩ := by decide +kernel
  have hnames : verseRun.apps.map App.name = ["two\nlines"] := by decide +kernel
  refine ⟨hdone, hnames, ?_⟩
  cases hresult : verseRun.result with
  | error failure => rw [hresult] at hdone; cases hdone
  | ok summary =>
    obtain ⟨s, start, -, -, hsplit, hdecode, hcount, -⟩ := (run_framed.1 _ _ _ _).1 _ hresult
    rw [hresult] at hdone
    obtain rfl := Option.some.inj hdone
    obtain ⟨app, happ⟩ := List.length_eq_one_iff.1 hcount.symm
    rw [happ] at hsplit hdecode
    exact ⟨app, hsplit, (List.cons.inj hdecode).1⟩

end Command

end MetaCache
