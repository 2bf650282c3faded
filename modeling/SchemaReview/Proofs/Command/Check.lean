import Mathlib.Data.List.Perm.Basic
import Mathlib.Data.List.TakeWhile
import SchemaReview.Command.Run
import SchemaReview.Proofs.Settings

/-!
# Proofs.Command.Check — how a check ends, and what it has printed by then

A check makes its plan, reads the scripts in order up to the first that cannot be read, and prints a
report on each one before that.  What it finds on the way, a workspace answers by functions.

* `plan_cases`: there is a plan, or one of five reasons why there is none (`Unplannable`).
* `run_loadScripts`: the scripts that are read are those in front of the first that cannot be read.
* `Planned.output_eq`, `Planned.exit_eq_failed_iff`, `Planned.exit_eq_defects_iff`: what a planned check prints and
  how it ends.
* `exit_eq_failed_iff`, `exit_eq_defects_iff`: how a check ends, in terms of the workspace and the
  settings only.
* `check_exit_and_output`: all of it for the program run on arguments.
-/

namespace SchemaReview

/-! ## Selections -/

theorem exists_mapM_eq_ok {ε α β : Type} {f : α → Except ε β} {xs : List α} :
    (∃ ys, xs.mapM f = .ok ys) ↔ ∀ x ∈ xs, ∃ y, f x = .ok y := by
  induction xs with
  | nil => exact ⟨fun _ x hx => absurd hx List.not_mem_nil, fun _ => ⟨[], rfl⟩⟩
  | cons x xs ih =>
    rw [List.forall_mem_cons, ← ih, List.mapM_cons]
    cases hx : f x with
    | error e => simp [bind, Except.bind]
    | ok y =>
      cases hxs : xs.mapM f with
      | error e => simp [bind, Except.bind]
      | ok ys => simp [bind, Except.bind, pure, Except.pure]

namespace Settings

/-- A name among the selected detectors or groups is not the name of one. -/
def SelectsUnknown (s : Settings) : Prop :=
  (∃ name ∈ s.detectors, ∃ e, Detector.ofName name = .error e) ∨
    ∃ name ∈ s.groups, ∃ e, DetectorGroup.ofName name = .error e

/-- Every selected detector is disabled. -/
def SelectsNothing (s : Settings) : Prop :=
  ∃ chosen, s.selected = .ok chosen ∧ ∀ d ∈ chosen, d ∈ s.disabledDetectors

theorem exists_selected_iff (s : Settings) :
    (∃ chosen, s.selected = .ok chosen) ↔ ¬ s.SelectsUnknown := by
  have hnot : ∀ {ε α β : Type} (f : α → Except ε β) (xs : List α),
      (∃ ys, xs.mapM f = .ok ys) ↔ ¬ ∃ x ∈ xs, ∃ e, f x = .error e := by
    intro ε α β f xs
    rw [exists_mapM_eq_ok]
    push Not
    refine forall₂_congr fun x _ => ?_
    cases f x <;> simp
  rw [SelectsUnknown, not_or, ← hnot, ← hnot, selected]
  cases s.detectors.mapM Detector.ofName with
  | error e => simp [bind, Except.bind]
  | ok ds =>
    cases s.groups.mapM DetectorGroup.ofName with
    | error e => simp [bind, Except.bind]
    | ok gs => simp [bind, Except.bind, pure, Except.pure]

/-- The selection can be made exactly when all its names are known. -/
theorem exists_review_iff (s : Settings) : (∃ r, s.review = .ok r) ↔ ¬ s.SelectsUnknown := by
  rw [← s.exists_selected_iff]
  constructor
  · rintro ⟨r, hr⟩
    exact selected_of_review hr
  · rintro ⟨chosen, hchosen⟩
    exact ⟨_, by rw [review, hchosen]; rfl⟩

theorem selectsNothing_iff {s : Settings} {r : Review} (hr : s.review = .ok r) :
    s.SelectsNothing ↔ r.detectors = [] := by
  obtain ⟨chosen, hchosen⟩ := selected_of_review hr
  have hdetectors : r.detectors = distinct (chosen.filter fun d => !s.disabledDetectors.contains d) := by
    rw [review, hchosen] at hr
    cases hr
    rfl
  rw [SelectsNothing, hdetectors, List.eq_nil_iff_forall_not_mem]
  simp only [hchosen, Except.ok.injEq, exists_eq_left', mem_distinct, List.mem_filter, not_and,
    Bool.not_eq_true', List.contains_eq_mem, decide_eq_false_iff_not, not_not]

end Settings

namespace Command

variable {w w' : Workspace Id} {given given' : Settings} {config config' : Option String}

/-! ## What a workspace answers -/

namespace Workspace

/-- The settings of a check, if the configuration can be loaded. -/
def settings? (w : Workspace Id) (given : Settings) (config : Option String) : Option Settings :=
  (w.configuration config).run.map (·.override given)

/-- The paths that the readable entries of a list of files stand for. -/
def listed (w : Workspace Id) (entries : List String) : List String :=
  entries.flatMap fun entry => (w.expand entry).run.getD []

/-- The script can be read. -/
def loads (w : Workspace Id) (path : String) : Bool := (w.load path).run.toBool

/-- The script at a path that can be read. -/
def script (w : Workspace Id) (path : String) : LoadedScript :=
  ⟨path, (w.load path).run.toOption.getD ""⟩

/-- The workspace in which every entry stands for one path. -/
def showing (w : Workspace Id) (path : String) : Workspace Id :=
  { w with expand := fun _ => pure (some [path]) }

end Workspace

/-- Why there is no plan of a check. -/
inductive Unplannable (w : Workspace Id) (given : Settings) (config : Option String) : Prop where
  /-- The configuration cannot be loaded. -/
  | configuration (h : (w.configuration config).run = none)
  /-- The selection of detectors is invalid. -/
  | selection {s : Settings} (hs : w.settings? given config = some s) (h : s.SelectsUnknown)
  /-- A path pattern is invalid. -/
  | pattern {s : Settings} (hs : w.settings? given config = some s) {entry : String}
      (hentry : entry ∈ s.files) (h : (w.expand entry).run = none)
  /-- No file remains. -/
  | noFiles {s : Settings} (hs : w.settings? given config = some s) (h : w.listed s.files = [])
  /-- No detector remains. -/
  | noDetectors {s : Settings} (hs : w.settings? given config = some s) (h : s.SelectsNothing)

/-- Why a check fails: it has no plan, or a listed file cannot be read. -/
def Impeded (w : Workspace Id) (given : Settings) (config : Option String) : Prop :=
  Unplannable w given config ∨ ∃ s, w.settings? given config = some s ∧
    ∃ path ∈ w.listed s.files, ∃ e, (w.load path).run = .error e

/-- A listed file has a finding of the selected detectors that is an error and not disabled. -/
def FindsError (w : Workspace Id) (given : Settings) (config : Option String) : Prop :=
  ∃ s r, w.settings? given config = some s ∧ s.review = .ok r ∧ ∃ path ∈ w.listed s.files,
    ∃ text, (w.load path).run = .ok text ∧
      ∃ f ∈ r.run text, f.severity = .error ∧ s.isDisabled f = false

/-! ## The plan -/

theorem run_expandAll {entries : List String} (h : ∀ e ∈ entries, ((w.expand e).run).isSome = true) :
    (expandAll w entries).run = .ok (w.listed entries) := by
  induction entries with
  | nil => rfl
  | cons entry entries ih =>
    rw [List.forall_mem_cons] at h
    obtain ⟨paths, hpaths⟩ := Option.isSome_iff_exists.mp h.1
    have hrest := ih h.2
    have hlisted : w.listed (entry :: entries) = paths ++ w.listed entries := by
      rw [Workspace.listed, List.flatMap_cons, hpaths]
      rfl
    rw [Id.run] at hpaths
    rw [expandAll, hpaths, hlisted]
    show (expandAll w entries >>= fun more => pure (paths ++ more)).run = _
    rw [ExceptT.run_bind, hrest]
    rfl

theorem run_expandAll_error {entries : List String} {entry : String} (hentry : entry ∈ entries)
    (h : (w.expand entry).run = none) : ∃ f, (expandAll w entries).run = .error f := by
  induction entries with
  | nil => cases hentry
  | cons first entries ih =>
    cases hfirst : (w.expand first).run with
    | none =>
      rw [Id.run] at hfirst
      refine ⟨.pattern first, ?_⟩
      rw [expandAll, hfirst]
      rfl
    | some paths =>
      have hne : entry ≠ first := by
        rintro rfl
        rw [h] at hfirst
        cases hfirst
      obtain ⟨f, hf⟩ := ih ((List.mem_cons.mp hentry).resolve_left hne)
      rw [Id.run] at hfirst
      refine ⟨f, ?_⟩
      rw [expandAll, hfirst]
      show (expandAll w entries >>= fun more => pure (paths ++ more)).run = _
      rw [ExceptT.run_bind, hf]
      rfl

/-- The plan under known settings, its steps one after the other. -/
def planUnder (w : Workspace Id) (s : Settings) : Except Failure Plan :=
  match s.review, (expandAll w s.files).run with
  | .error e, _ => .error (.selection e)
  | .ok _, .error f => .error f
  | .ok review, .ok paths =>
    if paths.isEmpty then .error .noFiles
    else if review.detectors.isEmpty then .error .noDetectors
    else .ok ⟨s, review, paths⟩

theorem run_plan_of_none (h : w.settings? given config = none) :
    (plan w given config).run = .error .configuration := by
  have hbase : (w.configuration config).run = none := Option.map_eq_none_iff.mp h
  rw [Id.run] at hbase
  rw [plan, hbase]
  rfl

theorem run_plan_of_some {s : Settings} (h : w.settings? given config = some s) :
    (plan w given config).run = planUnder w s := by
  obtain ⟨base, hbase, rfl⟩ := Option.map_eq_some_iff.mp h
  replace hbase : w.configuration config = pure (some base) := hbase
  rw [plan, hbase, planUnder]
  simp only [ExceptT.run_bind, ExceptT.run_lift, map_pure, pure_bind]
  cases (base.override given).review with
  | error e => rfl
  | ok review =>
    show (expandAll w (base.override given).files >>= _).run = _
    rw [ExceptT.run_bind]
    cases (expandAll w (base.override given).files).run with
    | error f => rfl
    | ok paths =>
      obtain ⟨detectors⟩ := review
      cases paths with
      | nil => rfl
      | cons path paths => cases detectors <;> rfl

/-- What the plan of a check is. -/
structure Planned (w : Workspace Id) (given : Settings) (config : Option String) (p : Plan) : Prop where
  settings : w.settings? given config = some p.settings
  review : p.settings.review = .ok p.review
  readable : ∀ entry ∈ p.settings.files, (w.expand entry).run.isSome = true
  paths : p.paths = w.listed p.settings.files
  paths_ne_nil : p.paths ≠ []
  detectors_ne_nil : p.review.detectors ≠ []

/-- There is a plan, or a reason why there is none. -/
theorem plan_cases (w : Workspace Id) (given : Settings) (config : Option String) :
    (∃ p, Planned w given config p ∧ (plan w given config).run = .ok p) ∨
      Unplannable w given config ∧ ∃ f, (plan w given config).run = .error f := by
  cases hs : w.settings? given config with
  | none =>
    refine Or.inr ⟨.configuration (Option.map_eq_none_iff.mp hs), .configuration, ?_⟩
    exact run_plan_of_none hs
  | some s =>
    rw [run_plan_of_some hs, planUnder]
    cases hreview : s.review with
    | error e =>
      refine Or.inr ⟨.selection hs ?_, .selection e, rfl⟩
      by_contra hknown
      obtain ⟨r, hr⟩ := s.exists_review_iff.mpr hknown
      rw [hreview] at hr
      cases hr
    | ok review =>
      by_cases hreadable : ∀ entry ∈ s.files, (w.expand entry).run.isSome = true
      · rw [run_expandAll hreadable]
        by_cases hpaths : (w.listed s.files).isEmpty = true
        · exact Or.inr ⟨.noFiles hs (List.isEmpty_iff.mp hpaths), .noFiles, by simp [hpaths]⟩
        · by_cases hdetectors : review.detectors.isEmpty = true
          · refine Or.inr ⟨.noDetectors hs ?_, .noDetectors, by simp [hpaths, hdetectors]⟩
            exact (Settings.selectsNothing_iff hreview).mpr (List.isEmpty_iff.mp hdetectors)
          · refine Or.inl ⟨⟨s, review, w.listed s.files⟩, ?_, by simp [hpaths, hdetectors]⟩
            exact ⟨hs, hreview, hreadable, rfl, mt List.isEmpty_iff.mpr hpaths,
              mt List.isEmpty_iff.mpr hdetectors⟩
      · push Not at hreadable
        obtain ⟨entry, hentry, hnone⟩ := hreadable
        have hunread : (w.expand entry).run = none := by simpa using hnone
        obtain ⟨f, hf⟩ := run_expandAll_error hentry hunread
        rw [hf]
        exact Or.inr ⟨.pattern hs hentry hunread, f, rfl⟩

/-- A check with a plan has none of the reasons. -/
theorem Planned.not_unplannable {p : Plan} (h : Planned w given config p) :
    ¬ Unplannable w given config := by
  have hsame : ∀ {s : Settings}, w.settings? given config = some s → s = p.settings := by
    intro s hs
    exact Option.some.inj (hs.symm.trans h.settings)
  intro hun
  cases hun with
  | configuration hnone =>
    have hs := h.settings
    rw [Workspace.settings?, hnone] at hs
    cases hs
  | selection hs hunknown =>
    obtain rfl := hsame hs
    exact p.settings.exists_review_iff.mp ⟨_, h.review⟩ hunknown
  | pattern hs hentry hnone =>
    obtain rfl := hsame hs
    have hsome := h.readable _ hentry
    rw [hnone] at hsome
    cases hsome
  | noFiles hs hempty =>
    obtain rfl := hsame hs
    exact h.paths_ne_nil (h.paths.trans hempty)
  | noDetectors hs hnothing =>
    obtain rfl := hsame hs
    exact h.detectors_ne_nil ((Settings.selectsNothing_iff h.review).mp hnothing)

theorem Planned.run_plan {p : Plan} (h : Planned w given config p) :
    (plan w given config).run = .ok p := by
  rw [run_plan_of_some h.settings, planUnder, h.review, run_expandAll h.readable, ← h.paths]
  simp [h.paths_ne_nil, h.detectors_ne_nil]

theorem Unplannable.run_plan (h : Unplannable w given config) :
    ∃ f, (plan w given config).run = .error f := by
  rcases plan_cases w given config with ⟨p, hp, -⟩ | ⟨-, hf⟩
  · exact absurd h hp.not_unplannable
  · exact hf

/-! ## The scripts that are read -/

/-- The scripts that are read are those in front of the first that cannot be read. -/
theorem run_loadScripts (w : Workspace Id) (paths : List String) :
    (loadScripts w paths).run.1 = (paths.takeWhile w.loads).map w.script ∧
      ((loadScripts w paths).run.2 = none ↔ ∀ path ∈ paths, w.loads path = true) := by
  induction paths with
  | nil => exact ⟨rfl, by simp [loadScripts]⟩
  | cons path paths ih =>
    cases hload : (w.load path).run with
    | error e =>
      have hloads : w.loads path = false := by
        rw [Workspace.loads, hload]
        rfl
      have hrun : (loadScripts w (path :: paths)).run = ([], some (.script path e)) := by
        rw [Id.run] at hload
        rw [loadScripts, hload]
        rfl
      rw [hrun]
      simp [hloads]
    | ok text =>
      have hloads : w.loads path = true := by
        rw [Workspace.loads, hload]
        rfl
      have hscript : w.script path = ⟨path, text⟩ := by
        rw [Workspace.script, hload]
        rfl
      have hrun : (loadScripts w (path :: paths)).run =
          (w.script path :: (loadScripts w paths).run.1, (loadScripts w paths).run.2) := by
        rw [Id.run] at hload
        rw [loadScripts, hload, hscript]
        rfl
      rw [hrun, List.takeWhile_cons_of_pos hloads, List.map_cons, List.forall_mem_cons, ih.1]
      exact ⟨rfl, ih.2.trans (by simp [hloads])⟩

theorem Workspace.loads_eq_false_iff (w : Workspace Id) (path : String) :
    w.loads path = false ↔ ∃ e, (w.load path).run = .error e := by
  rw [loads]
  cases (w.load path).run <;> simp [Except.toBool]

theorem Workspace.loads_eq_true_iff (w : Workspace Id) (path : String) :
    w.loads path = true ↔ (w.load path).run = .ok (w.script path).text := by
  rw [loads, script]
  cases (w.load path).run <;> simp [Except.toBool, Except.toOption]

/-! ## The outcome -/

theorem Plan.output_outcome (p : Plan) (quiet : Bool) (scripts : List LoadedScript)
    (failure : Option Failure) : (p.outcome quiet scripts failure).output =
      String.join (scripts.map fun s => (p.reviewed s).output p.format) := by
  cases failure <;> simp [outcome, Failure.outcome, Function.comp_def]

theorem Plan.exit_outcome_none (p : Plan) (quiet : Bool) (scripts : List LoadedScript) :
    (p.outcome quiet scripts none).exit =
      if ∃ s ∈ scripts, ∃ f ∈ p.findings s, f.severity = .error then .defects else .clean := by
  have hany : ((scripts.map p.reviewed).flatMap (·.findings)).any (fun f => f.severity = .error) =
      decide (∃ s ∈ scripts, ∃ f ∈ p.findings s, f.severity = .error) := by
    rw [Bool.eq_iff_iff, List.any_eq_true, decide_eq_true_iff, List.flatMap_map]
    constructor
    · rintro ⟨f, hf, herror⟩
      obtain ⟨s, hs, hfs⟩ := List.mem_flatMap.mp hf
      exact ⟨s, hs, f, hfs, of_decide_eq_true herror⟩
    · rintro ⟨s, hs, f, hfs, herror⟩
      exact ⟨f, List.mem_flatMap.mpr ⟨s, hs, hfs⟩, decide_eq_true herror⟩
  simp [outcome, hany]

/-- The outcome by the plan and the scripts that are read. -/
theorem run_check (w : Workspace Id) (quiet : Bool) (given : Settings) (config : Option String) :
    (check w quiet given config).run =
      match (plan w given config).run with
      | .error f => f.outcome "" ""
      | .ok p => p.outcome quiet (loadScripts w p.paths).run.1 (loadScripts w p.paths).run.2 := by
  rw [check]
  show (match (plan w given config).run with
    | .error f => _
    | .ok p => _ : Id Outcome).run = _
  cases (plan w given config).run <;> rfl

theorem Unplannable.exit_and_output (h : Unplannable w given config) (quiet : Bool) :
    (check w quiet given config).run.exit = .failed ∧ (check w quiet given config).run.output = "" := by
  obtain ⟨f, hf⟩ := h.run_plan
  rw [run_check, hf]
  exact ⟨rfl, rfl⟩

namespace Planned

variable {p : Plan}

theorem run_check (h : Planned w given config p) (quiet : Bool) :
    (check w quiet given config).run =
      p.outcome quiet (loadScripts w p.paths).run.1 (loadScripts w p.paths).run.2 := by
  rw [Command.run_check, h.run_plan]

/-- A planned check prints a report on every script in front of the first that cannot be read. -/
theorem output_eq (h : Planned w given config p) (quiet : Bool) :
    (check w quiet given config).run.output =
      String.join ((p.paths.takeWhile w.loads).map fun path =>
        (p.reviewed (w.script path)).output p.format) := by
  rw [h.run_check, Plan.output_outcome, (run_loadScripts w p.paths).1, List.map_map]
  rfl

/-- A planned check fails exactly when a script cannot be read. -/
theorem exit_eq_failed_iff (h : Planned w given config p) (quiet : Bool) :
    (check w quiet given config).run.exit = .failed ↔ ∃ path ∈ p.paths, w.loads path = false := by
  obtain ⟨-, hnone⟩ := run_loadScripts w p.paths
  rw [h.run_check]
  cases hfailure : (loadScripts w p.paths).run.2 with
  | some f =>
    refine ⟨fun _ => ?_, fun _ => rfl⟩
    by_contra hall
    push Not at hall
    have hsome := hnone.mpr fun path hpath => by simpa using hall path hpath
    rw [hfailure] at hsome
    cases hsome
  | none =>
    have hall := hnone.mp hfailure
    constructor
    · intro hexit
      rw [Plan.exit_outcome_none] at hexit
      split at hexit <;> cases hexit
    · rintro ⟨path, hpath, hfalse⟩
      rw [hall path hpath] at hfalse
      cases hfalse

/-- A planned check that does not fail reports defects exactly when a script has an error. -/
theorem exit_eq_defects_iff (h : Planned w given config p) (quiet : Bool)
    (hloads : ∀ path ∈ p.paths, w.loads path = true) :
    (check w quiet given config).run.exit = .defects ↔
      ∃ path ∈ p.paths, ∃ f ∈ p.findings (w.script path), f.severity = .error := by
  obtain ⟨hscripts, hnone⟩ := run_loadScripts w p.paths
  have hall : p.paths.takeWhile w.loads = p.paths := by
    rw [List.takeWhile_eq_self_iff]
    exact hloads
  rw [h.run_check, hnone.mpr hloads, Plan.exit_outcome_none, hscripts, hall]
  by_cases hfound : ∃ path ∈ p.paths, ∃ f ∈ p.findings (w.script path), f.severity = .error
  · simp [hfound]
  · simp [hfound]

end Planned

/-! ## How a check ends -/

theorem exit_eq_failed_iff (quiet : Bool) :
    (check w quiet given config).run.exit = .failed ↔ Impeded w given config := by
  rcases plan_cases w given config with ⟨p, hp, -⟩ | ⟨hun, -⟩
  · rw [hp.exit_eq_failed_iff quiet, hp.paths, Impeded, or_iff_right hp.not_unplannable]
    simp only [hp.settings, Option.some.injEq, exists_eq_left', Workspace.loads_eq_false_iff]
  · exact ⟨fun _ => Or.inl hun, fun _ => (hun.exit_and_output quiet).1⟩

theorem exit_eq_defects_iff (quiet : Bool) (h : ¬ Impeded w given config) :
    (check w quiet given config).run.exit = .defects ↔ FindsError w given config := by
  rcases plan_cases w given config with ⟨p, hp, -⟩ | ⟨hun, -⟩
  · have hloads : ∀ path ∈ p.paths, w.loads path = true := by
      intro path hpath
      by_contra hfalse
      refine h ((exit_eq_failed_iff quiet).mp ((hp.exit_eq_failed_iff quiet).mpr ⟨path, hpath, ?_⟩))
      simpa using hfalse
    rw [hp.exit_eq_defects_iff quiet hloads]
    constructor
    · rintro ⟨path, hpath, f, hf, herror⟩
      obtain ⟨hfound, henabled⟩ := List.mem_filter.mp hf
      exact ⟨p.settings, p.review, hp.settings, hp.review, path, hp.paths ▸ hpath, _,
        (w.loads_eq_true_iff path).mp (hloads path hpath), f, hfound, herror, by simpa using henabled⟩
    · rintro ⟨s, r, hs, hr, path, hpath, text, htext, f, hf, herror, henabled⟩
      obtain rfl : s = p.settings := Option.some.inj (hs.symm.trans hp.settings)
      obtain rfl : r = p.review := Except.ok.inj (hr.symm.trans hp.review)
      rw [← hp.paths] at hpath
      have hscript := (w.loads_eq_true_iff path).mp (hloads path hpath)
      obtain rfl : text = (w.script path).text := Except.ok.inj (htext.symm.trans hscript)
      exact ⟨path, hpath, f, List.mem_filter.mpr ⟨hf, by simpa using henabled⟩, herror⟩
  · exact absurd (Or.inl hun) h

/-! ## One file alone -/

/-- The check of one file: the same command for a list of files that stands for this one. -/
def checkAlone (w : Workspace Id) (quiet : Bool) (given : Settings) (config : Option String)
    (path : String) : Outcome :=
  (check (w.showing path) quiet { given with files := [path] } config).run

/-- Settings with one entry in their list of files. -/
theorem settings?_files (w : Workspace Id) (given : Settings) (config : Option String) (entry : String) :
    w.settings? { given with files := [entry] } config =
      (w.settings? given config).map fun s => { s with files := [entry] } := by
  rw [Workspace.settings?, Workspace.settings?, Option.map_map]
  rfl

/-- A check whose list of files stands for one file. -/
theorem Planned.alone {p : Plan} (h : Planned w given config p) (path : String) :
    Planned (w.showing path) { given with files := [path] } config
      ⟨{ p.settings with files := [path] }, p.review, [path]⟩ where
  settings := by
    show w.settings? { given with files := [path] } config = _
    rw [settings?_files, h.settings]
    rfl
  review := h.review
  readable := fun _ _ => rfl
  paths := rfl
  paths_ne_nil := List.cons_ne_nil _ _
  detectors_ne_nil := h.detectors_ne_nil

theorem Planned.output_checkAlone {p : Plan} (h : Planned w given config p) (quiet : Bool) {path : String}
    (hpath : w.loads path = true) : (checkAlone w quiet given config path).output =
      (p.reviewed (w.script path)).output p.format := by
  have hshowing : (w.showing path).loads path = true := hpath
  rw [checkAlone, (h.alone path).output_eq, List.takeWhile_cons_of_pos hshowing]
  rw [List.takeWhile_nil, List.map_singleton, String.join_cons, String.join_nil, String.append_empty]
  rfl

/-- A check without a plan has none for one file alone either, unless the list of files was to blame. -/
theorem Unplannable.output_checkAlone (h : Unplannable w given config) {s : Settings}
    (hs : w.settings? given config = some s)
    (hreadable : ∀ entry ∈ s.files, (w.expand entry).run.isSome = true) (hfiles : w.listed s.files ≠ [])
    (quiet : Bool) (path : String) : (checkAlone w quiet given config path).output = "" := by
  have hsame : ∀ {s' : Settings}, w.settings? given config = some s' → s' = s := by
    intro s' hs'
    exact Option.some.inj (hs'.symm.trans hs)
  have hs' : (w.showing path).settings? { given with files := [path] } config =
      some { s with files := [path] } := by
    show w.settings? { given with files := [path] } config = _
    rw [settings?_files, hs]
    rfl
  have halone : Unplannable (w.showing path) { given with files := [path] } config := by
    cases h with
    | configuration hnone =>
      rw [Workspace.settings?, hnone] at hs
      cases hs
    | selection hs'' hunknown =>
      obtain rfl := hsame hs''
      exact .selection hs' hunknown
    | pattern hs'' hentry hnone =>
      obtain rfl := hsame hs''
      have hsome := hreadable _ hentry
      rw [hnone] at hsome
      cases hsome
    | noFiles hs'' hempty =>
      obtain rfl := hsame hs''
      exact absurd hempty hfiles
    | noDetectors hs'' hnothing =>
      obtain rfl := hsame hs''
      exact .noDetectors hs' hnothing
  exact (halone.exit_and_output quiet).2

theorem planUnder_files {entry path : String} (h : (expandAll w [entry]).run = .ok [path])
    (s : Settings) : planUnder w { s with files := [entry] } =
      match s.review with
      | .error e => .error (.selection e)
      | .ok review =>
        if review.detectors.isEmpty then .error .noDetectors
        else .ok ⟨{ s with files := [entry] }, review, [path]⟩ := by
  have hreview : ({ s with files := [entry] } : Settings).review = s.review := rfl
  rw [planUnder, h, hreview]
  cases s.review <;> rfl

/-- Every entry that stands for one file gives the check of that file. -/
theorem run_check_eq_checkAlone {entry path : String} (h : (w.expand entry).run = some [path])
    (quiet : Bool) :
    (check w quiet { given with files := [entry] } config).run = checkAlone w quiet given config path := by
  have hentry : (expandAll w [entry]).run = .ok [path] := by
    rw [run_expandAll (by simp [h])]
    simp [Workspace.listed, h]
  have hpath : (expandAll (w.showing path) [path]).run = .ok [path] := rfl
  have hsettings : (w.showing path).settings? { given with files := [path] } config =
      (w.settings? given config).map fun s => { s with files := [path] } := settings?_files w _ _ _
  rw [checkAlone, run_check, run_check]
  cases hs : w.settings? given config with
  | none =>
    rw [hs] at hsettings
    rw [run_plan_of_none (by rw [settings?_files, hs]; rfl), run_plan_of_none hsettings]
  | some s =>
    rw [hs] at hsettings
    rw [run_plan_of_some (by rw [settings?_files, hs]; rfl), run_plan_of_some hsettings,
      planUnder_files hentry, planUnder_files hpath]
    cases s.review with
    | error e => rfl
    | ok review =>
      -- the plans differ in the list of files only, which is not looked at any more
      by_cases hdetectors : review.detectors.isEmpty = true
      · simp only [if_pos hdetectors]
      · simp only [if_neg hdetectors]
        rfl

/-! ## The order of the files -/

theorem Exit.eq_clean {e : Exit} (hfailed : e ≠ .failed) (hdefects : e ≠ .defects) : e = .clean := by
  cases e with
  | clean => rfl
  | defects => exact absurd rfl hdefects
  | failed => exact absurd rfl hfailed

/-- Two checks that differ in the order of their files only. -/
structure SameButOrder (w : Workspace Id) (s : Settings) (w' : Workspace Id) (s' : Settings) : Prop where
  expand : w'.expand = w.expand
  load : w'.load = w.load
  files : s'.files.Perm s.files
  others : s' = { s with files := s'.files }

theorem SameButOrder.symm {s s' : Settings} (h : SameButOrder w s w' s') : SameButOrder w' s' w s where
  expand := h.expand.symm
  load := h.load.symm
  files := h.files.symm
  others := by rw [h.others]

theorem SameButOrder.listed {s s' : Settings} (h : SameButOrder w s w' s') :
    (w'.listed s'.files).Perm (w.listed s.files) := by
  rw [Workspace.listed, Workspace.listed, h.expand]
  exact h.files.flatMap_right _

theorem SameButOrder.impeded {s s' : Settings} (h : SameButOrder w s w' s')
    (hs : w.settings? given config = some s) (hs' : w'.settings? given' config' = some s')
    (himpeded : Impeded w given config) : Impeded w' given' config' := by
  have hsame : ∀ {t : Settings}, w.settings? given config = some t → t = s := by
    intro t ht
    exact Option.some.inj (ht.symm.trans hs)
  rcases himpeded with hun | ⟨t, ht, path, hpath, e, he⟩
  · left
    cases hun with
    | configuration hnone =>
      rw [Workspace.settings?, hnone] at hs
      cases hs
    | selection ht hunknown =>
      obtain rfl := hsame ht
      refine .selection hs' ?_
      rw [h.others]
      exact hunknown
    | pattern ht hentry hnone =>
      obtain rfl := hsame ht
      refine .pattern hs' (h.files.mem_iff.mpr hentry) ?_
      rw [h.expand]
      exact hnone
    | noFiles ht hempty =>
      obtain rfl := hsame ht
      have hperm := h.listed
      rw [hempty] at hperm
      exact .noFiles hs' hperm.eq_nil
    | noDetectors ht hnothing =>
      obtain rfl := hsame ht
      refine .noDetectors hs' ?_
      rw [h.others]
      exact hnothing
  · obtain rfl := hsame ht
    refine Or.inr ⟨s', hs', path, h.listed.mem_iff.mpr hpath, e, ?_⟩
    rw [h.load]
    exact he

theorem SameButOrder.findsError {s s' : Settings} (h : SameButOrder w s w' s')
    (hs : w.settings? given config = some s) (hs' : w'.settings? given' config' = some s')
    (hfinds : FindsError w given config) : FindsError w' given' config' := by
  obtain ⟨t, r, ht, hr, path, hpath, text, htext, f, hf, herror, henabled⟩ := hfinds
  obtain rfl : t = s := Option.some.inj (ht.symm.trans hs)
  refine ⟨s', r, hs', ?_, path, h.listed.mem_iff.mpr hpath, text, ?_, f, hf, herror, ?_⟩
  · rw [h.others]
    exact hr
  · rw [h.load]
    exact htext
  · rw [h.others]
    exact henabled

/-- The order of the files has no bearing on how a check ends. -/
theorem SameButOrder.exit_eq {s s' : Settings} (h : SameButOrder w s w' s')
    (hs : w.settings? given config = some s) (hs' : w'.settings? given' config' = some s')
    (quiet quiet' : Bool) :
    (check w' quiet' given' config').run.exit = (check w quiet given config).run.exit := by
  by_cases himpeded : Impeded w given config
  · rw [(exit_eq_failed_iff quiet).mpr himpeded,
      (exit_eq_failed_iff quiet').mpr (h.impeded hs hs' himpeded)]
  · have himpeded' : ¬ Impeded w' given' config' := fun h' => himpeded (h.symm.impeded hs' hs h')
    have hnot := mt (exit_eq_failed_iff quiet).mp himpeded
    have hnot' := mt (exit_eq_failed_iff quiet').mp himpeded'
    have hdefects := exit_eq_defects_iff quiet himpeded
    have hdefects' := exit_eq_defects_iff quiet' himpeded'
    by_cases hfinds : FindsError w given config
    · rw [hdefects.mpr hfinds, hdefects'.mpr (h.findsError hs hs' hfinds)]
    · have hclean := mt hdefects.mp hfinds
      have hclean' := mt hdefects'.mp fun h' => hfinds (h.symm.findsError hs' hs h')
      rw [Exit.eq_clean hnot hclean, Exit.eq_clean hnot' hclean']

/-! ## The program run on arguments -/

theorem Exit.code_eq_two_iff (e : Exit) : e.code = 2 ↔ e = .failed := by
  cases e <;> decide

theorem Exit.code_eq_one_iff (e : Exit) : e.code = 1 ↔ e = .defects := by
  cases e <;> decide

theorem join_map_empty {α : Type} (xs : List α) : String.join (xs.map fun _ => "") = "" := by
  induction xs with
  | nil => rfl
  | cons x xs ih => rw [List.map_cons, String.join_cons, ih, String.empty_append]

/-- What a check has printed when the first script that cannot be read is met. -/
theorem output_of_first_failing {s : Settings} (hs : w.settings? given config = some s)
    (hreadable : ∀ entry ∈ s.files, (w.expand entry).run.isSome = true)
    {before after : List String} {path : String} (hsplit : w.listed s.files = before ++ path :: after)
    (hbefore : ∀ p ∈ before, w.loads p = true) (hpath : w.loads path = false) (quiet : Bool) :
    (check w quiet given config).run.output =
      String.join (before.map fun p => (checkAlone w quiet given config p).output) := by
  have hfiles : w.listed s.files ≠ [] := by
    rw [hsplit]
    exact List.append_ne_nil_of_right_ne_nil _ (List.cons_ne_nil _ _)
  rcases plan_cases w given config with ⟨p, hp, -⟩ | ⟨hun, -⟩
  · obtain rfl : s = p.settings := Option.some.inj (hs.symm.trans hp.settings)
    have hread : p.paths.takeWhile w.loads = before := by
      rw [hp.paths, hsplit, List.takeWhile_append_of_pos hbefore,
        List.takeWhile_cons_of_neg (by simp [hpath]), List.append_nil]
    rw [hp.output_eq, hread]
    refine congrArg String.join (List.map_congr_left fun q hq => ?_)
    exact (hp.output_checkAlone quiet (hbefore q hq)).symm
  · -- nothing is printed, by the whole check and by those of single files
    rw [(hun.exit_and_output quiet).2]
    have hempty : (before.map fun p => (checkAlone w quiet given config p).output) =
        before.map fun _ => "" :=
      List.map_congr_left fun q _ => hun.output_checkAlone hs hreadable hfiles quiet q
    rw [hempty, join_map_empty]

/-- **How a check ends, and what it has printed by then.**  For every workspace and every command line
that asks for a check: the run exits with 2 exactly when it is impeded; up to the first file that cannot
be read it has printed what checks of the files before it print, each alone; otherwise it exits with 1
exactly when a file has an error that is not disabled; and the order of the files has no bearing on the
exit code. -/
theorem check_exit_and_output (w : Workspace Id) {environment : Option String}
    {arguments : List String} {quiet : Bool} {given : Settings} {config : Option String}
    (hparse : Request.ofArguments environment arguments = .run quiet (.check given config)) :
    ((run w environment arguments).run.exit.code = 2 ↔ Impeded w given config) ∧
    (∀ s before path after e, w.settings? given config = some s →
      (∀ entry ∈ s.files, (w.expand entry).run.isSome = true) →
      w.listed s.files = before ++ path :: after →
      (∀ p ∈ before, ∃ text, (w.load p).run = .ok text) → (w.load path).run = .error e →
      (run w environment arguments).run.output =
        String.join (before.map fun p => (checkAlone w quiet given config p).output)) ∧
    (∀ entry path, (w.expand entry).run = some [path] →
      (check w quiet { given with files := [entry] } config).run =
        checkAlone w quiet given config path) ∧
    (¬ Impeded w given config →
      ((run w environment arguments).run.exit.code = 1 ↔ FindsError w given config)) ∧
    ∀ w' environment' arguments' quiet' given' config' s s',
      Request.ofArguments environment' arguments' = .run quiet' (.check given' config') →
      w.settings? given config = some s → w'.settings? given' config' = some s' →
      SameButOrder w s w' s' →
      (run w' environment' arguments').run.exit.code = (run w environment arguments).run.exit.code := by
  have hrun : ∀ {w : Workspace Id} {environment arguments quiet given config},
      Request.ofArguments environment arguments = .run quiet (.check given config) →
      run w environment arguments = check w quiet given config := by
    intro w environment arguments quiet given config hparse
    rw [run, hparse]
    rfl
  rw [hrun hparse, Exit.code_eq_two_iff, Exit.code_eq_one_iff]
  refine ⟨exit_eq_failed_iff quiet, ?_, ?_, exit_eq_defects_iff quiet, ?_⟩
  · intro s before path after e hs hreadable hsplit hbefore hpath
    refine output_of_first_failing hs hreadable hsplit ?_ ?_ quiet
    · intro p hp
      obtain ⟨text, htext⟩ := hbefore p hp
      rw [Workspace.loads, htext]
      rfl
    · exact (w.loads_eq_false_iff path).mpr ⟨e, hpath⟩
  · intro entry path hentry
    exact run_check_eq_checkAlone hentry quiet
  · intro w' environment' arguments' quiet' given' config' s s' hparse' hs hs' horder
    rw [hrun hparse', horder.exit_eq hs hs' quiet quiet']

/-- A workspace with scripts at all paths but one. -/
def sampleWorkspace : Workspace Id where
  configuration := fun _ => some { detectors := ["null_primary_key"] }
  expand := fun entry => some [entry]
  load := fun path =>
    if path = "b.sql" then .error .missing else .ok "CREATE TABLE t (id INT PRIMARY KEY);"

/-- Three files, the second of which cannot be read. -/
theorem check_exit_and_output_second_file :
    Request.ofArguments none ["check", "-f", "text", "a.sql", "b.sql", "c.sql"] =
      .run false (.check { files := ["a.sql", "b.sql", "c.sql"], format := some .text } none) ∧
    (run sampleWorkspace none ["check", "-f", "text", "a.sql", "b.sql", "c.sql"]).run.exit.code = 2 ∧
    (run sampleWorkspace none ["check", "-f", "text", "a.sql", "b.sql", "c.sql"]).run.output =
      "a.sql:\n[K001] Column 'id' in table 't' (line 1) is declared PRIMARY KEY without NOT NULL\n" ++
        "Recommendation: Make sure no primary key column accepts NULL\n\n" := by
  have hparse : Request.ofArguments none ["check", "-f", "text", "a.sql", "b.sql", "c.sql"] =
      .run false (.check { files := ["a.sql", "b.sql", "c.sql"], format := some .text } none) := by
    decide +kernel
  obtain ⟨hexit, houtput, -⟩ := check_exit_and_output sampleWorkspace hparse
  refine ⟨hparse, hexit.mpr ?_, (houtput _ ["a.sql"] "b.sql" ["c.sql"] .missing rfl ?_ rfl ?_ rfl).trans ?_⟩
  · exact Or.inr ⟨_, rfl, "b.sql", by decide +kernel, .missing, rfl⟩
  · intro entry _
    rfl
  · intro p hp
    obtain rfl : p = "a.sql" := List.mem_singleton.mp hp
    exact ⟨_, rfl⟩
  · decide +kernel

end Command

end SchemaReview
