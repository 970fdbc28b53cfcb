import HeaderReflection.Proofs.Watching.Inputs

/-!
# Options that have settled

A watcher puts its options into normal form when it is made, and every build that it starts does so once more, in place.
The normal form is a fixed point: trimming and cleaning are projections, and the place of the manifest, once it has been
filled in, is one that was given. So the options of a watcher are the same in every round, and with them its inputs, its
layout and its manifest. The one exception is a config list of which the normal form is blank, which the second time is
refused.

## Main definitions

- `Watcher.round`, `Watcher.rounds`: rebuilding, with options that are put into normal form in place.

## Main results

- `Options.configList_of_normalize`, `Options.manifest_of_normalize`: fields of a normal form.
- `Options.generate_of_normalize`: what a generation does depends on the normal form alone.
- `Watcher.round_of_settled`, `Watcher.exists_rounds`: a round, and any number of rounds.
- `normalize_settles`: a normal form is kept in every round.
-/

namespace HeaderReflection

/-! ## §1 Normal forms -/

namespace Options

variable {o : Options} {run : RunOptions}

theorem configList_of_normalize (h : o.normalize = .ok run) : run.configList = cleanPath o.configList := by
  rw [tidied_of_normalize h]
  rfl

/-- **The manifest of a normal form** is the one that was given, or stands in the package directory of the layout. -/
theorem manifest_of_normalize (h : o.normalize = .ok run) :
    run.manifest = if o.manifest = [] then run.usualManifest else o.manifest := by
  rw [tidied_of_normalize h]
  rfl

/-- Options with the same normal form generate alike, also in what they tell. -/
theorem generate_of_normalize {other : Options} (h : o.normalize = .ok run) (hother : other.normalize = .ok run)
    (tree : FileTree) : other.generate tree = o.generate tree := by
  have hbuild : other.build tree = o.build tree := by
    unfold Options.build
    rw [h, hother]
  unfold Options.generate
  rw [hbuild]

end Options

/-! ## §2 Rounds of a watcher -/

namespace Watcher

variable {w : Watcher} {run : RunOptions}

/-- A round of a watcher: it rebuilds, and goes on with the options as its build has put them into normal form. -/
def round (w : Watcher) (tree : FileTree) (changed : List Text) : Except OptionsError Watcher :=
  w.options.toOptions.normalize.map fun options => { (w.rebuild tree changed).1 with options }

/-- Rounds one after the other, each with the tree that it finds and the changes that it answers. -/
def rounds (w : Watcher) (visits : List (FileTree × List Text)) : Except OptionsError Watcher :=
  visits.foldlM (fun w visit => w.round visit.1 visit.2) w

/-- A round of a watcher whose options are settled leaves them as they are. -/
theorem round_of_settled (hoptions : w.options = run) (hsettled : run.toOptions.normalize = .ok run) (tree : FileTree)
    (changed : List Text) : ∃ next, w.round tree changed = .ok next ∧ next.options = run := by
  refine ⟨{ (w.rebuild tree changed).1 with options := run }, ?_, rfl⟩
  rw [round, hoptions, hsettled]
  rfl

/-- **Any number of rounds** leaves settled options as they are. -/
theorem exists_rounds (hoptions : w.options = run) (hsettled : run.toOptions.normalize = .ok run)
    (visits : List (FileTree × List Text)) : ∃ next, w.rounds visits = .ok next ∧ next.options = run := by
  induction visits generalizing w with
  | nil => exact ⟨w, rfl, hoptions⟩
  | cons visit visits ih =>
    obtain ⟨middle, hround, hmiddle⟩ := round_of_settled hoptions hsettled visit.1 visit.2
    obtain ⟨next, hrounds, hnext⟩ := ih hmiddle
    refine ⟨next, ?_, hnext⟩
    rw [rounds, List.foldlM_cons, hround]
    exact hrounds

end Watcher

/-- **A normal form is kept.** If options are accepted and the normal form of their config list is not blank, then their
normal form is accepted as well, with every field as it is; its manifest is the one that was given, or else the one that
belongs to its own layout. So a watcher that is made from the options, whatever it finds in its rounds, goes on with the
same options: it opens the headers and writes the files that the options as they were given ask for. -/
theorem normalize_settles {o : Options} {run : RunOptions} (h : o.normalize = .ok run)
    (hlist : (cleanPath o.configList).isBlank = false) :
    run.toOptions.normalize = .ok run ∧
    run.manifest = (if o.manifest = [] then run.usualManifest else o.manifest) ∧
    ∀ debounce visits, ∃ w next, Watcher.ofOptions o debounce = .ok w ∧ w.rounds visits = .ok next ∧
      next.options = run ∧
      ∀ tree, next.options.toOptions.opened tree = o.opened tree ∧
        next.options.toOptions.generate tree = o.generate tree := by
  rw [← Options.configList_of_normalize h] at hlist
  have hsettled := Options.normalize_of_normalize h hlist
  refine ⟨hsettled, Options.manifest_of_normalize h, fun debounce visits => ?_⟩
  obtain ⟨w, hw, hoptions⟩ : ∃ w, Watcher.ofOptions o debounce = .ok w ∧ w.options = run := by
    rw [Watcher.ofOptions, h]
    exact ⟨_, rfl, rfl⟩
  obtain ⟨next, hrounds, hnext⟩ := Watcher.exists_rounds hoptions hsettled visits
  refine ⟨w, next, hw, hrounds, hnext, fun tree => ?_⟩
  rw [hnext, Options.opened_of_normalize hsettled, Options.opened_of_normalize h]
  exact ⟨rfl, Options.generate_of_normalize h hsettled tree⟩

/-- Options with blanks, dots and repeated slashes, an empty output directory and no manifest. -/
def untidyOptions : Options :=
  { packageName := " m\t", scope := "a\n", source := "src//x/../.", output := "", configList := ".//m.list/",
    exclude := ["skip/*"] }

/-- The manifest is filled in once, and stays where it is. -/
theorem settles_of_untidyOptions :
    ∃ run, untidyOptions.normalize = .ok run ∧ run.source = "src" ∧ run.output = "." ∧ run.configList = "m.list" ∧
      run.manifest = "packages/m/argen.manifest.yaml" ∧ run.toOptions.normalize = .ok run := by
  obtain ⟨run, hrun⟩ : ∃ run, untidyOptions.normalize = .ok run := ⟨_, rfl⟩
  obtain ⟨hsettled, -⟩ := normalize_settles hrun (by decide +kernel)
  refine ⟨run, hrun, ?_, ?_, ?_, ?_, hsettled⟩ <;> cases hrun <;> decide +kernel

end HeaderReflection
