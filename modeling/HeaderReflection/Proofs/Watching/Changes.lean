import HeaderReflection.Proofs.Watching.Inputs
import Mathlib.Data.List.GetD

/-!
# Changes and their rebuilds

Changes are scheduled while flushes come and go. A flush takes what is pending at one stroke and then waits for its turn
to rebuild, since rebuilds never overlap; meanwhile further changes are scheduled, and further flushes may line up
behind it in any order. Scheduling and taking exclude each other, and so do rebuilds, so a watcher at work goes through
such steps one by one.

However the steps are interleaved, the lists that the flushes have taken, with what is pending at the end, are what has
been scheduled between one take and the next.

## Main definitions

- `Watcher.Event`, `Watcher.Activity`, `Activity.run`: a watcher at work, step by step.
- `Watcher.Scheduled`: what has been scheduled after a number of takes.
- `Activity.Answers`: the flush that answers a change.

## Main results

- `Accounted.step`, `Accounted.run`: every step keeps account of all changes, and so does every run.
- `Activity.exists_run_flush`: a flush that nothing interrupts.
- `Activity.exists_drain`: flushes that wait for their turn get it.
- `changes_answered_once`: no change is lost and none is answered twice.
-/

namespace HeaderReflection.Watcher

/-! ## §1 A watcher at work -/

/-- What happens to a watcher at work. -/
inductive Event where
  /-- A file has changed. -/
  | schedule (path : Text)
  /-- A flush takes what is pending. -/
  | take
  /-- The rebuild of a flush begins. -/
  | enter (flush : Nat)
  /-- The rebuild that is running ends. -/
  | leave
  /-- The files are edited. -/
  | edit (tree : FileTree)

/-- A watcher at work. Flushes are numbered in the order in which they take. -/
structure Activity where
  watcher : Watcher
  tree : FileTree
  /-- What the flushes have taken, in their order. -/
  taken : List (List Text) := []
  /-- The flushes that wait for their turn to rebuild. -/
  waiting : List Nat := []
  /-- The flush whose rebuild is running. -/
  running : Option Nat := none
  /-- The flushes whose rebuilds have been run, with the records that these have made. -/
  rebuilt : List (Nat × List LogRecord) := []

namespace Activity

/-- The state when the rebuild of a flush has ended. The rebuild is given what its flush has taken. -/
def finished (s : Activity) (flush : Nat) : Activity :=
  let (watcher, tree, notes) := s.watcher.rebuild s.tree (s.taken.getD flush [])
  { s with watcher, tree, running := none, rebuilt := s.rebuilt ++ [(flush, notes)] }

/-- One step. A rebuild begins only when no other one is running, for any of the flushes that wait; a flush that has
taken nothing does not wait. -/
def step (s : Activity) : Event → Option Activity
  | .schedule path => some { s with watcher := s.watcher.schedule path }
  | .take =>
    let (files, watcher) := s.watcher.take
    some { s with
      watcher
      taken := s.taken ++ [files]
      waiting := if files = [] then s.waiting else s.waiting ++ [s.taken.length] }
  | .enter flush =>
    -- nothing is said about the order in which flushes get their turn
    if s.running = none ∧ flush ∈ s.waiting then
      some { s with running := some flush, waiting := s.waiting.erase flush }
    else none
  | .leave => s.running.map s.finished
  | .edit tree => some { s with tree }

/-- The steps of a run. -/
def run (s : Activity) (events : List Event) : Option Activity := events.foldlM step s

@[simp] theorem run_nil (s : Activity) : s.run [] = some s := rfl

theorem run_cons (s : Activity) (e : Event) (events : List Event) :
    s.run (e :: events) = (s.step e).bind fun next => next.run events := rfl

theorem run_append (s : Activity) (events more : List Event) :
    s.run (events ++ more) = (s.run events).bind fun next => next.run more :=
  List.foldlM_append

theorem run_concat {s next : Activity} {events : List Event} {e : Event} :
    s.run (events ++ [e]) = some next ↔ ∃ before, s.run events = some before ∧ before.step e = some next := by
  rw [run_append, Option.bind_eq_some_iff]
  simp [run_cons]

/-- The flushes that rebuild: the rebuilds that have been run, the one that is running, and those still to come. -/
def flushes (s : Activity) : List Nat := s.rebuilt.map (·.1) ++ (s.running.toList ++ s.waiting)

end Activity

/-- The flushes that have taken something. -/
def due (taken : List (List Text)) : List Nat := (List.range taken.length).filter fun k => taken.getD k [] ≠ []

theorem mem_due {taken : List (List Text)} {k : Nat} :
    k ∈ due taken ↔ ∃ files, taken[k]? = some files ∧ files ≠ [] := by
  rw [due, List.mem_filter, List.mem_range, List.getD_eq_getElem?_getD]
  cases hfiles : taken[k]? with
  | none => simp
  | some files =>
    obtain ⟨hk, -⟩ := List.getElem?_eq_some_iff.mp hfiles
    simp [hk]

theorem nodup_due (taken : List (List Text)) : (due taken).Nodup := List.nodup_range.filter _

theorem due_concat (taken : List (List Text)) (files : List Text) :
    due (taken ++ [files]) = due taken ++ if files = [] then [] else [taken.length] := by
  have hearlier : ∀ k ∈ List.range taken.length, (taken ++ [files]).getD k [] = taken.getD k [] := by
    intro k hk
    rw [List.getD_append _ _ _ _ (List.mem_range.mp hk)]
  unfold due
  rw [List.length_append, List.length_singleton, List.range_succ, List.filter_append]
  congr 1
  · apply List.filter_congr
    intro k hk
    rw [hearlier k hk]
  · by_cases hfiles : files = [] <;> simp [hfiles]

/-! ## §2 What is scheduled when -/

/-- The number of takes. -/
def takes (events : List Event) : Nat :=
  events.countP fun
    | .take => true
    | _ => false

@[simp] theorem takes_append (events more : List Event) : takes (events ++ more) = takes events + takes more :=
  List.countP_append

/-- A path has been scheduled in a round: after that many takes, and before the next one. -/
def Scheduled (events : List Event) (round : Nat) (path : Text) : Prop :=
  ∃ before after, events = before ++ .schedule path :: after ∧ takes before = round

theorem scheduled_concat {events : List Event} {e : Event} {round : Nat} {path : Text} :
    Scheduled (events ++ [e]) round path ↔ Scheduled events round path ∨ e = .schedule path ∧ takes events = round := by
  constructor
  · rintro ⟨before, after, heq, hround⟩
    -- the last event is the one that schedules, or it comes after that
    rcases List.eq_nil_or_concat' after with rfl | ⟨after, last, rfl⟩
    · obtain ⟨rfl, he⟩ := List.append_inj' heq rfl
      exact Or.inr ⟨(List.cons.inj he).1, hround⟩
    · rw [← List.cons_append, ← List.append_assoc] at heq
      exact Or.inl ⟨before, after, (List.append_inj' heq rfl).1, hround⟩
  · rintro (⟨before, after, rfl, hround⟩ | ⟨rfl, hround⟩)
    · exact ⟨before, after ++ [e], by simp, hround⟩
    · exact ⟨events, [], rfl, hround⟩

theorem Scheduled.le_takes {events : List Event} {round : Nat} {path : Text} (h : Scheduled events round path) :
    round ≤ takes events := by
  obtain ⟨before, after, rfl, rfl⟩ := h
  rw [takes_append]
  exact Nat.le_add_right _ _

/-- A list of files holds what has been scheduled in a round: sorted, and each path once. -/
structure Gathers (events : List Event) (round : Nat) (files : List Text) : Prop where
  sorted : files.Pairwise fun s t => Text.lt s t = true
  mem_iff : ∀ path, path ∈ files ↔ Scheduled events round path

theorem Gathers.concat {events : List Event} {round : Nat} {files : List Text} (h : Gathers events round files)
    {e : Event} (he : ∀ path, e = .schedule path → takes events ≠ round) : Gathers (events ++ [e]) round files where
  sorted := h.sorted
  mem_iff path := by
    rw [h.mem_iff, scheduled_concat]
    constructor
    · exact Or.inl
    · rintro (hscheduled | ⟨rfl, hround⟩)
      · exact hscheduled
      · exact absurd hround (he path rfl)

theorem Gathers.schedule {events : List Event} {files : List Text} (h : Gathers events (takes events) files)
    (path : Text) : Gathers (events ++ [.schedule path]) (takes events) (Text.insertUnique path files) where
  sorted := Text.pairwise_insertUnique h.sorted path
  mem_iff other := by
    rw [Text.mem_insertUnique, h.mem_iff, scheduled_concat, Event.schedule.injEq]
    constructor
    · rintro (rfl | hscheduled)
      · exact Or.inr ⟨rfl, rfl⟩
      · exact Or.inl hscheduled
    · rintro (hscheduled | ⟨rfl, -⟩)
      · exact Or.inr hscheduled
      · exact Or.inl rfl

/-- Nothing has been scheduled after a last take. -/
theorem gathers_nil {events : List Event} {round : Nat} (h : takes events < round) : Gathers events round [] where
  sorted := List.Pairwise.nil
  mem_iff path := by
    constructor
    · intro hpath
      cases hpath
    · intro hscheduled
      exact absurd hscheduled.le_takes (Nat.not_le.mpr h)

/-! ## §3 Keeping account -/

/-- The record of the changes that a rebuild answers. -/
def changeNote (files : List Text) : LogRecord where
  level := .info
  message := "Change detected"
  attributes := [("files", .texts files)]

/-- What a rebuild tells first is which changes it answers. -/
theorem exists_rebuild_notes (w : Watcher) (tree : FileTree) {files : List Text} (h : files ≠ []) :
    ∃ rest, (w.rebuild tree files).2.2 = (changeNote files).within w.logContext :: rest := by
  unfold rebuild changeNotes
  rw [if_neg h]
  exact ⟨_, rfl⟩

theorem keeps_rebuild (w : Watcher) (tree : FileTree) (files : List Text) :
    (w.rebuild tree files).1.options = w.options ∧ (w.rebuild tree files).1.pending = w.pending := by
  rw [fst_rebuild, outcome_refresh]
  cases w.options.headers tree with
  | error error => exact ⟨rfl, rfl⟩
  | ok headers => exact ⟨rfl, rfl⟩

theorem Activity.pending_finished (s : Activity) (flush : Nat) :
    (s.finished flush).watcher.pending = s.watcher.pending :=
  (keeps_rebuild s.watcher s.tree (s.taken.getD flush [])).2

/-- **The account of a run**: what has been taken and what is pending is what has been scheduled, and of the flushes
those that have taken something rebuild, each once, and tell what they have taken. -/
structure Accounted (start : Watcher) (events : List Event) (s : Activity) : Prop where
  options : s.watcher.options = start.options
  length_taken : s.taken.length = takes events
  taken : ∀ k files, s.taken[k]? = some files → Gathers events k files
  pending : Gathers events (takes events) s.watcher.pending
  flushes : s.flushes.Perm (due s.taken)
  told : ∀ r ∈ s.rebuilt, ∃ files rest, s.taken[r.1]? = some files ∧
    r.2 = (changeNote files).within start.logContext :: rest

namespace Accounted

variable {start : Watcher} {events : List Event} {s next : Activity}

theorem init (hstart : start.pending = []) (tree : FileTree) : Accounted start [] { watcher := start, tree } where
  options := rfl
  length_taken := rfl
  taken k files h := by cases h
  pending := by
    refine ⟨by simp [hstart], fun path => ?_⟩
    simp [hstart, Scheduled]
  flushes := List.Perm.refl _
  told r hr := by cases hr

/-- The rounds of earlier flushes are closed. -/
theorem taken_concat (h : Accounted start events s) (e : Event) {k : Nat} {files : List Text}
    (hk : s.taken[k]? = some files) : Gathers (events ++ [e]) k files := by
  apply (h.taken k files hk).concat
  rintro path - heq
  obtain ⟨hlt, -⟩ := List.getElem?_eq_some_iff.mp hk
  rw [h.length_taken] at hlt
  omega

theorem schedule (h : Accounted start events s) (path : Text) :
    Accounted start (events ++ [.schedule path]) { s with watcher := s.watcher.schedule path } where
  options := h.options
  length_taken := by
    rw [takes_append]
    exact h.length_taken
  taken k files hk := h.taken_concat _ hk
  pending := by
    rw [takes_append]
    exact h.pending.schedule path
  flushes := h.flushes
  told := h.told

theorem take (h : Accounted start events s) :
    Accounted start (events ++ [.take]) { s with
      watcher := s.watcher.take.2
      taken := s.taken ++ [s.watcher.pending]
      waiting := if s.watcher.pending = [] then s.waiting else s.waiting ++ [s.taken.length] } where
  options := h.options
  length_taken := by
    rw [takes_append, List.length_append, h.length_taken]
    rfl
  taken k files hk := by
    rw [List.getElem?_append] at hk
    split at hk
    · exact h.taken_concat _ hk
    · -- the flush of this step closes the round that was open
      next hge =>
      obtain ⟨hlt, rfl⟩ := List.getElem?_eq_some_iff.mp hk
      rw [List.length_singleton] at hlt
      have hlast : k = takes events := by
        rw [← h.length_taken]
        omega
      have hfirst : [s.watcher.pending][k - s.taken.length] = s.watcher.pending := by simp
      rw [hfirst, hlast]
      exact h.pending.concat (by rintro path ⟨⟩)
  pending := by
    rw [takes_append]
    exact (gathers_nil (Nat.lt_succ_self (takes events))).concat (by rintro path ⟨⟩)
  flushes := by
    show List.Perm (_ ++ (_ ++ ite _ _ _)) _
    rw [due_concat]
    -- the flush lines up behind the others exactly if it is due
    split
    · rw [List.append_nil]
      exact h.flushes
    · rw [← List.append_assoc, ← List.append_assoc, List.append_assoc (s.rebuilt.map (·.1))]
      exact h.flushes.append_right _
  told r hr := by
    obtain ⟨files, rest, hfiles, hnotes⟩ := h.told r hr
    obtain ⟨hlt, -⟩ := List.getElem?_eq_some_iff.mp hfiles
    exact ⟨files, rest, by rwa [List.getElem?_append_left hlt], hnotes⟩

/-- A step that schedules and takes nothing leaves the account as it is. -/
theorem other (h : Accounted start events s) {e : Event} (hschedule : ∀ path, e ≠ .schedule path) (htake : e ≠ .take)
    (hwatcher : next.watcher.options = s.watcher.options ∧ next.watcher.pending = s.watcher.pending)
    (htaken : next.taken = s.taken) (hflushes : next.flushes.Perm s.flushes)
    (htold : ∀ r ∈ next.rebuilt, ∃ files rest, s.taken[r.1]? = some files ∧
      r.2 = (changeNote files).within start.logContext :: rest) :
    Accounted start (events ++ [e]) next := by
  have htakes : takes (events ++ [e]) = takes events := by
    cases e with
    | take => exact absurd rfl htake
    | schedule path => exact absurd rfl (hschedule path)
    | enter flush => simp [takes]
    | leave => simp [takes]
    | edit tree => simp [takes]
  refine ⟨hwatcher.1.trans h.options, ?_, ?_, ?_, ?_, ?_⟩
  · rw [htaken, htakes, h.length_taken]
  · intro k files hk
    rw [htaken] at hk
    exact h.taken_concat e hk
  · rw [hwatcher.2, htakes]
    exact h.pending.concat fun path he => absurd he (hschedule path)
  · rw [htaken]
    exact hflushes.trans h.flushes
  · rwa [htaken]

/-- A flush that rebuilds has taken something. -/
theorem exists_taken (h : Accounted start events s) {k : Nat} (hk : k ∈ s.flushes) :
    ∃ files, s.taken[k]? = some files ∧ files ≠ [] :=
  mem_due.mp (h.flushes.mem_iff.mp hk)

theorem leave (h : Accounted start events s) {flush : Nat} (hrunning : s.running = some flush) :
    Accounted start (events ++ [.leave]) (s.finished flush) := by
  refine h.other (by simp) (by simp) ?_ rfl ?_ ?_
  · exact keeps_rebuild s.watcher s.tree (s.taken.getD flush [])
  · simp [Activity.flushes, Activity.finished, hrunning]
  · intro r hr
    rcases List.mem_append.mp hr with hr | hr
    · exact h.told r hr
    · -- the flush was running, so it is due and its rebuild has something to tell
      obtain rfl := List.mem_singleton.mp hr
      obtain ⟨files, hfiles, hne⟩ := h.exists_taken (show flush ∈ s.flushes by simp [Activity.flushes, hrunning])
      obtain ⟨rest, hrest⟩ := exists_rebuild_notes s.watcher s.tree hne
      have hcontext : s.watcher.logContext = start.logContext := by
        unfold logContext
        rw [h.options]
      have hchanged : s.taken.getD flush [] = files := by
        rw [List.getD_eq_getElem?_getD, hfiles, Option.getD_some]
      refine ⟨files, rest, hfiles, ?_⟩
      rw [← hcontext, ← hrest, ← hchanged]
      rfl

/-- **Every step keeps account of all changes.** -/
theorem step (h : Accounted start events s) {e : Event} (hnext : s.step e = some next) :
    Accounted start (events ++ [e]) next := by
  cases e with
  | schedule path =>
    cases hnext
    exact h.schedule path
  | take =>
    cases hnext
    exact h.take
  | enter flush =>
    rw [Activity.step] at hnext
    split at hnext
    · next hidle =>
      cases hnext
      obtain ⟨hrunning, hwaiting⟩ := hidle
      refine h.other (by simp) (by simp) ⟨rfl, rfl⟩ rfl ?_ h.told
      -- the flush moves from the waiting ones to the front
      apply List.Perm.append_left
      rw [hrunning]
      exact (List.perm_cons_erase hwaiting).symm
    · cases hnext
  | leave =>
    obtain ⟨flush, hrunning, rfl⟩ := Option.map_eq_some_iff.mp hnext
    exact h.leave hrunning
  | edit tree =>
    cases hnext
    exact h.other (by simp) (by simp) ⟨rfl, rfl⟩ rfl (List.Perm.refl _) h.told

/-- **Every run keeps account of all changes.** -/
theorem run (hstart : start.pending = []) (tree : FileTree)
    (hrun : ({ watcher := start, tree } : Activity).run events = some s) : Accounted start events s := by
  -- the account is about all events so far, so the run is taken apart at its last step
  induction events using List.reverseRecOn generalizing s with
  | nil =>
    cases hrun
    exact init hstart tree
  | append_singleton events e ih =>
    obtain ⟨before, hbefore, hstep⟩ := Activity.run_concat.mp hrun
    exact (ih hbefore).step hstep

end Accounted

/-! ## §4 Flushes -/

namespace Activity

variable {s : Activity}

/-- **A flush that nothing interrupts** takes, and rebuilds at once if it has taken anything. -/
theorem exists_run_flush (hidle : s.running = none) :
    ∃ done, s.run (if s.watcher.pending = [] then [.take] else [.take, .enter s.taken.length, .leave]) = some done ∧
      (done.watcher, done.tree, (done.rebuilt.drop s.rebuilt.length).flatMap (·.2)) = s.watcher.flush s.tree := by
  by_cases hpending : s.watcher.pending = []
  · rw [if_pos hpending]
    refine ⟨_, rfl, ?_⟩
    simp [Watcher.flush, Watcher.take, hpending]
  · rw [if_neg hpending]
    simp [run, step, finished, Watcher.flush, Watcher.take, hpending, hidle]

theorem exists_drain_of_idle (hidle : s.running = none) :
    ∃ more done, s.run more = some done ∧ done.taken = s.taken ∧ done.watcher.pending = s.watcher.pending ∧
      done.rebuilt.map (·.1) = s.rebuilt.map (·.1) ++ s.waiting := by
  induction hwaiting : s.waiting generalizing s with
  | nil => exact ⟨[], s, rfl, rfl, rfl, by simp⟩
  | cons flush waiting ih =>
    -- the first of those that wait gets its turn; then the others do
    have henter : s.step (.enter flush) = some { s with running := some flush, waiting := waiting } := by
      simp [step, hidle, hwaiting]
    obtain ⟨more, done, hdone, htaken, hpending, hrebuilt⟩ :=
      ih (s := finished { s with running := some flush, waiting := waiting } flush) rfl rfl
    refine ⟨.enter flush :: .leave :: more, done, ?_, htaken, ?_, ?_⟩
    · rw [run_cons, henter]
      exact hdone
    · exact hpending.trans (pending_finished _ _)
    · rw [hrebuilt]
      simp [finished]

/-- **Flushes that wait for their turn get it**: their rebuilds can be run one after the other. -/
theorem exists_drain (s : Activity) :
    ∃ more done, s.run more = some done ∧ done.taken = s.taken ∧ done.watcher.pending = s.watcher.pending ∧
      done.rebuilt.map (·.1) = s.flushes := by
  cases hrunning : s.running with
  | none =>
    obtain ⟨more, done, hdone, htaken, hpending, hrebuilt⟩ := exists_drain_of_idle hrunning
    exact ⟨more, done, hdone, htaken, hpending, by simp [hrebuilt, flushes, hrunning]⟩
  | some flush =>
    -- the rebuild that is running ends first
    obtain ⟨more, done, hdone, htaken, hpending, hrebuilt⟩ := exists_drain_of_idle (s := s.finished flush) rfl
    refine ⟨.leave :: more, done, ?_, htaken, hpending.trans (pending_finished _ _), ?_⟩
    · rw [run_cons, step, hrunning]
      exact hdone
    · rw [hrebuilt]
      simp [finished, flushes, hrunning]

end Activity

/-! ## §5 Every change is answered once -/

/-- A flush answers a change of a round if it has taken the path since, and nobody has scheduled the path anew in a
later round up to the take. -/
structure Activity.Answers (s : Activity) (events : List Event) (round : Nat) (path : Text) (flush : Nat) : Prop where
  since : round ≤ flush
  mem : ∃ files, s.taken[flush]? = some files ∧ path ∈ files
  notAnew : ∀ later, round < later → later ≤ flush → ¬ Scheduled events later path

namespace Accounted

variable {start : Watcher} {events before after : List Event} {s : Activity} {path : Text}

theorem mem_flushes_iff (h : Accounted start events s) {k : Nat} :
    k ∈ s.flushes ↔ k < takes events ∧ ∃ path, Scheduled events k path := by
  rw [h.flushes.mem_iff, mem_due]
  constructor
  · rintro ⟨files, hfiles, hne⟩
    obtain ⟨hlt, -⟩ := List.getElem?_eq_some_iff.mp hfiles
    obtain ⟨path, hpath⟩ := List.exists_mem_of_ne_nil files hne
    exact ⟨h.length_taken ▸ hlt, path, ((h.taken k files hfiles).mem_iff path).mp hpath⟩
  · rintro ⟨hlt, path, hpath⟩
    rw [← h.length_taken] at hlt
    have hfiles := List.getElem?_eq_getElem hlt
    exact ⟨_, hfiles, List.ne_nil_of_mem (((h.taken k _ hfiles).mem_iff path).mpr hpath)⟩

/-- While no flush comes, a change stays pending and unanswered. -/
theorem pending_of_no_take (h : Accounted start events s) (hevents : events = before ++ .schedule path :: after)
    (hafter : takes after = 0) :
    path ∈ s.watcher.pending ∧ ∀ k, ¬ s.Answers events (takes before) path k := by
  have htakes : takes events = takes before := by
    rw [hevents, takes_append]
    simpa [takes] using hafter
  refine ⟨(h.pending.mem_iff path).mpr ⟨before, after, hevents, htakes.symm⟩, ?_⟩
  rintro k ⟨hsince, ⟨files, hfiles, -⟩, -⟩
  obtain ⟨hlt, -⟩ := List.getElem?_eq_some_iff.mp hfiles
  rw [h.length_taken] at hlt
  omega

/-- The next flush answers a change, and no other one does. -/
theorem existsUnique_answers (h : Accounted start events s) (hevents : events = before ++ .schedule path :: after)
    (hafter : 0 < takes after) : ∃! k, s.Answers events (takes before) path k := by
  have hlt : takes before < s.taken.length := by
    rw [h.length_taken, hevents, takes_append]
    have hrest : takes (.schedule path :: after) = takes after := by simp [takes]
    omega
  have hfiles := List.getElem?_eq_getElem hlt
  refine ⟨takes before, ⟨Nat.le_refl _, ⟨_, hfiles, ?_⟩, by omega⟩, ?_⟩
  · exact ((h.taken _ _ hfiles).mem_iff path).mpr ⟨before, after, hevents, rfl⟩
  · rintro k ⟨hsince, ⟨files, hfiles, hpath⟩, hanew⟩
    by_contra hne
    -- a later flush has taken the path only if it has been scheduled anew
    exact hanew k (by omega) (Nat.le_refl _) (((h.taken k files hfiles).mem_iff path).mp hpath)

end Accounted

/-- **No change is lost and none is answered twice**, however changes, flushes and rebuilds are interleaved. What a
flush has taken is, in strictly increasing order, what was scheduled between the take before and its own; what is
pending is what has been scheduled since the last take. So each change is pending, or exactly one flush after it answers
it. A flush rebuilds, just once, exactly if anything was scheduled since the take before; the rebuild tells what has
been taken, and it can be run whatever else waits. -/
theorem changes_answered_once {w : Watcher} (hw : w.pending = []) (tree : FileTree) {events : List Event}
    {s : Activity} (hrun : ({ watcher := w, tree } : Activity).run events = some s) :
    s.taken.length = takes events ∧
      (∀ k files, s.taken[k]? = some files → Gathers events k files) ∧
      Gathers events (takes events) s.watcher.pending ∧
      (∀ before path after, events = before ++ .schedule path :: after →
        (takes after = 0 ∧ path ∈ s.watcher.pending ∧ ∀ k, ¬ s.Answers events (takes before) path k) ∨
        (0 < takes after ∧ ∃! k, s.Answers events (takes before) path k)) ∧
      s.flushes.Nodup ∧
      (∀ k, k ∈ s.flushes ↔ k < takes events ∧ ∃ path, Scheduled events k path) ∧
      (∀ r ∈ s.rebuilt, ∃ files rest, s.taken[r.1]? = some files ∧
        r.2 = (changeNote files).within w.logContext :: rest) ∧
      ∃ more done, s.run more = some done ∧ done.taken = s.taken ∧ done.watcher.pending = s.watcher.pending ∧
        done.rebuilt.map (·.1) = s.flushes := by
  have h := Accounted.run hw tree hrun
  refine ⟨h.length_taken, h.taken, h.pending, ?_, ?_, fun k => h.mem_flushes_iff, h.told, s.exists_drain⟩
  · intro before path after hevents
    rcases Nat.eq_zero_or_pos (takes after) with hafter | hafter
    · exact Or.inl ⟨hafter, h.pending_of_no_take hevents hafter⟩
    · exact Or.inr ⟨hafter, h.existsUnique_answers hevents hafter⟩
  · exact h.flushes.nodup_iff.mpr (nodup_due s.taken)

/-- Changes in three rounds: the second flush overtakes the first one, the third one finds nothing, and a change comes
while a rebuild is running. -/
def overtaking : List Event :=
  [.schedule "b.h", .schedule "a.h", .schedule "b.h", .take, .schedule "a.h", .take, .take, .enter 1, .schedule "c.h",
    .leave]

def emptyWatcher : Watcher := Options.watcher { packageName := "m", configList := "m.list" } []

/-- What the flushes have taken then. -/
def overtakingTaken : List (List Text) := [["a.h", "b.h"], ["a.h"], []]

theorem answered_once_of_overtaking :
    emptyWatcher.pending = [] ∧ ∃ s, ({ watcher := emptyWatcher, tree := {} } : Activity).run overtaking = some s ∧
      s.taken = overtakingTaken ∧ s.watcher.pending = ["c.h"] ∧ s.flushes = [1, 0] ∧
      ∃! k, s.Answers overtaking 1 "a.h" k := by
  obtain ⟨s, hrun, htaken, hpending, hflushes⟩ :
      ∃ s, ({ watcher := emptyWatcher, tree := {} } : Activity).run overtaking = some s ∧
        s.taken = overtakingTaken ∧ s.watcher.pending = ["c.h"] ∧ s.flushes = [1, 0] := by
    refine ⟨_, rfl, ?_, ?_, ?_⟩ <;> decide +kernel
  refine ⟨rfl, s, hrun, htaken, hpending, hflushes, ?_⟩
  obtain ⟨-, -, -, hanswers, -⟩ := changes_answered_once (w := emptyWatcher) rfl {} hrun
  rcases hanswers (overtaking.take 4) "a.h" (overtaking.drop 5) rfl with ⟨hnone, -⟩ | ⟨-, hunique⟩
  · exact absurd hnone (by decide)
  · exact hunique

end HeaderReflection.Watcher
