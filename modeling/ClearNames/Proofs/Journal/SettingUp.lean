import ClearNames.Journal.Basic
import Mathlib.Data.List.Induction

/-! Any number of calls that set up a journal.

Whatever the calls ask for, the handlers of others stay as they are, and at most
one own handler stands behind them, with a listener that runs. The flag tells
that a call has installed a handler once; it is set without a handler exactly
after a forced call that found no sink, and until a forced call finds one again.
-/

set_option autoImplicit false

namespace ClearNames.Journal

/-- A call for setting up: what it asks for, whether it is forced, and the disk that it finds. -/
structure Call where
  settings : JournalSettings
  force : Bool
  disk : Disk

/-- The sinks that a call finds: none where it breaks down, nor where it asks for none that can be had. -/
def Call.sinks (call : Call) : List Sink :=
  match gatherSinks call.settings call.disk with
  | .ok (sinks, _, _) => sinks
  | .error _ => []

def step (journal : Journal) (call : Call) : Journal := (journal.attempt call.settings call.force call.disk).1

def after (journal : Journal) (calls : List Call) : Journal := calls.foldl step journal

/-- A journal that was never set up: all its handlers are those of others. -/
structure Unconfigured (journal : Journal) : Prop where
  foreign : .own ∉ journal.handlers
  listener : journal.listener = none
  flag : journal.configured = false

/-- Exactly one own handler is installed, and the listener runs. -/
def Installed (journal : Journal) : Prop := journal.ownCount = 1 ∧ journal.listener.isSome

instance (journal : Journal) : Decidable journal.Installed := inferInstanceAs (Decidable (_ ∧ _))

/-- A call that comes too late to be looked at. -/
def Skips (journal : Journal) (call : Call) : Prop := journal.configured ∧ call.force = false

/-- Some call found a sink. -/
def Equipped (calls : List Call) : Prop := ∃ call ∈ calls, call.sinks ≠ []

/-- A forced call that found no sink came after one that did, and no forced call after it found one. -/
def Forsaken (calls : List Call) : Prop :=
  ∃ before call later, calls = before ++ call :: later ∧ Equipped before ∧ call.force ∧ call.sinks = [] ∧
    ∀ other ∈ later, other.force → other.sinks = []

/-! ## One call -/

section
variable {start journal : Journal} {call : Call}

/-- A journal as set-ups leave it: the handlers it started with, and behind them an own one if it is
installed, with a listener; and the flag. -/
structure SetUpTo (start journal : Journal) (configured installed : Prop) : Prop where
  bare : ¬ installed → journal.handlers = start.handlers
  owned : installed → journal.handlers = start.handlers ++ [.own]
  listener : journal.listener.isSome ↔ installed
  flag : journal.configured ↔ configured

theorem Unconfigured.setUpTo (unconfigured : start.Unconfigured) : SetUpTo start start False False where
  bare _ := rfl
  owned := False.elim
  listener := by simp [unconfigured.listener]
  flag := by simp [unconfigured.flag]

theorem step_of_skips (skips : journal.Skips call) : journal.step call = journal := by
  obtain ⟨configured, unforced⟩ := skips
  simp [step, attempt, configured, unforced]

theorem step_of_not_skips (looks : ¬ journal.Skips call) :
    journal.step call = (journal.tearDown (severityNamed call.settings.severity)).install call.sinks := by
  have taken : (journal.configured && !call.force) = false := by
    simpa [Skips] using looks
  unfold step attempt Call.sinks
  rw [taken]
  simp only [Bool.false_eq_true, if_false]
  cases gatherSinks call.settings call.disk with
  | ok found => rfl
  | error fault => simp [install]

theorem SetUpTo.handlers_tearDown {configured installed : Prop} (foreign : .own ∉ start.handlers)
    (left : SetUpTo start journal configured installed) (severity : Severity) :
    (journal.tearDown severity).handlers = start.handlers := by
  have others : ∀ handler ∈ start.handlers, handler ≠ .own := fun handler member same => foreign (same ▸ member)
  unfold tearDown
  by_cases had : installed
  · simpa [left.owned had] using others
  · simpa [left.bare had] using others

theorem SetUpTo.step {configured installed : Prop} (foreign : .own ∉ start.handlers)
    (left : SetUpTo start journal configured installed) (looks : ¬ journal.Skips call) :
    SetUpTo start (journal.step call) (configured ∨ call.sinks ≠ []) (call.sinks ≠ []) := by
  have cleared := left.handlers_tearDown foreign (severityNamed call.settings.severity)
  rw [step_of_not_skips looks]
  by_cases none : call.sinks = []
  · refine ⟨fun _ => ?_, fun some => absurd none some, ?_, ?_⟩
    · simpa [install, none] using cleared
    · simp [install, none, tearDown]
    · simpa [install, none, tearDown] using left.flag
  · refine ⟨fun empty => absurd none empty, fun _ => ?_, ?_, ?_⟩
    · simp [install, none, cleared]
    · simp [install, none]
    · simp [install, none]

end

/-! ## Many calls -/

section
variable {calls : List Call} {call : Call}

theorem equipped_concat : Equipped (calls ++ [call]) ↔ Equipped calls ∨ call.sinks ≠ [] := by
  simp [Equipped, or_and_right, exists_or]

theorem forsaken_concat : Forsaken (calls ++ [call]) ↔
    (Equipped calls ∧ call.force ∧ call.sinks = []) ∨ (Forsaken calls ∧ (call.force → call.sinks = [])) := by
  constructor
  · rintro ⟨before, last, later, whole, equipped, forced, none, others⟩
    rcases List.eq_nil_or_concat later with rfl | ⟨front, final, rfl⟩
    · obtain ⟨rfl, same⟩ := List.append_inj' whole rfl
      cases same
      exact .inl ⟨equipped, forced, none⟩
    · rw [List.concat_eq_append, ← List.cons_append, ← List.append_assoc] at whole
      obtain ⟨rfl, same⟩ := List.append_inj' whole rfl
      cases same
      refine .inr ⟨⟨before, last, front, rfl, equipped, forced, none, fun other member => ?_⟩, ?_⟩
      · exact others other (by simp [member])
      · exact others call (by simp)
  · rintro (⟨equipped, forced, none⟩ | ⟨⟨before, last, later, rfl, equipped, forced, none, others⟩, final⟩)
    · exact ⟨calls, call, [], rfl, equipped, forced, none, List.forall_mem_nil _⟩
    · refine ⟨before, last, later ++ [call], by simp, equipped, forced, none, ?_⟩
      rw [List.forall_mem_append, List.forall_mem_singleton]
      exact ⟨others, final⟩

theorem Forsaken.equipped (forsaken : Forsaken calls) : Equipped calls := by
  obtain ⟨before, last, later, rfl, ⟨earlier, member, found⟩, -⟩ := forsaken
  exact ⟨earlier, List.mem_append_left _ member, found⟩

variable {start : Journal}

theorem after_concat : start.after (calls ++ [call]) = (start.after calls).step call := by
  simp [after]

theorem Unconfigured.after (unconfigured : start.Unconfigured) (calls : List Call) :
    SetUpTo start (start.after calls) (Equipped calls) (Equipped calls ∧ ¬ Forsaken calls) := by
  induction calls using List.reverseRecOn with
  | nil =>
    have unequipped : ¬ Equipped [] := by simp [Equipped]
    simpa [unequipped, Journal.after] using unconfigured.setUpTo
  | append_singleton calls call ih =>
    rw [after_concat, equipped_concat, forsaken_concat]
    by_cases skips : (start.after calls).Skips call
    · have equipped : Equipped calls := ih.flag.mp skips.1
      rw [step_of_skips skips]
      simpa [equipped, skips.2] using ih
    · have next := ih.step unconfigured.foreign skips
      -- Looked at, a call with sinks is forced or the first of its kind; one without them forsakes what was there.
      have same : (Equipped calls ∨ call.sinks ≠ []) ∧
          ¬ (Equipped calls ∧ call.force ∧ call.sinks = [] ∨ Forsaken calls ∧ (call.force → call.sinks = [])) ↔
          call.sinks ≠ [] := by
        have looked : Equipped calls → call.force := fun equipped => by
          simpa [Skips, ih.flag.mpr equipped] using skips
        have earlier : Forsaken calls → Equipped calls := Forsaken.equipped
        tauto
      rwa [same]

theorem SetUpTo.installed_iff {journal : Journal} {configured installed : Prop} (foreign : .own ∉ start.handlers)
    (left : SetUpTo start journal configured installed) :
    journal.handlers.filter (· ≠ .own) = start.handlers ∧ journal.ownCount ≤ 1 ∧
      (journal.ownCount = 1 ↔ journal.listener.isSome) ∧ (journal.Installed ↔ installed) := by
  have others : ∀ handler ∈ start.handlers, handler ≠ .own := fun handler member same => foreign (same ▸ member)
  have none : start.handlers.count .own = 0 := List.count_eq_zero_of_not_mem foreign
  by_cases had : installed
  · refine ⟨by simpa [left.owned had] using others, ?_, ?_, ?_⟩
    · simp [ownCount, left.owned had, none]
    · simp [ownCount, left.owned had, none, left.listener, had]
    · simp [Installed, ownCount, left.owned had, none, left.listener]
  · refine ⟨by simpa [left.bare had] using others, ?_, ?_, ?_⟩
    · simp [ownCount, left.bare had, none]
    · simp [ownCount, left.bare had, none, left.listener, had]
    · simp [Installed, ownCount, left.bare had, none, had]

/-- After any calls the handlers of others are as they were, at most one own handler is there, and the flag tells
of the handler and its listener, unless a forced call without a sink took them away for good. Unless it did, a call
is passed over only where a handler is installed, and a call that finds a sink leaves one installed. -/
theorem after_calls (unconfigured : start.Unconfigured) (calls : List Call) :
    let journal := start.after calls
    journal.handlers.filter (· ≠ .own) = start.handlers ∧ journal.ownCount ≤ 1 ∧
      (journal.ownCount = 1 ↔ journal.listener.isSome) ∧ (journal.Installed → journal.configured) ∧
      ((journal.configured ↔ journal.Installed) ↔ ¬ Forsaken calls) ∧
      (¬ Forsaken calls → ∀ call, (journal.Skips call → journal.Installed) ∧
        (call.sinks ≠ [] → (journal.step call).Installed)) := by
  intro journal
  have left : SetUpTo start journal (Equipped calls) (Equipped calls ∧ ¬ Forsaken calls) := unconfigured.after calls
  obtain ⟨handlers, single, paired, installed⟩ := left.installed_iff unconfigured.foreign
  have flag := left.flag
  have earlier : Forsaken calls → Equipped calls := Forsaken.equipped
  refine ⟨handlers, single, paired, by tauto, by tauto, fun kept call => ⟨fun skips => ?_, fun some => ?_⟩⟩
  · exact installed.mpr ⟨flag.mp skips.1, kept⟩
  · by_cases skips : journal.Skips call
    · rw [step_of_skips skips]
      exact installed.mpr ⟨flag.mp skips.1, kept⟩
    · exact ((left.step unconfigured.foreign skips).installed_iff unconfigured.foreign).2.2.2.mpr some

end

def usualCall : Call := ⟨{}, false, ⟨.directory [], "/"⟩⟩

def silentCall : Call := ⟨{ console := false }, true, ⟨.directory [], "/"⟩⟩

theorem unconfigured_untouched (foreign : List String) : (untouched foreign).Unconfigured where
  foreign := by simp [untouched]
  listener := rfl
  flag := rfl

/-- A forced call that finds a sink again puts things right. -/
theorem after_calls_renewed :
    let renewed : Call := { usualCall with force := true }
    let calls := [usualCall, silentCall, renewed]
    (untouched ["host"]).Unconfigured ∧ ¬ Forsaken calls ∧
      ((untouched ["host"]).after calls).handlers = [.foreign "host", .own] ∧ ((untouched ["host"]).after calls).Installed := by
  intro renewed calls
  have found : renewed.sinks ≠ [] := by decide
  have kept : ¬ Forsaken calls := by
    rw [show calls = [usualCall, silentCall] ++ [renewed] from rfl, forsaken_concat]
    simp [found, show renewed.force = true from rfl]
  have accounted := after_calls (unconfigured_untouched ["host"]) calls
  exact ⟨unconfigured_untouched ["host"], kept, by decide, (accounted.2.2.2.2.1.mpr kept).mp (by decide)⟩

/-- A forced call without a sink leaves the flag set and no handler, and the next call is passed over. -/
theorem after_calls_fails_silentCall :
    let journal := (untouched []).after [usualCall, silentCall]
    (untouched []).Unconfigured ∧ journal.configured ∧ ¬ journal.Installed ∧ usualCall.sinks ≠ [] ∧
      journal.Skips usualCall ∧ ¬ (journal.step usualCall).Installed := by
  intro journal
  have skips : journal.Skips usualCall := ⟨by decide, rfl⟩
  have gone : ¬ journal.Installed := by decide
  exact ⟨unconfigured_untouched [], by decide, gone, by decide, skips, by rwa [step_of_skips skips]⟩

end ClearNames.Journal
